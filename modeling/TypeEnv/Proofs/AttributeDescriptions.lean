import TypeEnv.Proofs.AttributeRuns
import TypeEnv.Proofs.LocatedAttributes

namespace TypeEnv

namespace AttributeInfo

variable {own : CompilationUnit} {info : AttributeInfo}

end AttributeInfo

namespace Session

variable {session start : Session} {requests : List Request} {full : String}
  {names : AttributeNames} {interner : Interner} {info : AttributeInfo}

section Consistent

variable (catalogued : session.Catalogued requests)

include catalogued

end Consistent

section First

variable (catalogued : session.Catalogued requests)

include catalogued

theorem lookup_of_unasked
    (interned : Interner.internAttribute full session.interner = .ok names interner)
    (unasked : .findAttribute full ∉ requests)
    (other : ∀ attr : RequiredAttribute, full ≠ attr.fullName) :
    session.attributes.found.lookup names.key = none := by
  have named := Interner.named_of_internAttribute interned
  rw [Option.eq_none_iff_forall_ne_some]
  intro info held
  rcases (catalogued.found_of_lookup named.1 named.2 held).asked with ⟨attr, required⟩ | asked
  · exact other attr required
  · exact unasked asked

theorem first_findAttribute (unasked : .findAttribute full ∉ requests)
    (other : ∀ attr : RequiredAttribute, full ≠ attr.fullName) :
    session.OutOfRoom (findAttribute full) ∨
    ∃ names, (session.after (findAttribute full)).interner.Names full names ∧
      session.outcome (findAttribute full) = .ok (.inUnit
        (session.resolver.resolveOrDefer session.units
          (session.after (findAttribute full)).interner names.path names.name true)
        names.path names.name) := by
  rcases outOfRoom_or_named catalogued full with refused | ⟨names, interner, interned⟩
  · exact Or.inl refused
  · have run := findAttribute_eq catalogued full
    have new := lookup_of_unasked catalogued interned unasked other
    simp only [interned, new] at run
    simp only [outcome, after, run]
    exact Or.inr ⟨names, (Interner.named_of_internAttribute interned).2, rfl⟩

omit catalogued in
theorem outcome_required (created : start.Created) (requests : List Request)
    (attr : RequiredAttribute) :
    (start.served requests).outcome (findAttribute attr.fullName) =
      .ok (start.wellKnownAttributes.required.get attr) := by
  rcases created.equipped.required attr with ⟨names, resolved, held⟩
  have retains := created.catalogued.retains requests
  have last := created.catalogued.served requests
  have again := (resolved.named.mono retains.interner).internAttribute_eq
  simp only [outcome, findAttribute_eq last, again, retains.found held]

end First

end Session

end TypeEnv
