import TypeEnv.Proofs.CanonicalForms
import TypeEnv.Session.Types
import TypeEnv.Witness.Basic

namespace TypeEnv

def WellKnown.isComposite : WellKnown → Bool
  | .core _ => false
  | .host _ => false
  | .named _ => false
  | .array _ => true
  | .tuple .. => true

namespace WellKnownTycons

variable {tycons : WellKnownTycons} {scope : TyconScope} {interner : Interner} {tycon : TyconRef}

def Composite (tycons : WellKnownTycons) (tycon : TyconRef) : Prop :=
  ∃ known own, known.isComposite = true ∧ tycons.at? known = some own ∧ own.Same tycon

theorem Located.composite_of_classify (located : tycons.Located scope interner)
    (wellFormed : interner.WellFormed) {kind : TupleKind} {arity : Nat}
    (classified : tycons.tuples.classify tycon = some (kind, arity)) : tycons.Composite tycon := by
  rcases (located.classify_eq_some_iff wellFormed).mp classified with ⟨own, found, same⟩
  rcases TupleTycons.tycon_eq_ok_iff.mp found with ⟨place, _, rfl⟩
  exact ⟨.tuple kind place, _, rfl, rfl, same⟩

theorem Located.composite_of_arrayRank? (located : tycons.Located scope interner)
    (wellFormed : interner.WellFormed) {rank : Nat}
    (ranked : tycons.arrayRank? tycon = some rank) : tycons.Composite tycon := by
  rcases (located.arrayRank?_eq_some_iff wellFormed).mp ranked with ⟨own, found, same⟩
  rcases array_eq_ok_iff.mp found with ⟨place, _, rfl⟩
  exact ⟨.array place, _, rfl, rfl, same⟩

theorem Located.not_composite (located : tycons.Located scope interner)
    (wellFormed : interner.WellFormed) {known : WellKnown} {own : TyconRef}
    (entered : tycons.at? known = some own) (same : own.Same tycon)
    (simple : known.isComposite = false) : ¬ tycons.Composite tycon := by
  rintro ⟨other, composite, isComposite, enteredOther, sameOther⟩
  have one := same.trans sameOther.symm
  rcases located.eq_of_same wellFormed entered enteredOther one with rfl | ⟨_, rfl⟩ | ⟨_, rfl⟩
  · rw [simple] at isComposite
    cases isComposite
  · cases isComposite
  · cases isComposite

theorem Located.arrayRank?_of_classify (located : tycons.Located scope interner)
    (wellFormed : interner.WellFormed) {kind : TupleKind} {arity : Nat}
    (classified : tycons.tuples.classify tycon = some (kind, arity)) :
    tycons.arrayRank? tycon = none := by
  rcases (located.classify_eq_some_iff wellFormed).mp classified with ⟨own, found, same⟩
  rcases TupleTycons.tycon_eq_ok_iff.mp found with ⟨place, _, rfl⟩
  rw [Option.eq_none_iff_forall_ne_some]
  intro rank ranked
  rcases (located.arrayRank?_eq_some_iff wellFormed).mp ranked with ⟨array, foundArray, sameArray⟩
  rcases array_eq_ok_iff.mp foundArray with ⟨rankPlace, _, rfl⟩
  have isTuple : tycons.at? (.tuple kind place) = _ := rfl
  have isArray : tycons.at? (.array rankPlace) = _ := rfl
  rcases located.eq_of_same wellFormed isTuple isArray (same.trans sameArray.symm) with
    one | ⟨one, _⟩ | ⟨one, _⟩ <;> cases one

end WellKnownTycons

namespace Session

variable {start session : Session} {tycon : TyconRef}

theorem Fresh.kind?_composite (fresh : start.Fresh) (run : Run start session)
    (held : tycon.Held session.units) (composite : session.tycons.Composite tycon) :
    session.improveRulesNow.kind? session.units tycon = none := by
  have located := fresh.located_run run
  rw [Option.eq_none_iff_forall_ne_some]
  intro kind found
  rcases fresh.exists_of_kind? run held found with ⟨host, member, same⟩
  have entered : session.tycons.at? (.host kind) = some host :=
    (ImproveRules.mem_constructors.mp member).1
  exact located.not_composite fresh.interner entered same rfl composite

theorem Fresh.rule?_composite (fresh : start.Fresh) (run : Run start session)
    (held : tycon.Held session.units) (composite : session.tycons.Composite tycon) :
    session.decompileRulesNow.rule? session.units tycon ≠ some .function := by
  intro found
  have located := fresh.located_run run
  rcases exists_firstUse Request.usesDecompile run with ⟨units, use⟩
  rcases fresh.exists_of_rule? use held found with ⟨candidate, listed, same, _⟩
  cases listed with
  | function =>
      have entered : session.tycons.at? (.named .func) = some (session.tycons.get .func) := rfl
      exact located.not_composite fresh.interner entered same rfl composite

theorem Fresh.improveTycon_composite (fresh : start.Fresh) (run : Run start session)
    (held : tycon.Held session.units) (composite : session.tycons.Composite tycon)
    (args : List Ty) (nullness : Nullness) :
    ∃ next, improveTycon tycon args nullness session = .ok none next := by
  cases args with
  | nil =>
      refine ⟨session.withImproveRules.tookNode, ?_⟩
      rw [improveTycon_nil, ImproveRules.improveApp?, if_pos List.isEmpty_nil,
        fresh.kind?_composite run held composite, Option.map_none]
  | cons arg rest => exact ⟨session, improveTycon_of_args session (List.cons_ne_nil arg rest)⟩

theorem Fresh.decompileTycon_composite (fresh : start.Fresh) (run : Run start session)
    (held : tycon.Held session.units) (composite : session.tycons.Composite tycon)
    (args : List Ty) (nullness : Nullness) :
    ∃ answer next, decompileTycon tycon args nullness session = .ok answer next ∧
      ∀ node domain range own, answer ≠ some (.fn node domain range own) := by
  refine ⟨_, _, decompileTycon_eq session tycon args nullness, ?_⟩
  intro node domain range own
  have apart := fresh.rule?_composite run held composite
  rw [DecompileRules.decompileApp?.eq_def]
  split
  case h_1 => exact nofun
  case h_2 function => exact absurd function apart
  case h_3 => exact nofun
  case h_4 =>
    intro same
    rcases Option.map_eq_some_iff.mp same with ⟨elems, _, impossible⟩
    cases impossible

theorem Fresh.array?_mkArray (fresh : start.Fresh) (run : Run start session) {rank : Nat}
    (ranked : 1 ≤ rank ∧ rank ≤ maxArrayRank) (elem : Ty) :
    ∃ ty next, mkArray rank elem session = .ok ty next ∧
      session.tycons.array? ty = some (rank, elem) := by
  have located := fresh.located_run run
  rcases TemplateContext.exists_array session.tycons ranked with ⟨own, found⟩
  have isArray : session.tycons.arrayRank? own = some rank :=
    (located.arrayRank?_eq_some_iff fresh.interner).mpr ⟨own, found, TyconRef.same_refl own⟩
  refine ⟨.app session.nextNode own [elem] .withoutNull, session.tookNode, ?_, ?_⟩
  · have read : (get : SessionM Session) session = .ok session session := rfl
    simp only [mkArray, bind, EStateM.bind, read, found]
    rfl
  · rw [WellKnownTycons.array?, isArray, Option.map_some]

/-- In any session, whatever was interned before and however units were resolved, the well-known
constructors are pairwise different references, but for the type of runtime types, which the language
takes from the host. So arrays and nominal tuples are told by their constructors, neither is improved
nor decompiled as a function, and an array type gives back its rank and its element type. -/
theorem wellKnown_apart (created : start.Created) (run : Run start session) :
    (∀ known, session.tycons.at? known = none ↔ known = .host .unit) ∧
    session.tycons.hostPrim? .systemType = some (session.tycons.corePrim .systemType) ∧
    (∀ first second left right, session.tycons.at? first = some left →
      session.tycons.at? second = some right →
      (left.Same right ↔ first = second ∨ first = .core .systemType ∧ second = .host .systemType ∨
        first = .host .systemType ∧ second = .core .systemType)) ∧
    (∀ tycon kind arity, session.tycons.tuples.classify tycon = some (kind, arity) ↔
      ∃ own, session.tycons.tuples.tycon kind arity = .ok own ∧ own.Same tycon) ∧
    (∀ tycon rank, session.tycons.arrayRank? tycon = some rank ↔
      ∃ own, session.tycons.array rank = .ok own ∧ own.Same tycon) ∧
    (∀ tycon, session.tycons.tuples.classify tycon = none ∨
      session.tycons.arrayRank? tycon = none) ∧
    (∀ tycon args nullness, tycon.Held session.units →
      (session.tycons.tuples.classify tycon).isSome ∨ (session.tycons.arrayRank? tycon).isSome →
      (∃ next, improveTycon tycon args nullness session = .ok none next) ∧
        ∃ answer next, decompileTycon tycon args nullness session = .ok answer next ∧
          ∀ node domain range own, answer ≠ some (.fn node domain range own)) ∧
    ∀ rank elem, 1 ≤ rank ∧ rank ≤ maxArrayRank → ∃ ty next,
      mkArray rank elem session = .ok ty next ∧ session.tycons.array? ty = some (rank, elem) := by
  have fresh := created.fresh
  have wellFormed := fresh.interner
  have located := fresh.located_run run
  refine ⟨fun _ => located.at?_eq_none_iff, located.at_systemType, ?_,
    fun _ _ _ => located.classify_eq_some_iff wellFormed,
    fun _ _ => located.arrayRank?_eq_some_iff wellFormed, ?_, ?_,
    fun _ elem ranked => fresh.array?_mkArray run ranked elem⟩
  · intro first second left right isFirst isSecond
    constructor
    · exact located.eq_of_same wellFormed isFirst isSecond
    · have shared : session.tycons.at? (.host .systemType) =
          session.tycons.at? (.core .systemType) := located.at_systemType
      have one (entries : session.tycons.at? first = session.tycons.at? second) :
          left.Same right := by
        rw [isFirst, isSecond, Option.some.injEq] at entries
        exact entries ▸ TyconRef.same_refl left
      rintro (rfl | ⟨rfl, rfl⟩ | ⟨rfl, rfl⟩)
      · exact one rfl
      · exact one shared.symm
      · exact one shared
  · intro tycon
    cases classified : session.tycons.tuples.classify tycon with
    | none => exact Or.inl rfl
    | some shape => exact Or.inr (located.arrayRank?_of_classify wellFormed classified)
  · intro tycon args nullness held shaped
    have composite : session.tycons.Composite tycon := by
      rcases shaped with tuple | array
      · rcases Option.isSome_iff_exists.mp tuple with ⟨shape, classified⟩
        exact located.composite_of_classify wellFormed classified
      · rcases Option.isSome_iff_exists.mp array with ⟨rank, ranked⟩
        exact located.composite_of_arrayRank? wellFormed ranked
    exact ⟨fresh.improveTycon_composite run held composite args nullness,
      fresh.decompileTycon_composite run held composite args nullness⟩

theorem wellKnown_apart_pairs :
    ∃ start : Session, start.Created ∧ Run start start ∧
      (∃ reference value, start.tycons.tuples.tycon .reference 2 = .ok reference ∧
        start.tycons.tuples.tycon .value 2 = .ok value ∧ ¬ reference.Same value ∧
        start.tycons.tuples.classify value = some (.value, 2) ∧
        start.tycons.arrayRank? value = none) ∧
      ∃ ty next, mkArray 2 (.var 0 ⟨Name.empty, 0⟩) start = .ok ty next ∧
        start.tycons.array? ty = some (2, .var 0 ⟨Name.empty, 0⟩) := by
  have valid : ({} : Config).validate = .ok () := rfl
  rcases exists_created valid with ⟨start, created, _⟩
  have run : Run start start := .refl
  rcases wellKnown_apart created run with ⟨_, _, apart, classify, _, single, _, arrays⟩
  let reference := (start.tycons.tuples.family .reference).get 1
  let value := (start.tycons.tuples.family .value).get 1
  have isReference : start.tycons.tuples.tycon .reference 2 = .ok reference :=
    start.tycons.tuples.tycon_succ .reference 1
  have isValue : start.tycons.tuples.tycon .value 2 = .ok value :=
    start.tycons.tuples.tycon_succ .value 1
  have classified : start.tycons.tuples.classify value = some (.value, 2) :=
    (classify value .value 2).mpr ⟨value, isValue, TyconRef.same_refl value⟩
  have different : ¬ reference.Same value := by
    rw [apart (.tuple .reference 1) (.tuple .value 1) reference value rfl rfl]
    decide
  have noArray : start.tycons.arrayRank? value = none := by
    rcases single value with unclassified | noArray
    · rw [classified] at unclassified
      cases unclassified
    · exact noArray
  exact ⟨start, created, run, ⟨reference, value, isReference, isValue, different, classified,
    noArray⟩, arrays 2 _ (by decide)⟩

end Session

end TypeEnv
