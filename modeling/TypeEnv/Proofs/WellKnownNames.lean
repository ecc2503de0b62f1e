import TypeEnv.Proofs.Tuples
import TypeEnv.Proofs.WellKnown

/-!
The simple names of the well-known constructors. No two constructors share one, but for the type of
runtime types, which the language names as the host does; so no two of them are the same reference.
-/

namespace TypeEnv

/-- The well-known constructors: the primitives as the language and as the host names them, the named
constructors, those of arrays and those of nominal tuples. -/
inductive WellKnown where
  | core (kind : PrimitiveKind)
  | host (kind : PrimitiveKind)
  | named (tycon : NamedTycon)
  | array (place : Fin maxArrayRank)
  | tuple (kind : TupleKind) (place : Fin maxTuple)
  deriving DecidableEq

namespace WellKnown

def all : List WellKnown :=
  PrimitiveKind.all.map .core ++ PrimitiveKind.all.map .host ++ NamedTycon.all.map .named ++
    (List.finRange maxArrayRank).map .array ++
    ((List.finRange maxTuple).map (.tuple .reference) ++
      (List.finRange maxTuple).map (.tuple .value))

theorem mem_all (known : WellKnown) : known ∈ all := by
  simp only [all, List.mem_append]
  cases known with
  | core kind =>
      exact Or.inl (Or.inl (Or.inl (Or.inl (List.mem_map_of_mem (Enumerated.mem_all kind)))))
  | host kind =>
      exact Or.inl (Or.inl (Or.inl (Or.inr (List.mem_map_of_mem (Enumerated.mem_all kind)))))
  | named tycon => exact Or.inl (Or.inl (Or.inr (List.mem_map_of_mem (Enumerated.mem_all tycon))))
  | array place => exact Or.inl (Or.inr (List.mem_map_of_mem (List.mem_finRange place)))
  | tuple kind place =>
      cases kind with
      | reference => exact Or.inr (Or.inl (List.mem_map_of_mem (List.mem_finRange place)))
      | value => exact Or.inr (Or.inr (List.mem_map_of_mem (List.mem_finRange place)))

def text? : WellKnown → Option String
  | .core kind => kind.coreName?.or kind.hostName?
  | .host kind => kind.hostName?
  | .named tycon => some tycon.location.name
  | .array place => some (arrayTyconName (place.val + 1))
  | .tuple kind place => some (tupleTyconName kind.familyName (place.val + 1))

/-- The constructors that are looked up: the language takes the type of runtime types from the host. -/
def lookedUp : List WellKnown := all.erase (.core .systemType)

theorem texts_nodup : (lookedUp.map text?).Nodup := by decide +kernel

theorem mem_lookedUp {known : WellKnown} (own : known ≠ .core .systemType) : known ∈ lookedUp :=
  (List.mem_erase_of_ne own).mpr (mem_all known)

/-- Constructors that share a name are one, or both are the type of runtime types. -/
theorem eq_of_text? {first second : WellKnown} (same : first.text? = second.text?) :
    first = second ∨ first = .core .systemType ∧ second = .host .systemType ∨
      first = .host .systemType ∧ second = .core .systemType := by
  have apart {left right : WellKnown} (ownLeft : left ≠ .core .systemType)
      (ownRight : right ≠ .core .systemType) (texts : left.text? = right.text?) : left = right :=
    List.inj_on_of_nodup_map texts_nodup (mem_lookedUp ownLeft) (mem_lookedUp ownRight) texts
  have host : (WellKnown.host .systemType) ≠ .core .systemType := by decide
  by_cases isFirst : first = .core .systemType
  · by_cases isSecond : second = .core .systemType
    · exact Or.inl (isFirst.trans isSecond.symm)
    · subst isFirst
      exact Or.inr (Or.inl ⟨rfl, apart isSecond host same.symm⟩)
  · by_cases isSecond : second = .core .systemType
    · subst isSecond
      exact Or.inr (Or.inr ⟨apart isFirst host same, rfl⟩)
    · exact Or.inl (apart isFirst isSecond same)

def primitive? : WellKnown → Option PrimitiveKind
  | .core kind => some kind
  | .host kind => some kind
  | .named _ => none
  | .array _ => none
  | .tuple .. => none

theorem primitive?_eq_of_text? {first second : WellKnown} (same : first.text? = second.text?) :
    first.primitive? = second.primitive? := by
  rcases eq_of_text? same with rfl | ⟨rfl, rfl⟩ | ⟨rfl, rfl⟩ <;> rfl

end WellKnown

def PrimitiveKind.Called (kind : PrimitiveKind) (name : String) : Prop :=
  kind.coreName? = some name ∨ kind.hostName? = some name

theorem PrimitiveKind.Called.exists_wellKnown {kind : PrimitiveKind} {name : String}
    (called : kind.Called name) :
    ∃ known : WellKnown, known.text? = some name ∧ known.primitive? = some kind := by
  rcases called with core | host
  · exact ⟨.core kind, by rw [WellKnown.text?, core, Option.some_or], rfl⟩
  · exact ⟨.host kind, host, rfl⟩

/-- No two primitives share a name, not even one in the language and the other in the host. -/
theorem PrimitiveKind.Called.injective {first second : PrimitiveKind} {name : String}
    (calledFirst : first.Called name) (calledSecond : second.Called name) : first = second := by
  rcases calledFirst.exists_wellKnown with ⟨left, leftText, isFirst⟩
  rcases calledSecond.exists_wellKnown with ⟨right, rightText, isSecond⟩
  have same := WellKnown.primitive?_eq_of_text? (leftText.trans rightText.symm)
  rwa [isFirst, isSecond, Option.some.injEq] at same

namespace WellKnownTycons

variable {tycons : WellKnownTycons} {scope : TyconScope} {interner : Interner}

def at? (tycons : WellKnownTycons) : WellKnown → Option TyconRef
  | .core kind => some (tycons.corePrim kind)
  | .host kind => tycons.hostPrim? kind
  | .named tycon => some (tycons.get tycon)
  | .array place => some (tycons.arrays.get place)
  | .tuple kind place => some ((tycons.tuples.family kind).get place)

theorem Located.exists_hostName (located : tycons.Located scope interner) {kind : PrimitiveKind}
    {tycon : TyconRef} (recorded : tycons.hostPrim? kind = some tycon) :
    ∃ name, kind.hostName? = some name ∧ scope.Finds name tycon interner := by
  rcases located.hostPrims kind with ⟨name, host, named, entered, finds⟩ | ⟨_, missing⟩
  · rw [recorded, Option.some.injEq] at entered
    exact ⟨name, named, entered ▸ finds⟩
  · rw [recorded] at missing
    cases missing

theorem Located.at?_eq_none_iff (located : tycons.Located scope interner) {known : WellKnown} :
    tycons.at? known = none ↔ known = .host .unit := by
  constructor
  · intro missing
    cases known with
    | host kind =>
        rcases located.hostPrims kind with ⟨_, _, _, entered, _⟩ | ⟨unnamed, _⟩
        · cases missing.symm.trans entered
        · cases kind <;> first | rfl | cases unnamed
    | _ => cases missing
  · rintro rfl
    rcases located.hostPrims .unit with ⟨_, _, named, _⟩ | ⟨_, missing⟩
    · cases named
    · exact missing

theorem Located.finds_at (located : tycons.Located scope interner) {known : WellKnown}
    {tycon : TyconRef} (entered : tycons.at? known = some tycon) :
    ∃ text, known.text? = some text ∧ scope.Finds text tycon interner := by
  cases known with
  | core kind =>
      cases entered
      rcases located.corePrims kind with ⟨name, named, finds⟩ | ⟨unnamed, shared⟩
      · exact ⟨name, by rw [WellKnown.text?, named, Option.some_or], finds⟩
      · rcases located.exists_hostName shared with ⟨name, named, finds⟩
        exact ⟨name, by rw [WellKnown.text?, unnamed, Option.none_or, named], finds⟩
  | host kind => exact located.exists_hostName entered
  | named tycon =>
      cases entered
      exact ⟨_, rfl, located.named tycon⟩
  | array place =>
      cases entered
      exact ⟨_, rfl, located.arrays place⟩
  | tuple kind place =>
      cases entered
      exact ⟨_, rfl, located.tuples kind place⟩

theorem Located.at_systemType (located : tycons.Located scope interner) :
    tycons.hostPrim? .systemType = some (tycons.corePrim .systemType) := by
  rcases located.corePrims .systemType with ⟨name, named, _⟩ | ⟨_, shared⟩
  · cases named
  · exact shared

theorem Located.eq_of_same (located : tycons.Located scope interner)
    (wellFormed : interner.WellFormed) {first second : WellKnown} {left right : TyconRef}
    (isFirst : tycons.at? first = some left) (isSecond : tycons.at? second = some right)
    (same : left.Same right) :
    first = second ∨ first = .core .systemType ∧ second = .host .systemType ∨
      first = .host .systemType ∧ second = .core .systemType := by
  rcases located.finds_at isFirst with ⟨text, firstText, findsFirst⟩
  rcases located.finds_at isSecond with ⟨other, secondText, findsSecond⟩
  have names := findsFirst.toLookedUp.text_eq wellFormed findsSecond.toLookedUp same
  apply WellKnown.eq_of_text?
  rw [firstText, secondText, names]

theorem Located.exists_host (located : tycons.Located scope interner) {kind : PrimitiveKind}
    (other : kind ≠ .unit) : ∃ host, tycons.hostPrim? kind = some host := by
  apply Option.ne_none_iff_exists'.mp
  intro missing
  cases located.at?_eq_none_iff.mp (show tycons.at? (.host kind) = none from missing)
  exact other rfl

/-- Only the type of runtime types is listed twice. -/
theorem Located.eq_of_same_apart (located : tycons.Located scope interner)
    (wellFormed : interner.WellFormed) {first second : WellKnown} {left right : TyconRef}
    (isFirst : tycons.at? first = some left) (isSecond : tycons.at? second = some right)
    (same : left.Same right) (apart : first ≠ .core .systemType)
    (hostApart : first ≠ .host .systemType) : first = second := by
  rcases located.eq_of_same wellFormed isFirst isSecond same with one | ⟨core, _⟩ | ⟨host, _⟩
  · exact one
  · exact absurd core apart
  · exact absurd host hostApart

theorem Located.hostPrim_not_corePrim (located : tycons.Located scope interner)
    (wellFormed : interner.WellFormed) {kind : PrimitiveKind} {host : TyconRef}
    (recorded : tycons.hostPrim? kind = some host) (other : kind ≠ .systemType) :
    ¬ host.Same (tycons.corePrim kind) := by
  intro same
  have isHost : tycons.at? (.host kind) = some host := recorded
  have isCore : tycons.at? (.core kind) = some (tycons.corePrim kind) := rfl
  cases located.eq_of_same_apart wellFormed isHost isCore same nofun fun systemType =>
    other (WellKnown.host.inj systemType)

theorem Located.distinct_tuples (located : tycons.Located scope interner)
    (wellFormed : interner.WellFormed) : tycons.tuples.Distinct := by
  intro first second left right same
  have isFirst : tycons.at? (.tuple first left) = _ := rfl
  have isSecond : tycons.at? (.tuple second right) = _ := rfl
  cases located.eq_of_same_apart wellFormed isFirst isSecond same nofun nofun
  exact ⟨rfl, rfl⟩

theorem Located.distinct_arrays (located : tycons.Located scope interner)
    (wellFormed : interner.WellFormed) {left right : Fin maxArrayRank}
    (same : (tycons.arrays.get left).Same (tycons.arrays.get right)) : left = right := by
  have isFirst : tycons.at? (.array left) = _ := rfl
  have isSecond : tycons.at? (.array right) = _ := rfl
  cases located.eq_of_same_apart wellFormed isFirst isSecond same nofun nofun
  rfl

theorem array_eq_ok_iff {own : TyconRef} {rank : Nat} :
    tycons.array rank = .ok own ↔ ∃ place, place.val + 1 = rank ∧ tycons.arrays.get place = own :=
  Table.counted_eq_ok_iff tycons.arrays

theorem Located.arrayRank?_eq_some_iff (located : tycons.Located scope interner)
    (wellFormed : interner.WellFormed) {tycon : TyconRef} {rank : Nat} :
    tycons.arrayRank? tycon = some rank ↔
      ∃ own, tycons.array rank = .ok own ∧ own.Same tycon := by
  have apart : ∀ left right, (tycons.arrays.get left).Same (tycons.arrays.get right) →
      left = right := fun _ _ => located.distinct_arrays wellFormed
  simp only [arrayRank?, Option.map_eq_some_iff, Table.findIdx?_same_eq_some_iff apart,
    array_eq_ok_iff]
  constructor
  · rintro ⟨_, ⟨place, rfl, same⟩, rfl⟩
    exact ⟨_, ⟨place, rfl, rfl⟩, same⟩
  · rintro ⟨_, ⟨place, rfl, rfl⟩, same⟩
    exact ⟨place.val, ⟨place, rfl, same⟩, rfl⟩

theorem Located.classify_eq_some_iff (located : tycons.Located scope interner)
    (wellFormed : interner.WellFormed) {tycon : TyconRef} {kind : TupleKind} {arity : Nat} :
    tycons.tuples.classify tycon = some (kind, arity) ↔
      ∃ own, tycons.tuples.tycon kind arity = .ok own ∧ own.Same tycon := by
  simp only [(located.distinct_tuples wellFormed).classify_eq_some_iff,
    TupleTycons.tycon_eq_ok_iff]
  constructor
  · rintro ⟨place, rfl, same⟩
    exact ⟨_, ⟨place, rfl, rfl⟩, same⟩
  · rintro ⟨_, ⟨place, rfl, rfl⟩, same⟩
    exact ⟨place, rfl, same⟩

end WellKnownTycons

end TypeEnv
