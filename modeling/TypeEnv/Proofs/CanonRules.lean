import TypeEnv.Canon.Decompile
import TypeEnv.Canon.Improve
import TypeEnv.Proofs.StampRules
import TypeEnv.Proofs.WellKnownNames

namespace TypeEnv

namespace WellKnownTycons

variable {tycons : WellKnownTycons} {scope : TyconScope} {interner : Interner}

theorem Located.exists_called (located : tycons.Located scope interner) (kind : PrimitiveKind) :
    ∃ name, kind.Called name ∧ scope.Finds name (tycons.corePrim kind) interner := by
  rcases located.corePrims kind with ⟨name, named, finds⟩ | ⟨_, shared⟩
  · exact ⟨name, Or.inl named, finds⟩
  · rcases located.exists_hostName shared with ⟨name, named, finds⟩
    exact ⟨name, Or.inr named, finds⟩

theorem Located.classify_primitive (located : tycons.Located scope interner)
    (wellFormed : interner.WellFormed) {kind : PrimitiveKind} {name : String}
    (called : kind.Called name) {primitive tycon : TyconRef}
    (lookedUp : primitive.LookedUp name interner) (same : primitive.Same tycon) :
    tycons.tuples.classify tycon = none := by
  rw [TupleTycons.classify_eq_none_iff]
  intro tuple place sameTuple
  have names := (located.tuples tuple place).toLookedUp.text_eq wellFormed lookedUp
    (sameTuple.trans same.symm)
  rcases called.exists_wellKnown with ⟨known, text, isPrimitive⟩
  have tupleText : (WellKnown.tuple tuple place).text? = some name := congrArg some names
  have one := WellKnown.primitive?_eq_of_text? (tupleText.trans text.symm)
  rw [isPrimitive] at one
  cases one

theorem Located.not_same_func (located : tycons.Located scope interner)
    (wellFormed : interner.WellFormed) (kind : TupleKind) (place : Fin maxTuple) :
    ¬ ((tycons.tuples.family kind).get place).Same (tycons.get .func) := by
  intro same
  have tuple : tycons.at? (.tuple kind place) = _ := rfl
  have function : tycons.at? (.named .func) = _ := rfl
  rcases located.eq_of_same wellFormed tuple function same with one | ⟨one, _⟩ | ⟨one, _⟩ <;>
    cases one

end WellKnownTycons

theorem TyconRef.LookedUp.held {tycon : TyconRef} {text : String} {interner : Interner}
    (lookedUp : tycon.LookedUp text interner) (store : UnitStore) : tycon.Held store := by
  rcases lookedUp.named with ⟨unit, path, name, rfl⟩
  exact held_named store unit path name

namespace DecompileRules

variable {tycons : WellKnownTycons} {scope : TyconScope} {interner : Interner}
  {structTuples : Bool} {tycon : TyconRef} {rule : DecompileRule}

/-- The constructors that get a rule once they are defined: functions, reference tuples, and struct
tuples where the language has them. -/
inductive Listed (tycons : WellKnownTycons) (structTuples : Bool) :
    TyconRef → DecompileRule → Prop where
  | function : Listed tycons structTuples (tycons.get .func) .function
  | tuple (kind : TupleKind) (place : Fin maxTuple)
    (enabled : kind = .value → structTuples = true) :
    Listed tycons structTuples ((tycons.tuples.family kind).get place) (.tuple kind)

theorem mem_constructors :
    (tycon, rule) ∈ constructors tycons structTuples ↔ Listed tycons structTuples tycon rule := by
  have tuples : ∀ kind : TupleKind,
      (tycon, rule) ∈ (tycons.tuples.family kind).entries.map
        (fun tycon => (tycon, DecompileRule.tuple kind)) ↔
      ∃ place, (tycons.tuples.family kind).get place = tycon ∧ DecompileRule.tuple kind = rule := by
    intro kind
    simp only [List.mem_map, Prod.mk.injEq, Table.mem_entries_fin]
    constructor
    · intro entered
      rcases entered with ⟨_, ⟨place, rfl⟩, rfl, same⟩
      exact ⟨place, rfl, same⟩
    · intro placed
      rcases placed with ⟨place, rfl, same⟩
      exact ⟨_, ⟨place, rfl⟩, rfl, same⟩
  rw [constructors, List.cons_append, List.mem_cons, List.mem_append, tuples]
  constructor
  · intro member
    rcases member with function | ⟨place, rfl, rfl⟩ | value
    · cases function
      exact .function
    · exact .tuple .reference place (by intro impossible; cases impossible)
    · split at value
      case isTrue enabled =>
        rcases (tuples .value).mp value with ⟨place, rfl, rfl⟩
        exact .tuple .value place fun _ => enabled
      case isFalse => cases value
  · intro listed
    cases listed with
    | function => exact Or.inl rfl
    | tuple kind place enabled =>
        cases kind with
        | reference => exact Or.inr (Or.inl ⟨place, rfl, rfl⟩)
        | value =>
            rw [if_pos (enabled rfl)]
            exact Or.inr (Or.inr ((tuples .value).mpr ⟨place, rfl, rfl⟩))

theorem Listed.held (listed : Listed tycons structTuples tycon rule)
    (located : tycons.Located scope interner) (store : UnitStore) : tycon.Held store := by
  cases listed with
  | function => exact (located.named .func).toLookedUp.held store
  | tuple kind place => exact (located.tuples kind place).toLookedUp.held store

theorem constructors_held (located : tycons.Located scope interner) (store : UnitStore) :
    ∀ entry ∈ constructors tycons structTuples, entry.1.Held store :=
  fun _ member => (mem_constructors.mp member).held located store

theorem constructors_agree (located : tycons.Located scope interner)
    (wellFormed : interner.WellFormed) :
    StampRules.Agree (constructors tycons structTuples) := by
  intro first inFirst second inSecond same
  rcases first with ⟨first, left⟩
  rcases second with ⟨second, right⟩
  have listedFirst := mem_constructors.mp inFirst
  have listedSecond := mem_constructors.mp inSecond
  cases listedFirst with
  | function =>
      cases listedSecond with
      | function => rfl
      | tuple kind place =>
          exact absurd same.symm (located.not_same_func wellFormed kind place)
  | tuple kind place =>
      cases listedSecond with
      | function => exact absurd same (located.not_same_func wellFormed kind place)
      | tuple other otherPlace =>
          rw [(located.distinct_tuples wellFormed kind other place otherPlace same).1]

end DecompileRules

namespace ImproveRules

variable {tycons : WellKnownTycons} {scope : TyconScope} {interner : Interner}
  {tycon : TyconRef} {kind : PrimitiveKind}

theorem mem_constructors :
    (tycon, kind) ∈ constructors tycons ↔
      tycons.hostPrim? kind = some tycon ∧ ¬ tycon.Same (tycons.corePrim kind) := by
  have listed : kind ∈ PrimitiveKind.all := Enumerated.mem_all kind
  simp only [constructors, List.mem_filterMap]
  constructor
  · intro member
    rcases member with ⟨other, _, entry⟩
    split at entry
    case h_1 host found =>
      split at entry
      case isTrue => cases entry
      case isFalse different =>
        cases entry
        exact ⟨found, different⟩
    case h_2 => cases entry
  · intro counterpart
    rcases counterpart with ⟨found, different⟩
    exact ⟨kind, listed, by simp only [found, if_neg different]⟩

theorem constructors_held (located : tycons.Located scope interner) (store : UnitStore) :
    ∀ entry ∈ constructors tycons, entry.1.Held store := by
  intro entry member
  rcases entry with ⟨tycon, kind⟩
  rcases located.exists_hostName (mem_constructors.mp member).1 with ⟨name, _, finds⟩
  exact finds.toLookedUp.held store

/-- A host constructor with a rule is not the same as the name of another primitive in the language
or in the host. -/
theorem kind_eq_of_called (located : tycons.Located scope interner)
    (wellFormed : interner.WellFormed) (member : (tycon, kind) ∈ constructors tycons)
    {other : PrimitiveKind} {name : String} (called : other.Called name) {primitive : TyconRef}
    (lookedUp : primitive.LookedUp name interner) (same : tycon.Same primitive) : kind = other := by
  rcases located.exists_hostName (mem_constructors.mp member).1 with ⟨hostName, named, finds⟩
  have names := finds.toLookedUp.text_eq wellFormed lookedUp same
  exact PrimitiveKind.Called.injective (Or.inr (names ▸ named)) called

theorem constructors_agree (located : tycons.Located scope interner)
    (wellFormed : interner.WellFormed) : StampRules.Agree (constructors tycons) := by
  intro first inFirst second inSecond same
  rcases located.exists_hostName (mem_constructors.mp inSecond).1 with ⟨name, named, finds⟩
  exact kind_eq_of_called located wellFormed inFirst (Or.inr named) finds.toLookedUp same

/-- No host constructor with a rule is the name of a primitive in the language. -/
theorem not_same_corePrim (located : tycons.Located scope interner)
    (wellFormed : interner.WellFormed) (member : (tycon, kind) ∈ constructors tycons)
    (other : PrimitiveKind) : ¬ tycon.Same (tycons.corePrim other) := by
  intro same
  rcases located.exists_called other with ⟨name, called, finds⟩
  have one := kind_eq_of_called located wellFormed member called finds.toLookedUp same
  exact (mem_constructors.mp member).2 (one ▸ same)

end ImproveRules

end TypeEnv
