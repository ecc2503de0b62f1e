import Mathlib.Logic.Relation
import TypeEnv.Unit.Basic

namespace TypeEnv

def TypeDef.place (definition : TypeDef) : UnitId × NamespacePath × Name :=
  (definition.unit, definition.path, definition.name)

namespace UnitContents

variable {contents : UnitContents} {definition : TypeDef}

theorem lookup_eq (contents : UnitContents) (path : NamespacePath) (name : Name) :
    contents.lookup path name = (contents.namespaceAt path).get? name := by
  simp only [lookup, namespaceAt]
  cases contents.namespaces.get? path <;> rfl

theorem namespaceAt_insert (contents : UnitContents) (path other : NamespacePath) (name : Name)
    (definition : TypeDef) :
    (contents.insert path name definition).namespaceAt other =
      if other = path then (contents.namespaceAt path).set name definition
      else contents.namespaceAt other := by
  simp only [namespaceAt, insert, Dictionary.get?_set]
  split <;> rfl

theorem lookup_insert (contents : UnitContents) (path otherPath : NamespacePath)
    (name otherName : Name) (definition : TypeDef) :
    (contents.insert path name definition).lookup otherPath otherName =
      if otherPath = path ∧ otherName = name then some definition
      else contents.lookup otherPath otherName := by
  rw [lookup_eq, lookup_eq, namespaceAt_insert]
  by_cases samePath : otherPath = path
  · rw [if_pos samePath, Dictionary.get?_set]
    subst samePath
    simp only [true_and]
  · rw [if_neg samePath, if_neg (fun same => samePath same.1)]

theorem mem_definitions_iff :
    definition ∈ contents.definitions ↔
      ∃ path name, contents.lookup path name = some definition := by
  simp only [definitions, List.mem_flatMap, Dictionary.mem_values_iff, lookup,
    Option.bind_eq_some_iff]
  constructor
  · rintro ⟨types, ⟨path, found⟩, name, held⟩
    exact ⟨path, name, types, found, held⟩
  · rintro ⟨path, name, types, found, held⟩
    exact ⟨types, ⟨path, found⟩, name, held⟩

end UnitContents

namespace UnitStore

inductive Step (store : UnitStore) : UnitStore → Prop where
  | addUnit (name : Name) (kind : UnitKind) : Step store (store.addUnit name kind).2
  | define (unit : UnitId) (spec : TypeSpec) : Step store (store.define unit spec).2

abbrev Reaches : UnitStore → UnitStore → Prop := Relation.ReflTransGen Step

/-- The stores of the runs that start without units. -/
def Reachable (store : UnitStore) : Prop := Reaches {} store

/-- Every definition is kept at its own place and has a stamp of its own, taken from the counter. -/
structure WellFormed (store : UnitStore) : Prop where
  placed : ∀ {unit path name definition}, store.lookup unit path name = some definition →
    definition.place = (unit, path, name)
  order_lt : ∀ {definition}, definition ∈ store.definitions →
    definition.stamp.order < store.stampCount
  eq_of_stamp : ∀ {first second}, first ∈ store.definitions → second ∈ store.definitions →
    first.stamp = second.stamp → first = second

variable {store before after : UnitStore} {unit : UnitId} {path : NamespacePath} {name : Name}
  {definition first second : TypeDef} {spec : TypeSpec}

theorem mem_definitions_iff :
    definition ∈ store.definitions ↔
      ∃ unit path name, store.lookup unit path name = some definition := by
  simp only [definitions, List.mem_flatMap, Dictionary.mem_values_iff,
    UnitContents.mem_definitions_iff, lookup, contentsOf]
  constructor
  · rintro ⟨contents, ⟨unit, held⟩, path, name, found⟩
    exact ⟨unit, path, name, by rwa [held]⟩
  · rintro ⟨unit, path, name, found⟩
    cases held : store.contents.get? unit with
    | none =>
        rw [held] at found
        cases found
    | some contents =>
        rw [held] at found
        exact ⟨contents, ⟨unit, held⟩, path, name, found⟩

theorem mem_of_lookup (found : store.lookup unit path name = some definition) :
    definition ∈ store.definitions :=
  mem_definitions_iff.mpr ⟨unit, path, name, found⟩

theorem lookup_of_undefined (undefined : store.definitions = []) (unit : UnitId)
    (path : NamespacePath) (name : Name) : store.lookup unit path name = none := by
  rw [Option.eq_none_iff_forall_ne_some]
  intro definition found
  have present := mem_of_lookup found
  rw [undefined] at present
  cases present

theorem WellFormed.lookup_of_mem (wellFormed : store.WellFormed)
    (present : definition ∈ store.definitions) :
    store.lookup definition.unit definition.path definition.name = some definition := by
  rcases mem_definitions_iff.mp present with ⟨unit, path, name, found⟩
  have place := wellFormed.placed found
  simp only [TypeDef.place, Prod.mk.injEq] at place
  rw [place.1, place.2.1, place.2.2]
  exact found

theorem define_of_lookup (found : store.lookup unit spec.path spec.name = some definition) :
    store.define unit spec = (definition, store) := by
  simp only [define, found]

theorem define_stamp (free : store.lookup unit spec.path spec.name = none) :
    (store.define unit spec).1.stamp = ⟨store.stampCount⟩ := by
  simp only [define, free]

theorem define_stampCount (free : store.lookup unit spec.path spec.name = none) :
    (store.define unit spec).2.stampCount = store.stampCount + 1 := by
  simp only [define, free]

theorem contentsOf_define (free : store.lookup unit spec.path spec.name = none) (other : UnitId) :
    (store.define unit spec).2.contentsOf other =
      if other = unit then
        (store.contentsOf unit).insert spec.path spec.name (store.define unit spec).1
      else store.contentsOf other := by
  simp only [define, free, contentsOf, Dictionary.get?_set]
  split <;> rfl

theorem contentsOf_define_of_ne {other : UnitId} (spec : TypeSpec) (apart : other ≠ unit) :
    (store.define unit spec).2.contentsOf other = store.contentsOf other := by
  cases found : store.lookup unit spec.path spec.name with
  | none => rw [contentsOf_define found, if_neg apart]
  | some earlier => rw [define_of_lookup found]

theorem lookup_define (free : store.lookup unit spec.path spec.name = none) (other : UnitId)
    (path : NamespacePath) (name : Name) :
    (store.define unit spec).2.lookup other path name =
      if (other, path, name) = (unit, spec.path, spec.name) then some (store.define unit spec).1
      else store.lookup other path name := by
  simp only [lookup, contentsOf_define free, Prod.mk.injEq]
  by_cases own : other = unit
  · subst own
    simp only [if_true, true_and, UnitContents.lookup_insert]
  · simp only [own, if_false, false_and]

theorem mem_definitions_define (free : store.lookup unit spec.path spec.name = none) :
    definition ∈ (store.define unit spec).2.definitions ↔
      definition ∈ store.definitions ∨ definition = (store.define unit spec).1 := by
  simp only [mem_definitions_iff, lookup_define free]
  constructor
  · rintro ⟨other, path, name, found⟩
    split at found
    case isTrue => exact Or.inr (Option.some.inj found).symm
    case isFalse => exact Or.inl ⟨other, path, name, found⟩
  · rintro (⟨other, path, name, found⟩ | rfl)
    · refine ⟨other, path, name, ?_⟩
      rw [if_neg]
      · exact found
      · intro same
        simp only [Prod.mk.injEq] at same
        rw [same.1, same.2.1, same.2.2, free] at found
        cases found
    · exact ⟨unit, spec.path, spec.name, if_pos rfl⟩

theorem mem_definitions_define_iff (store : UnitStore) (unit : UnitId) (spec : TypeSpec) :
    definition ∈ (store.define unit spec).2.definitions ↔
      definition ∈ store.definitions ∨ definition = (store.define unit spec).1 := by
  cases found : store.lookup unit spec.path spec.name with
  | none => exact mem_definitions_define found
  | some earlier =>
      rw [define_of_lookup found, or_iff_left_of_imp]
      rintro rfl
      exact mem_of_lookup found

theorem define_place (wellFormed : store.WellFormed) (unit : UnitId) (spec : TypeSpec) :
    (store.define unit spec).1.place = (unit, spec.path, spec.name) := by
  cases found : store.lookup unit spec.path spec.name with
  | none => simp only [define, found, TypeDef.place]
  | some earlier =>
      rw [define_of_lookup found]
      exact wellFormed.placed found

theorem lookup_define_self (store : UnitStore) (unit : UnitId) (spec : TypeSpec) :
    (store.define unit spec).2.lookup unit spec.path spec.name =
      some (store.define unit spec).1 := by
  cases found : store.lookup unit spec.path spec.name with
  | none => rw [lookup_define found, if_pos rfl]
  | some earlier => rw [define_of_lookup found, found]

theorem define_mem (store : UnitStore) (unit : UnitId) (spec : TypeSpec) :
    (store.define unit spec).1 ∈ (store.define unit spec).2.definitions :=
  mem_of_lookup (store.lookup_define_self unit spec)

theorem isSome_lookup_define_iff (store : UnitStore) (unit other : UnitId) (spec : TypeSpec)
    (path : NamespacePath) (name : Name) :
    ((store.define unit spec).2.lookup other path name).isSome ↔
      (store.lookup other path name).isSome ∨
        (other, path, name) = (unit, spec.path, spec.name) := by
  cases found : store.lookup unit spec.path spec.name with
  | none =>
      rw [lookup_define found]
      split
      case isTrue same => simp only [Option.isSome_some, same, or_true]
      case isFalse other => simp only [other, or_false]
  | some earlier =>
      rw [define_of_lookup found, or_iff_left_of_imp]
      intro same
      simp only [Prod.mk.injEq] at same
      rw [same.1, same.2.1, same.2.2, found]
      rfl

theorem wellFormed_of_undefined (undefined : store.definitions = []) : store.WellFormed := by
  constructor
  case placed =>
    intro unit path name definition found
    rw [lookup_of_undefined undefined] at found
    cases found
  case order_lt =>
    intro definition present
    rw [undefined] at present
    cases present
  case eq_of_stamp =>
    intro first second present
    rw [undefined] at present
    cases present

theorem WellFormed.define (wellFormed : store.WellFormed) (unit : UnitId) (spec : TypeSpec) :
    (store.define unit spec).2.WellFormed := by
  cases found : store.lookup unit spec.path spec.name with
  | some earlier => rwa [define_of_lookup found]
  | none =>
      have stamp := define_stamp found
      -- no definition has taken the stamp that the counter gives
      have unused : ∀ {definition}, definition ∈ store.definitions →
          definition.stamp ≠ (store.define unit spec).1.stamp := by
        intro definition present same
        have bound := wellFormed.order_lt present
        rw [same, stamp] at bound
        exact Nat.lt_irrefl _ bound
      constructor
      case placed =>
        intro other path name definition held
        rw [lookup_define found] at held
        split at held
        case isTrue same =>
          rw [← Option.some.inj held, same]
          exact define_place wellFormed unit spec
        case isFalse => exact wellFormed.placed held
      case order_lt =>
        intro definition present
        rw [define_stampCount found]
        rcases (mem_definitions_define found).mp present with earlier | rfl
        · exact Nat.lt_succ_of_lt (wellFormed.order_lt earlier)
        · rw [stamp]
          exact Nat.lt_succ_self _
      case eq_of_stamp =>
        intro first second inFirst inSecond same
        rcases (mem_definitions_define found).mp inFirst with earlier | rfl
        · rcases (mem_definitions_define found).mp inSecond with present | rfl
          · exact wellFormed.eq_of_stamp earlier present same
          · exact absurd same (unused earlier)
        · rcases (mem_definitions_define found).mp inSecond with present | rfl
          · exact absurd same.symm (unused present)
          · rfl

theorem Step.wellFormed (step : Step before after) (wellFormed : before.WellFormed) :
    after.WellFormed := by
  cases step with
  | addUnit name kind =>
      exact ⟨wellFormed.placed, wellFormed.order_lt, wellFormed.eq_of_stamp⟩
  | define unit spec => exact wellFormed.define unit spec

theorem Step.mem_or_new (step : Step before after) (present : definition ∈ after.definitions) :
    definition ∈ before.definitions ∨ definition.stamp.order = before.stampCount := by
  cases step with
  | addUnit name kind => exact Or.inl present
  | define unit spec =>
      cases found : before.lookup unit spec.path spec.name with
      | some earlier =>
          rw [define_of_lookup found] at present
          exact Or.inl present
      | none =>
          rcases (mem_definitions_define found).mp present with earlier | rfl
          · exact Or.inl earlier
          · exact Or.inr (congrArg Stamp.order (define_stamp found))

theorem Step.mem (step : Step before after) (present : definition ∈ before.definitions) :
    definition ∈ after.definitions := by
  cases step with
  | addUnit name kind => exact present
  | define unit spec =>
      cases found : before.lookup unit spec.path spec.name with
      | some earlier => rwa [define_of_lookup found]
      | none => exact (mem_definitions_define found).mpr (Or.inl present)

theorem Step.stampCount_le (step : Step before after) : before.stampCount ≤ after.stampCount := by
  cases step with
  | addUnit name kind => exact Nat.le_refl _
  | define unit spec =>
      cases found : before.lookup unit spec.path spec.name with
      | some earlier =>
          simp only [define_of_lookup found, Nat.le_refl]
      | none =>
          rw [define_stampCount found]
          exact Nat.le_succ _

theorem Reaches.wellFormed (run : Reaches before after) (wellFormed : before.WellFormed) :
    after.WellFormed := by
  induction run with
  | refl => exact wellFormed
  | tail _ step ih => exact step.wellFormed ih

theorem Reaches.stampCount_le (run : Reaches before after) :
    before.stampCount ≤ after.stampCount := by
  induction run with
  | refl => exact Nat.le_refl _
  | tail _ step ih => exact Nat.le_trans ih step.stampCount_le

theorem Reachable.wellFormed (reached : store.Reachable) : store.WellFormed :=
  Reaches.wellFormed reached (wellFormed_of_undefined rfl)

theorem Reaches.mem (run : Reaches before after) (present : definition ∈ before.definitions) :
    definition ∈ after.definitions := by
  induction run with
  | refl => exact present
  | tail _ step ih => exact step.mem ih

theorem Reaches.lookup (run : Reaches before after) (wellFormed : before.WellFormed)
    (found : before.lookup unit path name = some definition) :
    after.lookup unit path name = some definition := by
  have place := wellFormed.placed found
  have later := (run.wellFormed wellFormed).lookup_of_mem (run.mem (mem_of_lookup found))
  simp only [TypeDef.place, Prod.mk.injEq] at place
  rwa [place.1, place.2.1, place.2.2] at later

theorem WellFormed.define_again (wellFormed : store.WellFormed) (unit : UnitId)
    (spec : TypeSpec) {other : TypeSpec} (path : other.path = spec.path)
    (name : other.name = spec.name) :
    ((store.define unit spec).2.define unit other).1 = (store.define unit spec).1 := by
  have place := define_place wellFormed unit spec
  simp only [TypeDef.place, Prod.mk.injEq] at place
  have found := (wellFormed.define unit spec).lookup_of_mem (define_mem store unit spec)
  rw [place.1, place.2.1, place.2.2, ← path, ← name] at found
  rw [define_of_lookup found]

theorem Reaches.stampCount_le_order (run : Reaches before after)
    (present : definition ∈ after.definitions) (new : definition ∉ before.definitions) :
    before.stampCount ≤ definition.stamp.order := by
  induction run with
  | refl => exact absurd present new
  | tail run step ih =>
      rcases step.mem_or_new present with earlier | next
      · exact ih earlier
      · rw [next]
        exact Reaches.stampCount_le run

end UnitStore

end TypeEnv
