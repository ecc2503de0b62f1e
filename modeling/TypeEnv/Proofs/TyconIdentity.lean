import TypeEnv.Proofs.Units
import TypeEnv.Tycon.Ref

namespace TypeEnv.TyconRef

/-- A reference that can be held while the store is as it is: to a definition of the store, or to
any unit, path and name. -/
def Held (store : UnitStore) : TyconRef → Prop
  | .direct definition => definition ∈ store.definitions
  | .named .. => True

variable {store before after later : UnitStore} {tycon first second : TyconRef} {stamp : Stamp}
  {definition : TypeDef}

theorem held_named (store : UnitStore) (unit : UnitRef) (path : NamespacePath) (name : Name) :
    (named unit path name).Held store :=
  trivial

theorem Held.mono (held : tycon.Held before) (run : UnitStore.Reaches before after) :
    tycon.Held after := by
  cases tycon with
  | direct definition => exact run.mem held
  | named unit path name => exact held_named ..

theorem same_refl (tycon : TyconRef) : tycon.Same tycon :=
  (same_iff tycon tycon).mpr rfl

theorem Same.symm (same : first.Same second) : second.Same first :=
  (same_iff ..).mpr ((same_iff ..).mp same).symm

theorem Same.trans {third : TyconRef} (left : first.Same second) (right : second.Same third) :
    first.Same third :=
  (same_iff ..).mpr (((same_iff ..).mp left).trans ((same_iff ..).mp right))

theorem same_equivalence : Equivalence Same :=
  ⟨same_refl, Same.symm, Same.trans⟩

theorem same_inUnit_iff {unit : CompilationUnit} {path other : NamespacePath}
    {name otherName : Name} :
    (inUnit unit path name).Same (inUnit unit other otherName) ↔
      other = path ∧ otherName = name := by
  simp only [same_iff, key, inUnit, unitId?, TyconRef.path, TyconRef.name, Key.mk.injEq, true_and,
    @eq_comm _ path, @eq_comm _ name]

theorem definition?_eq_lookup (wellFormed : store.WellFormed) (held : tycon.Held store) :
    tycon.definition? store =
      tycon.key.unit.bind fun unit => store.lookup unit tycon.key.path tycon.key.name := by
  cases tycon with
  | direct definition => exact (wellFormed.lookup_of_mem held).symm
  | named unit path name => cases unit <;> rfl

theorem key_of_definition? (wellFormed : store.WellFormed)
    (found : tycon.definition? store = some definition) : tycon.key = (direct definition).key := by
  cases tycon with
  | direct own =>
      cases found
      rfl
  | named unit path name =>
      cases unit with
      | deferred missing => cases found
      | found unit =>
          have place := wellFormed.placed found
          simp only [TypeDef.place, Prod.mk.injEq] at place
          simp only [key, unitId?, TyconRef.path, TyconRef.name, UnitRef.unit?, Option.map_some,
            place]

theorem mem_of_definition? (held : tycon.Held store)
    (found : tycon.definition? store = some definition) : definition ∈ store.definitions := by
  cases tycon with
  | direct own =>
      cases found
      exact held
  | named unit path name =>
      cases unit with
      | deferred missing => cases found
      | found unit => exact UnitStore.mem_of_lookup found

theorem definition?_mono (run : UnitStore.Reaches before after) (wellFormed : before.WellFormed)
    (found : tycon.definition? before = some definition) :
    tycon.definition? after = some definition := by
  cases tycon with
  | direct own => exact found
  | named unit path name =>
      cases unit with
      | deferred missing => cases found
      | found unit => exact run.lookup wellFormed found

theorem stamp?_eq_some :
    tycon.stamp? store = some stamp ↔
      ∃ definition, tycon.definition? store = some definition ∧ definition.stamp = stamp :=
  Option.map_eq_some_iff

theorem canDeref_iff : tycon.canDeref store ↔ ∃ stamp, tycon.stamp? store = some stamp := by
  simp only [canDeref, stamp?, ← Option.isSome_iff_exists, Option.isSome_map]

theorem stamp?_mono (run : UnitStore.Reaches before after) (wellFormed : before.WellFormed)
    (found : tycon.stamp? before = some stamp) : tycon.stamp? after = some stamp := by
  rcases stamp?_eq_some.mp found with ⟨definition, leads, rfl⟩
  exact stamp?_eq_some.mpr ⟨definition, definition?_mono run wellFormed leads, rfl⟩

theorem stampCount_le_order_of_stamp? (run : UnitStore.Reaches before after)
    (wellFormed : before.WellFormed) (unknown : tycon.stamp? before = none)
    (found : tycon.stamp? after = some stamp) : before.stampCount ≤ stamp.order := by
  rcases stamp?_eq_some.mp found with ⟨definition, leads, rfl⟩
  cases tycon with
  | direct own => cases unknown
  | named unit path name =>
      have held := held_named after unit path name
      apply run.stampCount_le_order (mem_of_definition? held leads)
      intro earlier
      have keys := key_of_definition? (run.wellFormed wellFormed) leads
      have found := wellFormed.lookup_of_mem earlier
      have leadsBefore := definition?_eq_lookup wellFormed (held_named before unit path name)
      rw [keys] at leadsBefore
      rw [stamp?, leadsBefore] at unknown
      simp only [key, unitId?, TyconRef.path, TyconRef.name, Option.bind_some, found,
        Option.map_some, reduceCtorEq] at unknown

theorem Same.stamp?_eq (same : first.Same second) (wellFormed : store.WellFormed)
    (heldFirst : first.Held store) (heldSecond : second.Held store) :
    first.stamp? store = second.stamp? store := by
  rw [stamp?, stamp?, definition?_eq_lookup wellFormed heldFirst,
    definition?_eq_lookup wellFormed heldSecond, (same_iff ..).mp same]

theorem Same.canDeref_iff (same : first.Same second) (wellFormed : store.WellFormed)
    (heldFirst : first.Held store) (heldSecond : second.Held store) :
    first.canDeref store ↔ second.canDeref store := by
  rw [TyconRef.canDeref_iff, same.stamp?_eq wellFormed heldFirst heldSecond, TyconRef.canDeref_iff]

theorem not_canDeref_of_undefined (undefined : store.definitions = []) (held : tycon.Held store) :
    ¬ tycon.canDeref store := by
  intro leads
  obtain ⟨definition, found⟩ := Option.isSome_iff_exists.mp leads
  have present := mem_of_definition? held found
  rw [undefined] at present
  cases present

theorem same_of_stamp? (wellFormed : store.WellFormed) (heldFirst : first.Held store)
    (heldSecond : second.Held store) (foundFirst : first.stamp? store = some stamp)
    (foundSecond : second.stamp? store = some stamp) : first.Same second := by
  rcases stamp?_eq_some.mp foundFirst with ⟨left, leadsLeft, stampLeft⟩
  rcases stamp?_eq_some.mp foundSecond with ⟨right, leadsRight, stampRight⟩
  have inLeft := mem_of_definition? heldFirst leadsLeft
  have inRight := mem_of_definition? heldSecond leadsRight
  have one : left = right :=
    wellFormed.eq_of_stamp inLeft inRight (stampLeft.trans stampRight.symm)
  rw [same_iff, key_of_definition? wellFormed leadsLeft, key_of_definition? wellFormed leadsRight,
    one]

/-- Sameness is an equivalence that respects what references are hashed by. Whatever is defined
after two references came to be, they have one stamp if they are the same, and are the same if
they have one stamp; so a comparison never changes its outcome. -/
theorem same_iff_one_stamp (reached : store.Reachable) (run : UnitStore.Reaches store later)
    (heldFirst : first.Held store) (heldSecond : second.Held store) :
    Equivalence Same ∧ (first.Same second → first.key = second.key) ∧
      (first.Same second → first.stamp? later = second.stamp? later) ∧
      (first.canDeref later → second.canDeref later →
        first.stamp? later = second.stamp? later → first.Same second) ∧
      (first.canDeref store → second.canDeref store →
        (first.stamp? later = second.stamp? later ↔ first.stamp? store = second.stamp? store)) := by
  have wellFormed := reached.wellFormed
  have wellFormedLater := run.wellFormed wellFormed
  refine ⟨same_equivalence, (same_iff first second).mp, ?stamps, ?identity, ?stable⟩
  case stamps =>
    intro same
    exact same.stamp?_eq wellFormedLater (heldFirst.mono run) (heldSecond.mono run)
  case identity =>
    intro definedFirst _ stamps
    rcases canDeref_iff.mp definedFirst with ⟨stamp, foundFirst⟩
    have foundSecond : second.stamp? later = some stamp := stamps.symm.trans foundFirst
    exact same_of_stamp? wellFormedLater (heldFirst.mono run) (heldSecond.mono run) foundFirst
      foundSecond
  case stable =>
    intro definedFirst definedSecond
    rcases canDeref_iff.mp definedFirst with ⟨left, foundLeft⟩
    rcases canDeref_iff.mp definedSecond with ⟨right, foundRight⟩
    rw [foundLeft, foundRight, stamp?_mono run wellFormed foundLeft,
      stamp?_mono run wellFormed foundRight]

theorem direct_and_named_one_stamp :
    ∃ (store later : UnitStore) (first second : TyconRef), store.Reachable ∧
      UnitStore.Reaches store later ∧ first.Held store ∧ second.Held store ∧ first ≠ second ∧
        first.Same second ∧ first.stamp? later = second.stamp? later := by
  let spec : TypeSpec := { path := .root, name := .empty, kind := .classType }
  let other : TypeSpec := { path := ⟨[.empty]⟩, name := .empty, kind := .classType }
  let unit : CompilationUnit := ⟨⟨0⟩, .empty, .compiled⟩
  let store := (({} : UnitStore).define unit.id spec).2
  let later := (store.define unit.id other).2
  let first : TyconRef := .direct (({} : UnitStore).define unit.id spec).1
  let second : TyconRef := .inUnit unit spec.path spec.name
  have reached : store.Reachable := .single (.define unit.id spec)
  have run : UnitStore.Reaches store later := .single (.define unit.id other)
  have heldFirst : first.Held store := UnitStore.define_mem {} unit.id spec
  have heldSecond : second.Held store := held_named ..
  have same : first.Same second := by decide
  rcases same_iff_one_stamp reached run heldFirst heldSecond with ⟨_, _, stamps, _⟩
  exact ⟨store, later, first, second, reached, run, heldFirst, heldSecond, by decide, same,
    stamps same⟩

end TypeEnv.TyconRef
