import Mathlib.Data.List.Dedup
import TypeEnv.Proofs.Units

/-!
Any calls on any number of units. A unit holds what was specified first for each place in it, and
nothing else; the definitions take their stamps in the order in which their places were first asked
for, whichever units they belong to.
-/

namespace TypeEnv

def TypeDef.spec (definition : TypeDef) : TypeSpec where
  path := definition.path
  name := definition.name
  kind := definition.kind
  arity := definition.arity
  access := definition.access
  flags := definition.flags

namespace Dictionary

variable {κ α β : Type} [DecidableEq κ] {dictionary : Dictionary κ α}

theorem nodup_flatMap_values {parts : α → List β} (keyOf : β → κ)
    (keyed : ∀ key value, dictionary.get? key = some value → ∀ part ∈ parts value,
      keyOf part = key)
    (each : ∀ key value, dictionary.get? key = some value → (parts value).Nodup) :
    (dictionary.values.flatMap parts).Nodup := by
  rw [values, List.flatMap_map, List.nodup_flatMap]
  constructor
  · intro entry member
    exact each entry.1 entry.2 (get?_eq_some_iff.mpr member)
  · have keys : dictionary.entries.Pairwise fun first second => first.1 ≠ second.1 :=
      List.pairwise_map.mp dictionary.distinct
    refine keys.imp_of_mem ?_
    intro first second inFirst inSecond apart part partFirst partSecond
    apply apart
    rw [← keyed first.1 first.2 (get?_eq_some_iff.mpr inFirst) part partFirst,
      keyed second.1 second.2 (get?_eq_some_iff.mpr inSecond) part partSecond]

end Dictionary

namespace UnitStore

inductive Call where
  | addUnit (name : Name) (kind : UnitKind)
  | define (unit : UnitId) (spec : TypeSpec)

namespace Call

def leaves (store : UnitStore) : Call → UnitStore
  | .addUnit name kind => (store.addUnit name kind).2
  | .define unit spec => (store.define unit spec).2

def created? (store : UnitStore) : Call → Option CompilationUnit
  | .addUnit name kind => some (store.addUnit name kind).1
  | .define .. => none

def made? (store : UnitStore) : Call → Option TypeDef
  | .addUnit .. => none
  | .define unit spec =>
    match store.lookup unit spec.path spec.name with
    | some _ => none
    | none => some (store.define unit spec).1

def asked? : Call → Option (UnitId × TypeSpec)
  | .addUnit .. => none
  | .define unit spec => some (unit, spec)

end Call

def afterCalls (store : UnitStore) (calls : List Call) : UnitStore :=
  calls.foldl Call.leaves store

def collected {α : Type} (each : UnitStore → Call → Option α) (store : UnitStore) :
    List Call → List α
  | [] => []
  | call :: rest => (each store call).toList ++ collected each (call.leaves store) rest

def made (store : UnitStore) (calls : List Call) : List TypeDef :=
  collected Call.made? store calls

def created (store : UnitStore) (calls : List Call) : List CompilationUnit :=
  collected Call.created? store calls

/-- A store without definitions whose counters have run this far. -/
def blank (unitCount stampCount : Nat) : UnitStore := { unitCount, stampCount }

def placeOf (asked : UnitId × TypeSpec) : UnitId × NamespacePath × Name :=
  (asked.1, asked.2.path, asked.2.name)

def asked (calls : List Call) : List (UnitId × TypeSpec) := calls.filterMap Call.asked?

def firstSpec (calls : List Call) (unit : UnitId) (path : NamespacePath) (name : Name) :
    Option TypeSpec :=
  ((asked calls).find? fun given => placeOf given = (unit, path, name)).map Prod.snd

/-- What is asked for at a place that nothing before was asked for at. -/
def firsts : List (UnitId × TypeSpec) → List (UnitId × TypeSpec)
  | [] => []
  | given :: rest => given :: (firsts rest).filter (placeOf · ≠ placeOf given)

def keysIn (unit : UnitId) (calls : List Call) : List (NamespacePath × Name) :=
  ((asked calls).filter (·.1 = unit)).map fun given => (given.2.path, given.2.name)

variable {store : UnitStore} {unit : UnitId} {path : NamespacePath} {name : Name}
  {definition : TypeDef} {spec : TypeSpec} {calls : List Call}

section Calls

theorem made_cons (store : UnitStore) (call : Call) (rest : List Call) :
    store.made (call :: rest) = (call.made? store).toList ++ (call.leaves store).made rest :=
  rfl

theorem created_cons (store : UnitStore) (call : Call) (rest : List Call) :
    store.created (call :: rest) =
      (call.created? store).toList ++ (call.leaves store).created rest :=
  rfl

theorem Call.step (call : Call) (store : UnitStore) : Step store (call.leaves store) := by
  cases call with
  | addUnit name kind => exact .addUnit name kind
  | define unit spec => exact .define unit spec

theorem reaches_afterCalls (store : UnitStore) (calls : List Call) :
    Reaches store (store.afterCalls calls) := by
  induction calls generalizing store with
  | nil => exact .refl
  | cons call rest ih => exact .head (call.step store) (ih _)

theorem define_spec (free : store.lookup unit spec.path spec.name = none) :
    (store.define unit spec).1.spec = spec := by
  simp only [define, free, TypeDef.spec]

theorem define_unit (free : store.lookup unit spec.path spec.name = none) :
    (store.define unit spec).1.unit = unit := by
  simp only [define, free]

def isFree (store : UnitStore) (given : UnitId × TypeSpec) : Bool :=
  (store.lookup given.1 given.2.path given.2.name).isNone

theorem isFree_define (free : store.lookup unit spec.path spec.name = none)
    (given : UnitId × TypeSpec) :
    (store.define unit spec).2.isFree given =
      (store.isFree given && placeOf given ≠ placeOf (unit, spec)) := by
  rw [isFree, lookup_define free, isFree]
  by_cases same : placeOf given = placeOf (unit, spec)
  · have here : (given.1, given.2.path, given.2.name) = (unit, spec.path, spec.name) := same
    simp [here, same]
  · have apart : (given.1, given.2.path, given.2.name) ≠ (unit, spec.path, spec.name) := same
    simp [apart, same]

/-- The definitions made are what is asked for first where nothing was defined, in that order. -/
theorem map_made (store : UnitStore) (calls : List Call) :
    (store.made calls).map (fun definition => (definition.unit, definition.spec)) =
      (firsts (asked calls)).filter store.isFree := by
  induction calls generalizing store with
  | nil => rfl
  | cons call rest ih =>
      rw [made_cons, List.map_append, ih]
      cases call with
      | addUnit name kind => rfl
      | define unit spec =>
          have head : asked (.define unit spec :: rest) = (unit, spec) :: asked rest := rfl
          rw [head, firsts]
          cases found : store.lookup unit spec.path spec.name with
          | some earlier =>
              have taken : ¬ store.isFree (unit, spec) = true := by simp [isFree, found]
              have kept : Call.leaves store (.define unit spec) = store :=
                congrArg Prod.snd (define_of_lookup found)
              rw [List.filter_cons_of_neg taken, List.filter_filter, kept]
              simp only [Call.made?, found, Option.toList_none, List.map_nil, List.nil_append]
              apply List.filter_congr
              intro given _
              by_cases same : placeOf given = placeOf (unit, spec)
              · simp only [placeOf, Prod.mk.injEq] at same
                simp [isFree, same, found]
              · simp [same]
          | none =>
              have open' : store.isFree (unit, spec) = true := by simp [isFree, found]
              rw [List.filter_cons_of_pos open', List.filter_filter]
              simp only [Call.made?, found, Option.toList_some, List.map_cons, List.map_nil,
                define_unit found, define_spec found, List.singleton_append]
              congr 1
              apply List.filter_congr
              intro given _
              exact isFree_define found given

theorem mem_definitions_afterCalls :
    definition ∈ (store.afterCalls calls).definitions ↔
      definition ∈ store.definitions ∨ definition ∈ store.made calls := by
  induction calls generalizing store with
  | nil => simp [afterCalls, made, collected]
  | cons call rest ih =>
      have unfolded : store.afterCalls (call :: rest) = (call.leaves store).afterCalls rest := rfl
      rw [unfolded, ih, made_cons, List.mem_append, ← or_assoc]
      refine or_congr_left ?_
      cases call with
      | addUnit name kind => simp [Call.made?, Call.leaves, addUnit, definitions]
      | define unit spec =>
          cases found : store.lookup unit spec.path spec.name with
          | some earlier => simp [Call.made?, Call.leaves, found, define_of_lookup found]
          | none => simp [Call.made?, Call.leaves, found, mem_definitions_define found]

theorem map_order_made (store : UnitStore) (calls : List Call) :
    (store.made calls).map (fun definition => definition.stamp.order) =
      List.range' store.stampCount (store.made calls).length := by
  induction calls generalizing store with
  | nil => rfl
  | cons call rest ih =>
      rw [made_cons]
      cases call with
      | addUnit name kind => exact ih _
      | define unit spec =>
          cases found : store.lookup unit spec.path spec.name with
          | some earlier =>
              have kept : Call.leaves store (.define unit spec) = store :=
                congrArg Prod.snd (define_of_lookup found)
              simp only [Call.made?, found, kept, Option.toList_none, List.nil_append]
              exact ih store
          | none =>
              have counted : (Call.leaves store (.define unit spec)).stampCount =
                  store.stampCount + 1 := define_stampCount found
              simp only [Call.made?, found, Option.toList_some, List.singleton_append,
                List.map_cons, List.length_cons, List.range'_succ, define_stamp found, ih, counted]

theorem map_index_created (store : UnitStore) (calls : List Call) :
    (store.created calls).map (fun unit => unit.id.index) =
      List.range' store.unitCount (store.created calls).length := by
  induction calls generalizing store with
  | nil => rfl
  | cons call rest ih =>
      rw [created_cons]
      cases call with
      | addUnit name kind =>
          simp only [Call.created?, Option.toList_some, List.singleton_append, List.map_cons,
            List.length_cons, List.range'_succ, ih, addUnit, Call.leaves]
      | define unit spec =>
          have counted : (Call.leaves store (.define unit spec)).unitCount = store.unitCount := by
            simp only [Call.leaves, define]
            split <;> rfl
          simp only [Call.created?, Option.toList_none, List.nil_append, ih, counted]

theorem nodup_created (store : UnitStore) (calls : List Call) :
    ((store.created calls).map CompilationUnit.id).Nodup := by
  have indices : ((store.created calls).map CompilationUnit.id).map UnitId.index =
      List.range' store.unitCount (store.created calls).length :=
    List.map_map.trans (map_index_created store calls)
  have distinct : (((store.created calls).map CompilationUnit.id).map UnitId.index).Nodup := by
    rw [indices]
    exact List.nodup_range'
  exact distinct.of_map

theorem firstSpec_cons (call : Call) (rest : List Call) (unit : UnitId) (path : NamespacePath)
    (name : Name) : firstSpec (call :: rest) unit path name =
      (firstSpec [call] unit path name).or (firstSpec rest unit path name) := by
  have split : asked (call :: rest) = asked [call] ++ asked rest :=
    List.filterMap_append (l := [call])
  rw [firstSpec, split, List.find?_append, Option.map_or]
  rfl

theorem map_spec_lookup_leaves (store : UnitStore) (call : Call) (unit : UnitId)
    (path : NamespacePath) (name : Name) :
    ((call.leaves store).lookup unit path name).map TypeDef.spec =
      ((store.lookup unit path name).map TypeDef.spec).or (firstSpec [call] unit path name) := by
  cases call with
  | addUnit => exact Option.or_none.symm
  | define own spec =>
      have only : firstSpec [.define own spec] unit path name =
          if (own, spec.path, spec.name) = (unit, path, name) then some spec else none := by
        simp only [firstSpec, asked, Call.asked?, List.filterMap_cons, List.filterMap_nil,
          List.find?_cons, List.find?_nil, placeOf]
        split <;> simp_all
      rw [only, Call.leaves]
      cases found : store.lookup own spec.path spec.name with
      | some earlier =>
          rw [define_of_lookup found]
          split
          case isTrue same =>
            simp only [Prod.mk.injEq] at same
            rw [← same.1, ← same.2.1, ← same.2.2, found]
            rfl
          case isFalse => rw [Option.or_none]
      | none =>
          rw [lookup_define found]
          by_cases same : (own, spec.path, spec.name) = (unit, path, name)
          · rw [if_pos same, if_pos same.symm, Option.map_some, define_spec found]
            simp only [Prod.mk.injEq] at same
            rw [← same.1, ← same.2.1, ← same.2.2, found]
            rfl
          · rw [if_neg same, if_neg (Ne.symm same), Option.or_none]

theorem map_spec_lookup (store : UnitStore) (calls : List Call) (unit : UnitId)
    (path : NamespacePath) (name : Name) :
    ((store.afterCalls calls).lookup unit path name).map TypeDef.spec =
      ((store.lookup unit path name).map TypeDef.spec).or (firstSpec calls unit path name) := by
  induction calls generalizing store with
  | nil => exact Option.or_none.symm
  | cons call rest ih =>
      have unfolded : store.afterCalls (call :: rest) = (call.leaves store).afterCalls rest := rfl
      rw [unfolded, ih, map_spec_lookup_leaves, firstSpec_cons call rest, Option.or_assoc]

theorem mem_keysIn :
    (path, name) ∈ keysIn unit calls ↔ (firstSpec calls unit path name).isSome := by
  simp only [keysIn, firstSpec, placeOf, List.mem_map, List.mem_filter, Option.isSome_map,
    List.find?_isSome, decide_eq_true_eq, Prod.mk.injEq]
  constructor
  · rintro ⟨given, ⟨member, own⟩, atPath, atName⟩
    exact ⟨given, member, own, atPath, atName⟩
  · rintro ⟨given, member, own, atPath, atName⟩
    exact ⟨given, ⟨member, own⟩, atPath, atName⟩

end Calls

theorem WellFormed.nodup_definitions (wellFormed : store.WellFormed) (unit : UnitId) :
    (store.contentsOf unit).definitions.Nodup := by
  -- what is kept in a namespace tells the namespace and its own name
  have placed : ∀ path types, (store.contentsOf unit).namespaces.get? path = some types →
      ∀ name definition, types.get? name = some definition →
        definition.path = path ∧ definition.name = name := by
    intro path types space name definition held
    have found : store.lookup unit path name = some definition := by
      rw [UnitStore.lookup, UnitContents.lookup, space, Option.bind_some, held]
    have place := wellFormed.placed found
    simp only [TypeDef.place, Prod.mk.injEq] at place
    exact place.2
  apply Dictionary.nodup_flatMap_values TypeDef.path
  case keyed =>
    intro path types space definition member
    rcases Dictionary.mem_values_iff.mp member with ⟨name, held⟩
    exact (placed path types space name definition held).1
  case each =>
    intro path types space
    have single : types.values = types.values.flatMap fun definition => [definition] :=
      (List.flatMap_singleton' types.values).symm
    rw [single]
    apply Dictionary.nodup_flatMap_values TypeDef.name
    case keyed =>
      intro name definition held part member
      rw [List.mem_singleton.mp member]
      exact (placed path types space name definition held).2
    case each => exact fun _ _ _ => List.nodup_singleton _

theorem WellFormed.size_eq (wellFormed : store.WellFormed) {keys : List (NamespacePath × Name)}
    (known : ∀ path name, (path, name) ∈ keys ↔ (store.lookup unit path name).isSome) :
    store.size unit = keys.dedup.length := by
  let keyOf (definition : TypeDef) : NamespacePath × Name := (definition.path, definition.name)
  have found : ∀ definition ∈ (store.contentsOf unit).definitions,
      store.lookup unit definition.path definition.name = some definition := by
    intro definition member
    rcases UnitContents.mem_definitions_iff.mp member with ⟨path, name, held⟩
    have place : definition.place = (unit, path, name) := wellFormed.placed held
    simp only [TypeDef.place, Prod.mk.injEq] at place
    rw [place.2.1, place.2.2]
    exact held
  have distinct : ((store.contentsOf unit).definitions.map keyOf).Nodup := by
    apply (wellFormed.nodup_definitions unit).map_on
    intro first inFirst second inSecond same
    have parts : first.path = second.path ∧ first.name = second.name := Prod.mk.inj same
    have heldFirst := found first inFirst
    rw [parts.1, parts.2, found second inSecond] at heldFirst
    exact (Option.some.inj heldFirst).symm
  have same : ((store.contentsOf unit).definitions.map keyOf).Perm keys.dedup := by
    rw [List.perm_ext_iff_of_nodup distinct (List.nodup_dedup keys)]
    rintro ⟨path, name⟩
    rw [List.mem_dedup, known, List.mem_map, Option.isSome_iff_exists]
    constructor
    · rintro ⟨definition, member, key⟩
      have parts : definition.path = path ∧ definition.name = name := Prod.mk.inj key
      refine ⟨definition, ?_⟩
      rw [← parts.1, ← parts.2]
      exact found definition member
    · rintro ⟨definition, held⟩
      have place := wellFormed.placed held
      simp only [TypeDef.place, Prod.mk.injEq] at place
      refine ⟨definition, UnitContents.mem_definitions_iff.mpr ⟨path, name, held⟩, ?_⟩
      exact Prod.ext place.2.1 place.2.2
  rw [size, ← same.length_eq, List.length_map]

section Blank

variable (unitCount stampCount : Nat)

theorem wellFormed_blank (calls : List Call) :
    ((blank unitCount stampCount).afterCalls calls).WellFormed :=
  (reaches_afterCalls _ calls).wellFormed (wellFormed_of_undefined rfl)

theorem map_made_blank (calls : List Call) :
    ((blank unitCount stampCount).made calls).map
      (fun definition => (definition.unit, definition.spec)) = firsts (asked calls) := by
  rw [map_made]
  apply List.filter_eq_self.mpr
  exact fun _ _ => rfl

/-- Along any calls on any units, from counters with any values. -/
theorem calls_keep_first (calls later : List Call) :
    -- a unit maps every place to what was specified there first, and to nothing where nothing was
    (∀ unit path name,
      (((blank unitCount stampCount).afterCalls calls).lookup unit path name).map TypeDef.spec =
        firstSpec calls unit path name) ∧
    -- a definition says whose it is and where, and stays what is found there
    (∀ unit path name definition,
      ((blank unitCount stampCount).afterCalls calls).lookup unit path name = some definition →
        definition.unit = unit ∧ definition.path = path ∧ definition.name = name ∧
          ((blank unitCount stampCount).afterCalls (calls ++ later)).lookup unit path name =
            some definition) ∧
    -- a later specification for the place gives it back and changes nothing
    (∀ unit (spec : TypeSpec) definition,
      ((blank unitCount stampCount).afterCalls calls).lookup unit spec.path spec.name =
        some definition →
          ((blank unitCount stampCount).afterCalls calls).define unit spec =
            (definition, (blank unitCount stampCount).afterCalls calls)) ∧
    -- what is held is what was asked for first, and is stamped in the order of asking
    (∀ definition, definition ∈ ((blank unitCount stampCount).afterCalls calls).definitions ↔
      definition ∈ (blank unitCount stampCount).made calls) ∧
    ((blank unitCount stampCount).made calls).map
      (fun definition => (definition.unit, definition.spec)) = firsts (asked calls) ∧
    ((blank unitCount stampCount).made calls).map (fun definition => definition.stamp.order) =
      List.range' stampCount (firsts (asked calls)).length ∧
    -- no two definitions of whatever units have one stamp
    (∀ first ∈ ((blank unitCount stampCount).afterCalls calls).definitions,
      ∀ second ∈ ((blank unitCount stampCount).afterCalls calls).definitions,
        first.stamp = second.stamp → first = second) ∧
    -- defining in one unit leaves the contents of all others as they are
    (∀ unit spec other, other ≠ unit →
      (((blank unitCount stampCount).afterCalls calls).define unit spec).2.contentsOf other =
        ((blank unitCount stampCount).afterCalls calls).contentsOf other) ∧
    -- the size of a unit counts the places in it that were asked for
    (∀ unit, ((blank unitCount stampCount).afterCalls calls).size unit =
      (keysIn unit calls).dedup.length) ∧
    -- units that are created have identities of their own
    (((blank unitCount stampCount).created calls).map CompilationUnit.id).Nodup := by
  have wellFormed := wellFormed_blank unitCount stampCount calls
  have spec (unit : UnitId) (path : NamespacePath) (name : Name) :
      (((blank unitCount stampCount).afterCalls calls).lookup unit path name).map TypeDef.spec =
        firstSpec calls unit path name :=
    map_spec_lookup (blank unitCount stampCount) calls unit path name
  have same := map_made_blank unitCount stampCount calls
  have count : ((blank unitCount stampCount).made calls).length =
      (firsts (asked calls)).length := by
    rw [← same, List.length_map]
  refine ⟨spec, ?stays, ?again, ?held, same, ?stamps, ?apart, ?others, ?size,
    nodup_created _ calls⟩
  case stays =>
    intro unit path name definition found
    have place := wellFormed.placed found
    simp only [TypeDef.place, Prod.mk.injEq] at place
    refine ⟨place.1, place.2.1, place.2.2, ?_⟩
    rw [afterCalls, List.foldl_append]
    exact (reaches_afterCalls _ later).lookup wellFormed found
  case again => exact fun unit spec definition found => define_of_lookup found
  case held =>
    intro definition
    rw [mem_definitions_afterCalls]
    exact or_iff_right List.not_mem_nil
  case stamps => rw [map_order_made, count, blank]
  case apart => exact fun first inFirst second inSecond => wellFormed.eq_of_stamp inFirst inSecond
  case others => exact fun unit spec other apart => contentsOf_define_of_ne spec apart
  case size =>
    intro unit
    apply wellFormed.size_eq
    intro path name
    rw [mem_keysIn, ← spec, Option.isSome_map]

end Blank

/-- Two units define a type of one name; what one of them specifies for it again is left aside. -/
theorem calls_keep_first_two_units :
    ∃ calls first second, calls = [.addUnit .empty .compiled, .addUnit .empty .referenced,
        .define ⟨3⟩ ⟨.root, .empty, .classType, 0, .exported, {}⟩,
        .define ⟨4⟩ ⟨.root, .empty, .unionType, 2, .exported, {}⟩,
        .define ⟨3⟩ ⟨.root, .empty, .interface, 1, .internal, {}⟩] ∧
      ((blank 3 7).afterCalls calls).lookup ⟨3⟩ .root .empty = some first ∧
      ((blank 3 7).afterCalls calls).lookup ⟨4⟩ .root .empty = some second ∧
      first.spec = ⟨.root, .empty, .classType, 0, .exported, {}⟩ ∧
      second.spec = ⟨.root, .empty, .unionType, 2, .exported, {}⟩ ∧ first.stamp ≠ second.stamp ∧
      ((blank 3 7).made calls).map (fun definition => definition.stamp.order) = [7, 8] ∧
      ((blank 3 7).afterCalls (calls ++
        [.define ⟨3⟩ ⟨.root, .empty, .recordType, 0, .exported, {}⟩])).lookup ⟨3⟩ .root .empty =
          some first ∧
      ((blank 3 7).afterCalls calls).size ⟨3⟩ = 1 ∧
      ((blank 3 7).created calls).map CompilationUnit.id = [⟨3⟩, ⟨4⟩] := by
  refine ⟨_, _, _, rfl, rfl, rfl, ?_⟩
  obtain ⟨spec, stays, again, held, same, stamps, apart, others, size, ids⟩ := calls_keep_first 3 7
    [.addUnit .empty .compiled, .addUnit .empty .referenced,
      .define ⟨3⟩ ⟨.root, .empty, .classType, 0, .exported, {}⟩,
      .define ⟨4⟩ ⟨.root, .empty, .unionType, 2, .exported, {}⟩,
      .define ⟨3⟩ ⟨.root, .empty, .interface, 1, .internal, {}⟩]
    [.define ⟨3⟩ ⟨.root, .empty, .recordType, 0, .exported, {}⟩]
  refine ⟨rfl, rfl, ?_, stamps, ?_, size ⟨3⟩, rfl⟩
  · decide
  · exact (stays ⟨3⟩ .root .empty _ rfl).2.2.2

end UnitStore

end TypeEnv
