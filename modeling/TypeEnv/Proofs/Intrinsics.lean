import Mathlib.Data.List.Forall2
import TypeEnv.Intrinsic.Basic
import TypeEnv.Proofs.TypeLookup

/-!
Why the table of intrinsics can always be made. Templates ask only for type parameters and array
ranks that exist, and no two known intrinsics have one linkage key: the texts of their keys
differ, and different texts have different names.
-/

namespace TypeEnv

theorem exists_of_bind {ε α β : Type} {first : Except ε α} {rest : α → Except ε β} {result : β}
    (made : first >>= rest = .ok result) :
    ∃ value, first = .ok value ∧ rest value = .ok result := by
  cases first with
  | error failure => cases made
  | ok value => exact ⟨value, rfl, made⟩

namespace Template

mutual

/-- Whether the template asks only for this many type parameters and for array ranks that exist. -/
def closed (typars : Nat) : Template → Bool
  | .prim _ => true
  | .param index => index < typars
  | .app _ args => closedAll typars args
  | .array rank elem => (1 ≤ rank && rank ≤ maxArrayRank) && closed typars elem
  | .fn domain range => closed typars domain && closed typars range
  | .tuple elems => closedAll typars elems
termination_by structural template => template

def closedAll (typars : Nat) : List Template → Bool
  | [] => true
  | template :: rest => closed typars template && closedAll typars rest
termination_by structural templates => templates

end

end Template

def Signature.closed (typars : Nat) (signature : Signature) : Bool :=
  signature.args.all (Template.closedAll typars) && signature.ret.closed typars

namespace TemplateContext

variable {context : TemplateContext}

theorem exists_array (tycons : WellKnownTycons) {rank : Nat}
    (ranked : 1 ≤ rank ∧ rank ≤ maxArrayRank) : ∃ tycon, tycons.array rank = .ok tycon :=
  ⟨_, dif_pos ranked⟩

mutual

theorem exists_instantiate (node : NodeId) : ∀ template : Template,
    template.closed context.typars.length → ∃ ty, context.instantiate node template = .ok ty
  | .prim kind, _ => ⟨_, rfl⟩
  | .param index, closed => by
      have bound : index < context.typars.length := by
        simpa only [Template.closed, decide_eq_true_eq] using closed
      exact ⟨context.typars[index], by simp only [instantiate, List.getElem?_eq_getElem bound]⟩
  | .app tycon args, closed => by
      rcases exists_instantiateAll node args closed with ⟨tys, made⟩
      exact ⟨_, by simp only [instantiate, made]; rfl⟩
  | .array rank elem, closed => by
      simp only [Template.closed, Bool.and_eq_true, decide_eq_true_eq] at closed
      rcases exists_array context.tycons closed.1 with ⟨tycon, found⟩
      rcases exists_instantiate node elem closed.2 with ⟨ty, made⟩
      exact ⟨_, by simp only [instantiate, found, made]; rfl⟩
  | .fn domain range, closed => by
      simp only [Template.closed, Bool.and_eq_true] at closed
      rcases exists_instantiate node domain closed.1 with ⟨left, madeDomain⟩
      rcases exists_instantiate node range closed.2 with ⟨right, madeRange⟩
      exact ⟨_, by simp only [instantiate, madeDomain, madeRange]; rfl⟩
  | .tuple elems, closed => by
      rcases exists_instantiateAll node elems closed with ⟨tys, made⟩
      exact ⟨_, by simp only [instantiate, made]; rfl⟩
termination_by structural template => template

theorem exists_instantiateAll (node : NodeId) : ∀ templates : List Template,
    Template.closedAll context.typars.length templates →
      ∃ tys, context.instantiateAll node templates = .ok tys
  | [], _ => ⟨[], rfl⟩
  | template :: rest, closed => by
      simp only [Template.closedAll, Bool.and_eq_true] at closed
      rcases exists_instantiate node template closed.1 with ⟨ty, first⟩
      rcases exists_instantiateAll node rest closed.2 with ⟨tys, others⟩
      exact ⟨_, by simp only [instantiateAll, first, others]; rfl⟩
termination_by structural templates => templates

end

theorem exists_instantiateGroups (node : NodeId) {groups : List (List Template)}
    (closed : groups.all (Template.closedAll context.typars.length)) :
    ∃ tys, context.instantiateGroups node groups = .ok tys := by
  induction groups with
  | nil => exact ⟨[], rfl⟩
  | cons group rest ih =>
      rw [List.all_cons, Bool.and_eq_true] at closed
      rcases exists_instantiateAll node group closed.1 with ⟨tys, first⟩
      rcases ih closed.2 with ⟨others, made⟩
      exact ⟨_, by simp only [instantiateGroups, first, made]; rfl⟩

end TemplateContext

theorem TyParam.length_of_placed {params : List TyParam} {count : Nat}
    (placed : params.map TyParam.index = List.range count) : params.length = count := by
  have lengths := congrArg List.length placed
  rwa [List.length_map, List.length_range] at lengths

theorem TyParam.index_of_placed {params : List TyParam} {place : Nat}
    (placed : params.map TyParam.index = List.range params.length) (bound : place < params.length) :
    params[place].index = place := by
  have entry := congrArg (·[place]?) placed
  simpa [bound] using entry

theorem TyParam.map_name_mapIdx (names : List Name) :
    (names.mapIdx fun index name => (⟨name, index⟩ : TyParam)).map TyParam.name = names := by
  apply List.ext_getElem
  · rw [List.length_map, List.length_mapIdx]
  · intro place _ _
    rw [List.getElem_map, List.getElem_mapIdx]

theorem TyParam.map_index_mapIdx (names : List Name) :
    (names.mapIdx fun index name => (⟨name, index⟩ : TyParam)).map TyParam.index =
      List.range names.length := by
  apply List.ext_getElem
  · rw [List.length_map, List.length_mapIdx, List.length_range]
  · intro place _ _
    rw [List.getElem_map, List.getElem_mapIdx, List.getElem_range]

theorem TyParam.mapIdx_name {params : List TyParam} {count : Nat}
    (placed : params.map TyParam.index = List.range count) :
    (params.map TyParam.name).mapIdx (fun index name => ⟨name, index⟩) = params := by
  rw [← length_of_placed placed] at placed
  apply List.ext_getElem
  · rw [List.length_mapIdx, List.length_map]
  · intro place _ bound
    rw [List.getElem_mapIdx, List.getElem_map]
    exact congrArg (TyParam.mk _) (index_of_placed placed bound).symm

structure IntrinsicNames.Spell (names : IntrinsicNames) (spec : IntrinsicSpec)
    (interner : Interner) : Prop where
  path : names.entity.path.segments.map some =
    (Dotted.pathSegments spec.declaredIn.space).map interner.get?
  entity : interner.get? spec.declaredIn.compiledName = some names.entity.name
  logicalName : interner.get? spec.logicalName = some names.logicalName
  compiledName : interner.get? spec.compiledName = some names.compiledName
  memberParent : names.memberParent.map some = spec.memberParent.map interner.get?
  typars : (names.typars.map TyParam.name).map some = spec.typars.map interner.get?
  placed : names.typars.map TyParam.index = List.range spec.typars.length

/-- The intrinsic is an instance of the description under the names that the interner gives to what
the description spells. -/
def Intrinsic.MadeFrom (value : Intrinsic) (spec : IntrinsicSpec) (tycons : WellKnownTycons)
    (prims : PrimitiveTypes) (interner : Interner) : Prop :=
  ∃ names node, names.Spell spec interner ∧
    spec.instantiate names tycons prims node = .ok value

structure Intrinsic.Described (value : Intrinsic) (spec : IntrinsicSpec) (interner : Interner) :
    Prop where
  id : value.id = spec.id
  known : value.known = spec.known
  entity : interner.get? spec.declaredIn.compiledName = some value.key.entity
  compiledName : interner.get? spec.compiledName = some value.key.compiledName
  memberParent : value.key.memberParent.map some = spec.memberParent.map interner.get?
  argCount : value.key.argCount = UInt32.ofNat spec.signature.argCount

theorem Interner.map_get?_mono {before after : Interner} {parent : Option String}
    {name : Option Name} (spelled : name.map some = parent.map before.get?)
    (extended : before.Extends after) : name.map some = parent.map after.get? := by
  cases parent with
  | none => rwa [Option.map_none] at spelled ⊢
  | some text =>
      cases name with
      | none => cases spelled
      | some name =>
          simp only [Option.map_some, Option.some.injEq] at spelled ⊢
          exact (get?_mono extended.toGrows spelled.symm).symm

theorem Interner.WellFormed.map_get?_injective {interner : Interner} {first second : Option String}
    {name : Option Name} (wellFormed : interner.WellFormed)
    (spelledFirst : name.map some = first.map interner.get?)
    (spelledSecond : name.map some = second.map interner.get?) : first = second := by
  cases name with
  | none =>
      rw [Option.map_eq_none_iff.mp spelledFirst.symm, Option.map_eq_none_iff.mp spelledSecond.symm]
  | some name =>
      rcases Option.map_eq_some_iff.mp spelledFirst.symm with ⟨left, rfl, knownFirst⟩
      rcases Option.map_eq_some_iff.mp spelledSecond.symm with ⟨right, rfl, knownSecond⟩
      rw [wellFormed.get?_injective knownFirst knownSecond]

theorem Intrinsic.Described.mono {value : Intrinsic} {spec : IntrinsicSpec}
    {before after : Interner} (described : value.Described spec before)
    (extended : before.Extends after) : value.Described spec after where
  id := described.id
  known := described.known
  entity := Interner.get?_mono extended.toGrows described.entity
  compiledName := Interner.get?_mono extended.toGrows described.compiledName
  memberParent := Interner.map_get?_mono described.memberParent extended
  argCount := described.argCount

theorem IntrinsicNames.Spell.mono {names : IntrinsicNames} {spec : IntrinsicSpec}
    {before after : Interner} (spell : names.Spell spec before) (extended : before.Extends after) :
    names.Spell spec after where
  path := extended.toGrows.names spell.path
  entity := Interner.get?_mono extended.toGrows spell.entity
  logicalName := Interner.get?_mono extended.toGrows spell.logicalName
  compiledName := Interner.get?_mono extended.toGrows spell.compiledName
  memberParent := Interner.map_get?_mono spell.memberParent extended
  typars := extended.toGrows.names spell.typars
  placed := spell.placed

theorem Intrinsic.MadeFrom.mono {value : Intrinsic} {spec : IntrinsicSpec}
    {tycons : WellKnownTycons} {prims : PrimitiveTypes} {before after : Interner}
    (made : value.MadeFrom spec tycons prims before) (extended : before.Extends after) :
    value.MadeFrom spec tycons prims after := by
  obtain ⟨names, node, spell, instantiated⟩ := made
  exact ⟨names, node, spell.mono extended, instantiated⟩

theorem Intrinsic.MadeFrom.described {value : Intrinsic} {spec : IntrinsicSpec}
    {tycons : WellKnownTycons} {prims : PrimitiveTypes} {interner : Interner}
    (made : value.MadeFrom spec tycons prims interner) : value.Described spec interner := by
  obtain ⟨names, node, spell, instantiated⟩ := made
  obtain ⟨groups, _, inner⟩ := exists_of_bind instantiated
  obtain ⟨ret, _, whole⟩ := exists_of_bind inner
  cases whole
  exact ⟨rfl, rfl, spell.entity, spell.compiledName, spell.memberParent, rfl⟩

namespace IntrinsicSpec

variable {spec first second : IntrinsicSpec} {names : IntrinsicNames} {interner before : Interner}

/-- What the linkage key is made of, before the strings are interned. -/
def keyText (spec : IntrinsicSpec) : String × Option String × String × UInt32 :=
  (spec.declaredIn.compiledName, spec.memberParent, spec.compiledName,
    UInt32.ofNat spec.signature.argCount)

theorem ensures_internParent (before : Interner) (parent : Option String) :
    Ensures before (parent.mapM Interner.intern) fun name after =>
      before.Extends after ∧ name.map some = parent.map after.get? := by
  cases parent with
  | none => exact ensures_pure ⟨.refl before, rfl⟩
  | some text =>
      rw [Option.mapM_some, map_eq_pure_bind]
      refine ensures_bind (Interner.ensures_intern before text) fun name after interned => ?_
      apply ensures_pure
      exact ⟨interned.1, by rw [Option.map_some, Option.map_some, interned.2]⟩

theorem ensures_internNames (before : Interner) (spec : IntrinsicSpec) :
    Ensures before spec.internNames fun names after =>
      before.Extends after ∧ names.Spell spec after := by
  refine ensures_bind (Interner.ensures_internSpace before spec.declaredIn.space) ?_
  intro path withPath paths
  refine ensures_bind (Interner.ensures_intern withPath spec.declaredIn.compiledName) ?_
  intro entity withEntity entities
  refine ensures_bind (Interner.ensures_intern withEntity spec.logicalName) ?_
  intro logicalName withLogical logicals
  refine ensures_bind (Interner.ensures_intern withLogical spec.compiledName) ?_
  intro compiledName withCompiled compileds
  refine ensures_bind (ensures_internParent withCompiled spec.memberParent) ?_
  intro memberParent withParent parents
  refine ensures_bind (Interner.ensures_internAll withParent spec.typars) ?_
  intro typars after typarNames
  have fromCompiled := parents.1.trans typarNames.1
  have fromLogical := compileds.1.trans fromCompiled
  have fromEntity := logicals.1.trans fromLogical
  have fromPath := entities.1.trans fromEntity
  have lengths := congrArg List.length typarNames.2
  rw [List.length_map, List.length_map] at lengths
  apply ensures_pure
  refine ⟨paths.1.trans fromPath, ?_⟩
  constructor
  case path => exact fromPath.toGrows.names paths.2
  case entity => exact Interner.get?_mono fromEntity.toGrows entities.2
  case logicalName => exact Interner.get?_mono fromLogical.toGrows logicals.2
  case compiledName => exact Interner.get?_mono fromCompiled.toGrows compileds.2
  case memberParent => exact Interner.map_get?_mono parents.2 typarNames.1
  case typars =>
    rw [TyParam.map_name_mapIdx]
    exact typarNames.2
  case placed => rw [TyParam.map_index_mapIdx, lengths]

theorem internParent_of_known {name : Option Name} {parent : Option String}
    (known : name.map some = parent.map interner.get?) :
    parent.mapM Interner.intern interner = .ok name interner := by
  cases parent with
  | none =>
      rw [Option.map_none, Option.map_eq_none_iff] at known
      rw [known]
      rfl
  | some text =>
      rw [Option.map_some] at known
      obtain ⟨name, rfl, found⟩ := Option.map_eq_some_iff.mp known
      rw [Option.mapM_some, map_eq_pure_bind]
      simp only [bind, EStateM.bind, Interner.intern_of_get? found.symm, pure, EStateM.pure]

/-- Nothing is interned for names that the interner gave already. -/
theorem internNames_of_spell (spell : names.Spell spec interner) :
    spec.internNames interner = .ok names interner := by
  simp only [internNames, bind, EStateM.bind, Interner.internPath_of_known spell.path,
    Interner.intern_of_get? spell.entity, Interner.intern_of_get? spell.logicalName,
    Interner.intern_of_get? spell.compiledName, internParent_of_known spell.memberParent,
    Interner.mapM_intern_of_get? spell.typars, TyParam.mapIdx_name spell.placed, pure, EStateM.pure]

def nameRoom (spec : IntrinsicSpec) : Nat :=
  (Dotted.segments spec.declaredIn.space).length + spec.typars.length + 4

theorem exists_instantiate {tycons : WellKnownTycons} {prims : PrimitiveTypes} {node : NodeId}
    (closed : spec.signature.closed spec.typars.length)
    (length : names.typars.length = spec.typars.length) :
    ∃ value, spec.instantiate names tycons prims node = .ok value := by
  let context : TemplateContext := ⟨tycons, prims, names.typars.map (.var node)⟩
  have typars : context.typars.length = spec.typars.length := by
    rw [List.length_map, length]
  rw [Signature.closed, Bool.and_eq_true, ← typars] at closed
  rcases context.exists_instantiateGroups node closed.1 with ⟨groups, madeGroups⟩
  rcases context.exists_instantiate node _ closed.2 with ⟨ret, madeRet⟩
  exact ⟨_, by simp only [instantiate, context, madeGroups, madeRet, bind, Except.bind]; rfl⟩

theorem keyText_eq {left right : Intrinsic} (wellFormed : interner.WellFormed)
    (isFirst : left.Described first interner) (isSecond : right.Described second interner)
    (same : left.key = right.key) : first.keyText = second.keyText := by
  have entity := wellFormed.get?_injective (same ▸ isFirst.entity) isSecond.entity
  have parent := wellFormed.map_get?_injective (same ▸ isFirst.memberParent) isSecond.memberParent
  have compiled := wellFormed.get?_injective (same ▸ isFirst.compiledName) isSecond.compiledName
  have count : UInt32.ofNat first.signature.argCount = UInt32.ofNat second.signature.argCount := by
    rw [← isFirst.argCount, ← isSecond.argCount, same]
  simp only [keyText, Prod.mk.injEq]
  exact ⟨entity, parent, compiled, count⟩

theorem keys_nodup {specs : List IntrinsicSpec} {values : List Intrinsic}
    (wellFormed : interner.WellFormed)
    (described : List.Forall₂ (fun spec value => value.Described spec interner) specs values)
    (distinct : (specs.map keyText).Nodup) : (values.map Intrinsic.key).Nodup := by
  induction described with
  | nil => exact List.nodup_nil
  | @cons spec value specs values now others ih =>
      rw [List.map_cons, List.nodup_cons] at distinct ⊢
      constructor
      · intro taken
        rcases List.mem_map.mp taken with ⟨other, member, same⟩
        rcases List.mem_iff_getElem.mp member with ⟨position, bound, rfl⟩
        have inSpecs : position < specs.length := others.length_eq ▸ bound
        have isOther := others.get inSpecs bound
        apply distinct.1
        rw [← keyText_eq wellFormed isOther now same]
        exact List.mem_map_of_mem (List.get_mem ..)
      · exact ih distinct.2

end IntrinsicSpec

theorem stops_internParent (before : Interner) (parent : Option String) :
    StopsWhenFull id before 1 (parent.mapM Interner.intern) := by
  cases parent with
  | none => exact stopsWhenFull_pure none
  | some text =>
      rw [Option.mapM_some]
      exact (Interner.stops_intern before text).map some

theorem stops_internNames (spec : IntrinsicSpec) (before : Interner) :
    StopsWhenFull id before spec.nameRoom spec.internNames := by
  have names : StopsWhenFull id before ((Dotted.segments spec.declaredIn.space).length +
      (1 + (1 + (1 + (1 + spec.typars.length * 1))))) spec.internNames := by
    refine stopsWhenFull_bind (Interner.stops_internPath before _) fun path withPath _ => ?_
    refine stopsWhenFull_bind (Interner.stops_intern withPath _) fun entity withEntity _ => ?_
    refine stopsWhenFull_bind (Interner.stops_intern withEntity _) fun logical withLogical _ => ?_
    refine stopsWhenFull_bind (Interner.stops_intern withLogical _) fun name withCompiled _ => ?_
    refine stopsWhenFull_bind (stops_internParent withCompiled _) fun parent withParent _ => ?_
    exact (stopsWhenFull_mapM
      (fun text state => Interner.stops_intern state text) withParent).bind_pure _
  apply names.weaken
  simp only [IntrinsicSpec.nameRoom]
  omega

namespace KnownTable

theorem insert_of_free {table : KnownTable} {value : Intrinsic}
    (free : table.find? value.key = none) :
    table.insert value = .ok ⟨table.entries ++ [value]⟩ := by
  simp only [KnownTable.insert, free]

theorem find?_eq_none_iff {table : KnownTable} {key : LinkageKey} :
    table.find? key = none ↔ key ∉ table.entries.map Intrinsic.key := by
  simp only [find?, List.find?_eq_none, decide_eq_true_eq, List.mem_map, not_exists, not_and]

theorem mem_of_find? {table : KnownTable} {key : LinkageKey} {value : Intrinsic}
    (found : table.find? key = some value) : value ∈ table.entries ∧ value.key = key := by
  rw [find?] at found
  exact ⟨List.mem_of_find?_eq_some found, by simpa using List.find?_some found⟩

theorem find?_eq_some_iff {table : KnownTable} {key : LinkageKey} {value : Intrinsic}
    (distinct : (table.entries.map Intrinsic.key).Nodup) :
    table.find? key = some value ↔ value ∈ table.entries ∧ value.key = key := by
  constructor
  · exact mem_of_find?
  · rintro ⟨member, rfl⟩
    cases found : table.find? value.key with
    | none => exact absurd (List.mem_map_of_mem member) (find?_eq_none_iff.mp found)
    | some other =>
        rcases mem_of_find? found with ⟨present, same⟩
        rw [List.inj_on_of_nodup_map distinct present member same]

theorem foldlM_insert {values : List Intrinsic} {table : KnownTable}
    (distinct : ((table.entries ++ values).map Intrinsic.key).Nodup) :
    values.foldlM KnownTable.insert table = .ok ⟨table.entries ++ values⟩ := by
  induction values generalizing table with
  | nil =>
      rw [List.append_nil]
      rfl
  | cons value rest ih =>
      have free : table.find? value.key = none := by
        rw [find?_eq_none_iff]
        intro taken
        rw [List.map_append, List.map_cons] at distinct
        exact (List.nodup_append.mp distinct).2.2 _ taken value.key List.mem_cons_self rfl
      rw [List.append_cons] at distinct ⊢
      rw [List.foldlM_cons, insert_of_free free]
      exact ih distinct

end KnownTable

namespace IntrinsicId

theorem spec_mem (id : IntrinsicId) : id.spec ∈ IntrinsicSpec.rows :=
  List.get_mem ..

theorem closed_spec (id : IntrinsicId) : id.spec.signature.closed id.spec.typars.length := by
  have all : ∀ spec ∈ IntrinsicSpec.rows, spec.signature.closed spec.typars.length := by
    decide +kernel
  exact all id.spec id.spec_mem

def nameRoom : Nat := 12

theorem nameRoom_spec (id : IntrinsicId) : id.spec.nameRoom ≤ nameRoom := by
  have space : (Dotted.segments id.spec.declaredIn.space).length ≤ 3 := by
    cases id.spec.declaredIn <;> decide +kernel
  have typars : ∀ spec ∈ IntrinsicSpec.rows, spec.typars.length ≤ 5 := by decide +kernel
  have few := typars id.spec id.spec_mem
  simp only [IntrinsicSpec.nameRoom, nameRoom]
  omega

set_option maxRecDepth 4000 in
theorem map_ctorIdx_all : all.map IntrinsicId.ctorIdx = List.range 188 := by decide

theorem getElem?_rows (id : IntrinsicId) : IntrinsicSpec.rows[id.ctorIdx]? = some id.spec :=
  List.getElem?_eq_getElem _

theorem map_spec : all.map spec = IntrinsicSpec.rows := by
  apply List.ext_getElem?
  intro position
  have place := congrArg (·[position]?) map_ctorIdx_all
  rw [List.getElem?_map] at place ⊢
  cases listed : all[position]? with
  | none =>
      rw [List.getElem?_eq_none_iff, ← IntrinsicSpec.length_rows] at listed
      exact (List.getElem?_eq_none listed).symm
  | some id =>
      have small : position < 188 := length_all ▸ (List.getElem?_eq_some_iff.mp listed).1
      rw [listed, List.getElem?_range small, Option.map_some, Option.some.injEq] at place
      rw [Option.map_some, ← getElem?_rows, place]

end IntrinsicId

namespace IntrinsicSpec

set_option maxRecDepth 20000 in
/-- Also an intrinsic that is not known has a key text of its own. -/
theorem keyTexts_nodup : (rows.map keyText).Nodup := by decide +kernel

end IntrinsicSpec

end TypeEnv
