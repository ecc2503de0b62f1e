import TypeEnv.Proofs.CompiledTuples

namespace TypeEnv

namespace Ty

/-- Every application in the type is of a constructor, and to a number of arguments, that qualify.
-/
inductive EachApp (qualifies : TyconRef → Nat → Prop) : Ty → Prop where
  | app (node : NodeId) (tycon : TyconRef) (args : List Ty) (nullness : Nullness)
    (here : qualifies tycon args.length) (parts : ∀ arg ∈ args, EachApp qualifies arg) :
    EachApp qualifies (.app node tycon args nullness)
  | fn (node : NodeId) (domain range : Ty) (nullness : Nullness)
    (left : EachApp qualifies domain) (right : EachApp qualifies range) :
    EachApp qualifies (.fn node domain range nullness)
  | tuple (node : NodeId) (kind : TupleKind) (elems : List Ty)
    (parts : ∀ elem ∈ elems, EachApp qualifies elem) : EachApp qualifies (.tuple node kind elems)
  | var (node : NodeId) (param : TyParam) : EachApp qualifies (.var node param)

variable {qualifies weaker : TyconRef → Nat → Prop} {ty : Ty} {step : Ty → Ty}

theorem EachApp.weaken (each : ty.EachApp qualifies)
    (implied : ∀ tycon count, qualifies tycon count → weaker tycon count) : ty.EachApp weaker := by
  induction each with
  | app node tycon args nullness here _ ih => exact .app _ _ _ _ (implied _ _ here) ih
  | fn node domain range nullness _ _ ihDomain ihRange => exact .fn _ _ _ _ ihDomain ihRange
  | tuple node kind elems _ ih => exact .tuple _ _ _ ih
  | var node param => exact .var _ _

theorem EachApp.bare (each : ty.EachApp qualifies) : ty.bare.EachApp qualifies := by
  induction each with
  | app node tycon args nullness here _ ih =>
      rw [Ty.bare, bares_eq_map]
      refine .app _ _ _ _ ?_ (List.forall_mem_map.mpr ih)
      rwa [List.length_map]
  | fn node domain range nullness _ _ ihDomain ihRange => exact .fn _ _ _ _ ihDomain ihRange
  | tuple node kind elems _ ih =>
      rw [Ty.bare, bares_eq_map]
      exact .tuple _ _ _ (List.forall_mem_map.mpr ih)
  | var node param => exact .var _ _

theorem eachApp_of_anyNode {test : Ty → Bool} (clean : ty.anyNode test = false)
    (failed : ∀ node tycon args nullness, test (.app node tycon args nullness) = false →
      qualifies tycon args.length) : ty.EachApp qualifies := by
  induction ty using Ty.induction with
  | app node tycon args nullness ih =>
      obtain ⟨here, parts⟩ := anyNode_eq_false_iff.mp clean
      exact .app _ _ _ _ (failed _ _ _ _ here) fun arg member => ih arg member (parts arg member)
  | fn node domain range nullness ihDomain ihRange =>
      have parts := (anyNode_eq_false_iff.mp clean).2
      have left := parts domain List.mem_cons_self
      have right := parts range (List.mem_cons_of_mem _ List.mem_cons_self)
      exact .fn _ _ _ _ (ihDomain left) (ihRange right)
  | tuple node kind elems ih =>
      have parts := (anyNode_eq_false_iff.mp clean).2
      exact .tuple _ _ _ fun elem member => ih elem member (parts elem member)
  | var node param => exact .var _ _

theorem exists_rebuild (node old : NodeId) (ty : Ty) (parts : List Ty)
    (own : ty.withChildren old ty.children = ty) :
    ∃ held, (held = old ∨ held = node) ∧ ty.rebuild node parts = ty.withChildren held parts := by
  by_cases same : parts = ty.children
  · exact ⟨old, Or.inl rfl, by rw [rebuild, if_pos same, same, own]⟩
  · exact ⟨node, Or.inr rfl, if_neg same⟩

theorem exists_rewrite_app (step : Ty → Ty) (node old : NodeId) (tycon : TyconRef)
    (args : List Ty) (nullness : Nullness) :
    ∃ held, (held = old ∨ held = node) ∧ rewrite node step (.app old tycon args nullness) =
      step (.app held tycon (args.map (rewrite node step)) nullness) := by
  obtain ⟨held, which, rebuilt⟩ := exists_rebuild node old (.app old tycon args nullness)
    (args.map (rewrite node step)) rfl
  exact ⟨held, which, by rw [rewrite, rewriteAll_eq_map, rebuilt]; rfl⟩

theorem exists_rewrite_fn (step : Ty → Ty) (node old : NodeId) (domain range : Ty)
    (nullness : Nullness) :
    ∃ held, (held = old ∨ held = node) ∧ rewrite node step (.fn old domain range nullness) =
      step (.fn held (rewrite node step domain) (rewrite node step range) nullness) := by
  obtain ⟨held, which, rebuilt⟩ := exists_rebuild node old (.fn old domain range nullness)
    [rewrite node step domain, rewrite node step range] rfl
  exact ⟨held, which, by rw [rewrite, rebuilt]; rfl⟩

theorem exists_rewrite_tuple (step : Ty → Ty) (node old : NodeId) (kind : TupleKind)
    (elems : List Ty) :
    ∃ held, (held = old ∨ held = node) ∧ rewrite node step (.tuple old kind elems) =
      step (.tuple held kind (elems.map (rewrite node step))) := by
  obtain ⟨held, which, rebuilt⟩ := exists_rebuild node old (.tuple old kind elems)
    (elems.map (rewrite node step)) rfl
  exact ⟨held, which, by rw [rewrite, rewriteAll_eq_map, rebuilt]; rfl⟩

section SameNode

variable (step : Ty → Ty) (node : NodeId)

theorem rewrite_app (tycon : TyconRef) (args : List Ty) (nullness : Nullness) :
    rewrite node step (.app node tycon args nullness) =
      step (.app node tycon (args.map (rewrite node step)) nullness) := by
  rcases exists_rewrite_app step node node tycon args nullness with ⟨held, which, result⟩
  rw [result, or_self_iff.mp which]

theorem rewrite_fn (domain range : Ty) (nullness : Nullness) :
    rewrite node step (.fn node domain range nullness) =
      step (.fn node (rewrite node step domain) (rewrite node step range) nullness) := by
  rcases exists_rewrite_fn step node node domain range nullness with ⟨held, which, result⟩
  rw [result, or_self_iff.mp which]

theorem rewrite_tuple (kind : TupleKind) (elems : List Ty) :
    rewrite node step (.tuple node kind elems) =
      step (.tuple node kind (elems.map (rewrite node step))) := by
  rcases exists_rewrite_tuple step node node kind elems with ⟨held, which, result⟩
  rw [result, or_self_iff.mp which]

end SameNode

theorem EachApp.rewrite_eq_self (each : ty.EachApp qualifies)
    (apps : ∀ node tycon args nullness, qualifies tycon args.length →
      step (.app node tycon args nullness) = .app node tycon args nullness)
    (others : ∀ ty : Ty, ty.isApp = false → step ty = ty) (node : NodeId) :
    rewrite node step ty = ty := by
  have kept : ∀ tys : List Ty, (∀ ty ∈ tys, rewrite node step ty = ty) →
      tys.map (rewrite node step) = tys := by
    intro tys fixed
    exact (List.map_congr_left fixed).trans tys.map_id
  induction each with
  | app old tycon args nullness here _ ih =>
      rw [rewrite_eq, children, kept args ih]
      exact (congrArg step (rebuild_children ..)).trans (apps old tycon args nullness here)
  | fn old domain range nullness _ _ ihDomain ihRange =>
      rw [rewrite, ihDomain, ihRange]
      exact (congrArg step (rebuild_children ..)).trans (others _ rfl)
  | tuple old kind elems _ ih =>
      rw [rewrite_eq, children, kept elems ih]
      exact (congrArg step (rebuild_children ..)).trans (others _ rfl)
  | var old param => exact others _ rfl

/-- Every constructor in the type can be held while the store is as it is. -/
def Held (store : UnitStore) : Ty → Prop :=
  EachApp fun tycon _ => tycon.Held store

end Ty

namespace TupleTycons

variable {tuples : TupleTycons} {kind : TupleKind} {args flat : List Ty} {slot elem : Ty}
  {qualifies : TyconRef → Nat → Prop}

theorem isSome_elements (args : List Ty) :
    (tuples.elements kind args).isSome = decide (2 ≤ args.length) := by
  by_cases eight : args.length = maxTuple
  · obtain ⟨seven, slot, length, rfl⟩ := exists_of_length_eight eight
    rw [elements_of_eight length, eight]
    rfl
  · rw [elements_of_length_ne eight]
    split <;> simp [*]

theorem decode_eq_none_iff {node : NodeId} :
    tuples.decode node kind args = none ↔ args.length < 2 := by
  rw [decode, Option.map_eq_none_iff, ← Option.not_isSome_iff_eq_none, isSome_elements,
    decide_eq_true_eq, Nat.not_le]

/-- An element of a tuple is one of the arguments, or stands in one that continues the tuple. -/
theorem mem_of_elements (found : tuples.elements kind args = some flat) (member : elem ∈ flat) :
    elem ∈ args ∨ ∃ slot ∈ args, ∃ inner, tuples.continuation kind slot = some inner ∧
      elem ∈ inner := by
  rcases cases_of_elements found with ⟨_, rfl⟩ | ⟨seven, slot, _, rfl, rfl⟩
  · exact Or.inl member
  · rcases List.mem_append.mp member with inSeven | inSlot
    · exact Or.inl (List.mem_append_left _ inSeven)
    · cases inner : tuples.continuation kind slot with
      | none =>
          rw [inner] at inSlot
          exact Or.inl (List.mem_append_right _ inSlot)
      | some elems =>
          rw [inner] at inSlot
          exact Or.inr ⟨slot, List.mem_append_right _ List.mem_cons_self, elems, inner, inSlot⟩

theorem eachApp_of_continuation (each : slot.EachApp qualifies)
    (found : tuples.continuation kind slot = some flat) :
    ∀ elem ∈ flat, elem.EachApp qualifies := by
  induction each generalizing flat with
  | app node tycon args nullness _ parts ih =>
      rw [continuation] at found
      split at found
      case h_1 => cases found
      case h_2 =>
        split at found
        case isTrue => cases found
        case isFalse =>
          split at found
          case isTrue =>
            cases found
            exact parts
          case isFalse =>
            intro elem member
            rcases mem_of_elements found member with inArgs | ⟨inner, inArgs, elems, leads, inInner⟩
            · exact parts elem inArgs
            · exact ih inner inArgs leads elem inInner
  | fn => cases found
  | tuple node other elems parts =>
      rw [continuation] at found
      split at found
      case isTrue =>
        cases found
        exact parts
      case isFalse => cases found
  | var => cases found

theorem eachApp_of_elements (each : ∀ arg ∈ args, arg.EachApp qualifies)
    (found : tuples.elements kind args = some flat) : ∀ elem ∈ flat, elem.EachApp qualifies := by
  intro elem member
  rcases mem_of_elements found member with inArgs | ⟨slot, inArgs, inner, leads, inInner⟩
  · exact each elem inArgs
  · exact eachApp_of_continuation (each slot inArgs) leads elem inInner

end TupleTycons

namespace DecompileRules

variable {rules : DecompileRules} {tuples : TupleTycons} {store : UnitStore} {tycon : TyconRef}
  {args : List Ty} {ty formed : Ty} {nullness : Nullness} {qualifies : TyconRef → Nat → Prop}

def forms (rules : DecompileRules) (store : UnitStore) (tycon : TyconRef) (count : Nat) : Bool :=
  match rules.rule? store tycon with
  | none => false
  | some .function => count = 2
  | some (.tuple _) => 2 ≤ count

def Decompiled (rules : DecompileRules) (store : UnitStore) : Ty → Prop :=
  Ty.EachApp fun tycon count => rules.forms store tycon count = false

theorem decompileApp?_eq_none_iff {node : NodeId} :
    rules.decompileApp? tuples store node tycon args nullness = none ↔
      rules.forms store tycon args.length = false := by
  rw [← Option.isNone_iff_eq_none, ← Option.isSome_eq_false_iff]
  simp only [decompileApp?, forms]
  cases rules.rule? store tycon with
  | none => exact Iff.rfl
  | some rule =>
      cases rule with
      | function =>
          rcases args with _ | ⟨domain, _ | ⟨range, _ | ⟨third, rest⟩⟩⟩ <;> simp
      | tuple kind =>
          simp only [TupleTycons.decode, Option.isSome_map, TupleTycons.isSome_elements]

theorem eachApp_of_decompileApp? {node : NodeId} (each : ∀ arg ∈ args, arg.EachApp qualifies)
    (found : rules.decompileApp? tuples store node tycon args nullness = some formed) :
    formed.EachApp qualifies := by
  simp only [decompileApp?] at found
  split at found
  case h_1 => cases found
  case h_2 domain range _ =>
    cases found
    have left := each domain List.mem_cons_self
    have right := each range (List.mem_cons_of_mem _ List.mem_cons_self)
    exact .fn _ _ _ _ left right
  case h_3 => cases found
  case h_4 =>
    rcases Option.map_eq_some_iff.mp found with ⟨flat, elements, rfl⟩
    exact .tuple _ _ _ (TupleTycons.eachApp_of_elements each elements)

theorem eachApp_decompile (each : ty.EachApp qualifies) (node : NodeId) :
    (rules.decompile tuples store node ty).EachApp fun tycon count =>
      qualifies tycon count ∧ rules.forms store tycon count = false := by
  induction each with
  | app old tycon args nullness here _ ih =>
      have parts := List.forall_mem_map.mpr ih
      obtain ⟨held, result⟩ :=
        rules.exists_decompile_app tuples store node old tycon args nullness
      rw [result]
      cases found : rules.decompileApp? tuples store node tycon
          (args.map (rules.decompile tuples store node)) nullness with
      | some formed => exact eachApp_of_decompileApp? parts found
      | none =>
          have formless := decompileApp?_eq_none_iff.mp found
          rw [List.length_map] at formless
          refine .app _ _ _ _ ?_ parts
          rw [List.length_map]
          exact ⟨here, formless⟩
  | fn old domain range nullness _ _ ihDomain ihRange =>
      obtain ⟨held, _, result⟩ := Ty.exists_rewrite_fn (rules.decompileNode tuples store node)
        node old domain range nullness
      rw [decompile, result]
      exact .fn _ _ _ _ ihDomain ihRange
  | tuple old kind elems _ ih =>
      obtain ⟨held, _, result⟩ := Ty.exists_rewrite_tuple (rules.decompileNode tuples store node)
        node old kind elems
      rw [decompile, result]
      exact .tuple _ _ _ (List.forall_mem_map.mpr ih)
  | var old param => exact .var _ _

section SameNode

variable (rules tuples store) (node : NodeId)

theorem decompile_app (tycon : TyconRef) (args : List Ty) (nullness : Nullness) :
    rules.decompile tuples store node (.app node tycon args nullness) =
      (rules.decompileApp? tuples store node tycon
        (args.map (rules.decompile tuples store node)) nullness).getD
          (.app node tycon (args.map (rules.decompile tuples store node)) nullness) :=
  Ty.rewrite_app ..

theorem decompile_fn (domain range : Ty) (nullness : Nullness) :
    rules.decompile tuples store node (.fn node domain range nullness) =
      .fn node (rules.decompile tuples store node domain) (rules.decompile tuples store node range)
        nullness :=
  Ty.rewrite_fn ..

theorem decompile_tuple (kind : TupleKind) (elems : List Ty) :
    rules.decompile tuples store node (.tuple node kind elems) =
      .tuple node kind (elems.map (rules.decompile tuples store node)) :=
  Ty.rewrite_tuple ..

end SameNode

theorem decompileNode_of_formless (node old : NodeId) (tycon : TyconRef) (args : List Ty)
    (nullness : Nullness) (formless : rules.forms store tycon args.length = false) :
    rules.decompileNode tuples store node (.app old tycon args nullness) =
      .app old tycon args nullness := by
  rw [decompileNode, decompileApp?_eq_none_iff.mpr formless, Option.getD_none]

theorem Decompiled.decompile (decompiled : rules.Decompiled store ty) (node : NodeId) :
    rules.decompile tuples store node ty = ty := by
  apply Ty.EachApp.rewrite_eq_self decompiled
  case apps => exact decompileNode_of_formless node
  case others => exact fun _ => decompileNode_of_not_isApp node

end DecompileRules

namespace ImproveRules

variable {rules : ImproveRules} {prims : PrimitiveTypes} {store : UnitStore} {ty : Ty}
  {qualifies : TyconRef → Nat → Prop}

def Improved (rules : ImproveRules) (store : UnitStore) : Ty → Prop :=
  Ty.EachApp fun tycon count => count = 0 → rules.kind? store tycon = none

theorem exists_withNullness (prims : PrimitiveTypes) (node : NodeId) (kind : PrimitiveKind)
    (nullness : Nullness) :
    ∃ held shown, prims.withNullness node kind nullness =
      .app held (prims.constructors.get kind) [] shown := by
  rw [PrimitiveTypes.withNullness]
  split
  · exact ⟨_, _, rfl⟩
  · exact ⟨_, _, rfl⟩

theorem exists_improve_app (rules : ImproveRules) (prims : PrimitiveTypes) (store : UnitStore)
    (node old : NodeId) (tycon : TyconRef) {args : List Ty} (some : args ≠ [])
    (nullness : Nullness) :
    ∃ held, (held = old ∨ held = node) ∧
      rules.improve prims store node (.app old tycon args nullness) =
        .app held tycon (args.map (rules.improve prims store node)) nullness := by
  obtain ⟨held, which, result⟩ := Ty.exists_rewrite_app (rules.improveNode prims store node)
    node old tycon args nullness
  have apart : (Ty.app held tycon (args.map (rules.improve prims store node))
      nullness).isNullaryApp = false := by
    cases args with
    | nil => exact absurd rfl some
    | cons arg rest => rfl
  exact ⟨held, which, result.trans (improveNode_of_not_isNullaryApp node apart)⟩

theorem improve_nullary (rules : ImproveRules) (prims : PrimitiveTypes) (store : UnitStore)
    (node old : NodeId) (tycon : TyconRef) (nullness : Nullness) :
    rules.improve prims store node (.app old tycon [] nullness) =
      ((rules.kind? store tycon).map fun kind => prims.withNullness node kind nullness).getD
        (.app old tycon [] nullness) := by
  rw [improve, Ty.rewrite_eq]
  rfl

section SameNode

variable (rules prims store) (node : NodeId)

theorem improve_app (tycon : TyconRef) {args : List Ty} (some : args ≠ []) (nullness : Nullness) :
    rules.improve prims store node (.app node tycon args nullness) =
      .app node tycon (args.map (rules.improve prims store node)) nullness := by
  rcases rules.exists_improve_app prims store node node tycon some nullness with
    ⟨held, which, result⟩
  rw [result, or_self_iff.mp which]

theorem improve_fn (domain range : Ty) (nullness : Nullness) :
    rules.improve prims store node (.fn node domain range nullness) =
      .fn node (rules.improve prims store node domain) (rules.improve prims store node range)
        nullness :=
  Ty.rewrite_fn ..

theorem improve_tuple (kind : TupleKind) (elems : List Ty) :
    rules.improve prims store node (.tuple node kind elems) =
      .tuple node kind (elems.map (rules.improve prims store node)) :=
  Ty.rewrite_tuple ..

end SameNode

/-- The applications that improving leaves are those that spell no primitive, and the primitives as
the language names them. -/
theorem eachApp_improve (each : ty.EachApp qualifies)
    (language : ∀ kind, qualifies (prims.constructors.get kind) 0)
    (settled : ∀ kind, rules.kind? store (prims.constructors.get kind) = none) (node : NodeId) :
    (rules.improve prims store node ty).EachApp fun tycon count =>
      qualifies tycon count ∧ (count = 0 → rules.kind? store tycon = none) := by
  induction each with
  | app old tycon args nullness here _ ih =>
      cases args with
      | nil =>
          rw [improve_nullary]
          cases spelled : rules.kind? store tycon with
          | none => exact .app _ _ _ _ ⟨here, fun _ => spelled⟩ nofun
          | some kind =>
              obtain ⟨held, shown, result⟩ := exists_withNullness prims node kind nullness
              rw [Option.map_some, Option.getD_some, result]
              exact .app _ _ _ _ ⟨language kind, fun _ => settled kind⟩ nofun
      | cons arg rest =>
          obtain ⟨held, _, result⟩ := rules.exists_improve_app prims store node old tycon
            (List.cons_ne_nil arg rest) nullness
          rw [result]
          refine .app _ _ _ _ ?_ (List.forall_mem_map.mpr ih)
          rw [List.length_map]
          exact ⟨here, nofun⟩
  | fn old domain range nullness _ _ ihDomain ihRange =>
      obtain ⟨held, _, result⟩ := Ty.exists_rewrite_fn (rules.improveNode prims store node) node old
        domain range nullness
      rw [improve, result]
      exact .fn _ _ _ _ ihDomain ihRange
  | tuple old kind elems _ ih =>
      obtain ⟨held, _, result⟩ := Ty.exists_rewrite_tuple (rules.improveNode prims store node) node
        old kind elems
      rw [improve, result]
      exact .tuple _ _ _ (List.forall_mem_map.mpr ih)
  | var old param => exact .var _ _

theorem improveNode_of_unspelled (node old : NodeId) (tycon : TyconRef) (args : List Ty)
    (nullness : Nullness) (unspelled : args.length = 0 → rules.kind? store tycon = none) :
    rules.improveNode prims store node (.app old tycon args nullness) =
      .app old tycon args nullness := by
  cases args with
  | nil =>
      rw [improveNode, improveApp?, unspelled rfl]
      rfl
  | cons arg rest => rfl

theorem improveNode_of_not_isApp (node : NodeId) {ty : Ty} (apart : ty.isApp = false) :
    rules.improveNode prims store node ty = ty := by
  cases ty with
  | app => cases apart
  | fn => rfl
  | tuple => rfl
  | var => rfl

theorem Improved.improve (improved : rules.Improved store ty) (node : NodeId) :
    rules.improve prims store node ty = ty := by
  apply Ty.EachApp.rewrite_eq_self improved
  case apps => exact improveNode_of_unspelled node
  case others => exact fun _ => improveNode_of_not_isApp node

end ImproveRules

end TypeEnv
