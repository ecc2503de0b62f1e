import TypeEnv.Proofs.Substitution
import TypeEnv.Proofs.TypeParameters

/-!
Folding types. A fold takes the parts of a node from left to right, and what it makes of a part may
depend on those before it. The node stands over the parts as the fold made them, and it keeps its
handle exactly if every part keeps its own, so that sharing never hides a change. A fold that does
nothing of its own gives every type back, and types that are put in one after the other can be put
into each other first.
-/

namespace TypeEnv

namespace Ty

/-- The node of the type over other parts, perhaps under another number. -/
inductive NodeOver : Ty → List Ty → Ty → Prop where
  | app (old node : NodeId) (tycon : TyconRef) (args parts : List Ty) (nullness : Nullness) :
    NodeOver (.app old tycon args nullness) parts (.app node tycon parts nullness)
  | fn (old node : NodeId) (domain range left right : Ty) (nullness : Nullness) :
    NodeOver (.fn old domain range nullness) [left, right] (.fn node left right nullness)
  | tuple (old node : NodeId) (kind : TupleKind) (elems parts : List Ty) :
    NodeOver (.tuple old kind elems) parts (.tuple node kind parts)
  | var (old : NodeId) (param : TyParam) : NodeOver (.var old param) [] (.var old param)

section Rebuild

variable {ty result : Ty} {parts : List Ty} (node : NodeId)

theorem NodeOver.children_eq (stands : ty.NodeOver parts result) : result.children = parts := by
  cases stands <;> rfl

theorem nodeOver_children (ty : Ty) : ty.NodeOver ty.children ty := by
  cases ty with
  | app old tycon args nullness => exact .app old old tycon args args nullness
  | fn old domain range nullness => exact .fn old old domain range domain range nullness
  | tuple old kind elems => exact .tuple old old kind elems elems
  | var old param => exact .var old param

theorem nodeOver_withChildren (count : parts.length = ty.children.length) :
    ty.NodeOver parts (ty.withChildren node parts) := by
  cases ty with
  | app old tycon args nullness => exact .app old node tycon args parts nullness
  | fn old domain range nullness =>
      obtain ⟨left, right, rfl⟩ := List.length_eq_two.mp count
      exact .fn old node domain range left right nullness
  | tuple old kind elems => exact .tuple old node kind elems parts
  | var old param =>
      obtain rfl := List.length_eq_zero_iff.mp count
      exact .var old param

theorem nodeOver_rebuild (count : parts.length = ty.children.length) :
    ty.NodeOver parts (ty.rebuild node parts) := by
  rw [rebuild]
  split
  case isTrue same =>
    rw [same]
    exact nodeOver_children ty
  case isFalse => exact nodeOver_withChildren node count

theorem rebuild_eq_self_iff (count : parts.length = ty.children.length) :
    ty.rebuild node parts = ty ↔ parts = ty.children := by
  constructor
  · intro kept
    calc
      parts = (ty.rebuild node parts).children := (nodeOver_rebuild node count).children_eq.symm
      _ = ty.children := congrArg children kept
  · intro same
    rw [same, rebuild_children]

end Rebuild

section Fold

variable {ε σ : Type} {fold : Ty → EStateM ε σ Ty} {before after : σ} {ty result : Ty}
  {tys parts : List Ty} {node : NodeId}

/-- The fold takes the types from left to right, each in the state that the one before it left. -/
inductive FoldsTo (fold : Ty → EStateM ε σ Ty) : σ → List Ty → List Ty → σ → Prop where
  | nil (state : σ) : FoldsTo fold state [] [] state
  | cons {before middle after : σ} {ty part : Ty} {rest parts : List Ty}
    (first : fold ty before = .ok part middle) (later : FoldsTo fold middle rest parts after) :
    FoldsTo fold before (ty :: rest) (part :: parts) after

theorem FoldsTo.length_eq (folds : FoldsTo fold before tys parts after) :
    parts.length = tys.length := by
  induction folds with
  | nil => rfl
  | cons _ _ ih => rw [List.length_cons, List.length_cons, ih]

theorem mapM_eq_ok_iff :
    tys.mapM fold before = .ok parts after ↔ FoldsTo fold before tys parts after := by
  constructor
  · intro outcome
    induction tys generalizing before parts with
    | nil =>
        cases outcome
        exact .nil _
    | cons ty rest ih =>
        rw [List.mapM_cons] at outcome
        simp only [bind, EStateM.bind] at outcome
        cases first : fold ty before with
        | error failure middle => simp [first] at outcome
        | ok part middle =>
            simp only [first] at outcome
            cases later : rest.mapM fold middle with
            | error failure state => simp [later] at outcome
            | ok others state =>
                simp only [later] at outcome
                cases outcome
                exact .cons first (ih later)
  · intro folds
    induction folds with
    | nil => rfl
    | cons first _ ih =>
        rw [List.mapM_cons]
        simp only [bind, EStateM.bind, first, ih]
        rfl

theorem mapChildrenM_eq_ok_iff :
    mapChildrenM node fold ty before = .ok result after ↔
      ∃ parts, FoldsTo fold before ty.children parts after ∧ result = ty.rebuild node parts := by
  simp only [mapChildrenM, bind, EStateM.bind, ← mapM_eq_ok_iff]
  cases ty.children.mapM fold before with
  | ok parts state => simp [pure, EStateM.pure, eq_comm, and_comm]
  | error failure state => simp

theorem FoldsTo.exists_node (folds : FoldsTo fold before ty.children parts after)
    (node : NodeId) :
    ∃ result, mapChildrenM node fold ty before = .ok result after ∧ ty.NodeOver parts result ∧
      (result = ty ↔ parts = ty.children) := by
  have made : mapChildrenM node fold ty before = .ok (ty.rebuild node parts) after :=
    mapChildrenM_eq_ok_iff.mpr ⟨parts, folds, rfl⟩
  exact ⟨ty.rebuild node parts, made, nodeOver_rebuild node folds.length_eq,
    rebuild_eq_self_iff node folds.length_eq⟩

theorem exists_foldsTo (answers : ∀ ty state, ∃ part next, fold ty state = .ok part next)
    (tys : List Ty) (before : σ) : ∃ parts after, FoldsTo fold before tys parts after := by
  induction tys generalizing before with
  | nil => exact ⟨[], before, .nil before⟩
  | cons ty rest ih =>
      obtain ⟨part, middle, first⟩ := answers ty before
      obtain ⟨parts, after, later⟩ := ih middle
      exact ⟨part :: parts, after, .cons first later⟩

theorem foldsTo_self {state : σ} (given : ∀ ty ∈ tys, fold ty state = .ok ty state) :
    FoldsTo fold state tys tys state := by
  induction tys with
  | nil => exact .nil state
  | cons ty rest ih =>
      rw [List.forall_mem_cons] at given
      exact .cons given.1 (ih given.2)

theorem fold_eq_self
    (plain : ∀ ty state, ∃ node, fold ty state = mapChildrenM node fold ty state) (ty : Ty)
    (state : σ) : fold ty state = .ok ty state := by
  induction ty using children_induction with
  | node ty ih =>
      obtain ⟨node, folded⟩ := plain ty state
      rw [folded, mapChildrenM_eq_ok_iff]
      exact ⟨ty.children, foldsTo_self ih, (rebuild_children node ty).symm⟩

end Fold

theorem pure_rewrite {m : Type → Type} [Monad m] [LawfulMonad m] (node : NodeId) (step : Ty → Ty)
    (ty : Ty) :
    (pure (rewrite node step ty) : m Ty) =
      step <$> mapChildrenM node (fun part => pure (rewrite node step part)) ty := by
  have parts : ty.children.mapM (fun part => (pure (rewrite node step part) : m Ty)) =
      pure (ty.children.map (rewrite node step)) := List.mapM_pure
  rw [mapChildrenM, parts, rewrite_eq]
  simp

theorem rewrite_id (node : NodeId) (ty : Ty) : rewrite node id ty = ty := by
  have plain : ∀ (ty : Ty) (state : Unit), ∃ made,
      (pure (rewrite node id ty) : EStateM Empty Unit Ty) state =
        (mapChildrenM made (fun part => pure (rewrite node id part)) ty :
          EStateM Empty Unit Ty) state := by
    intro ty state
    exact ⟨node, by rw [pure_rewrite, id_map]⟩
  have given := fold_eq_self plain ty ()
  exact (EStateM.Result.ok.inj given).1

/-- On types without node numbers, putting types in twice comes to putting in once what the second
time makes of the first images. -/
theorem subst_subst_bare {images others : List Ty} {ty : Ty}
    (closed : ∀ param ∈ ty.params, param.index < images.length) :
    subst 0 others (subst 0 images ty.bare) = subst 0 (images.map (subst 0 others)) ty.bare := by
  induction ty using Ty.induction with
  | app node tycon args nullness ih =>
      rw [params_app, List.forall_mem_flatMap] at closed
      have parts : ∀ arg ∈ args.map bare, subst 0 others (subst 0 images arg) =
          subst 0 (images.map (subst 0 others)) arg :=
        List.forall_mem_map.mpr fun arg member => ih arg member (closed arg member)
      rw [bare, bares_eq_map, subst_app, subst_app, subst_app, List.map_map]
      exact congrArg (app 0 tycon · nullness) (List.map_congr_left parts)
  | fn node domain range nullness ihDomain ihRange =>
      rw [params_fn, List.forall_mem_append] at closed
      rw [bare, subst_fn, subst_fn, subst_fn, ihDomain closed.1, ihRange closed.2]
  | tuple node kind elems ih =>
      rw [params_tuple, List.forall_mem_flatMap] at closed
      have parts : ∀ elem ∈ elems.map bare, subst 0 others (subst 0 images elem) =
          subst 0 (images.map (subst 0 others)) elem :=
        List.forall_mem_map.mpr fun elem member => ih elem member (closed elem member)
      rw [bare, bares_eq_map, subst_tuple, subst_tuple, subst_tuple, List.map_map]
      exact congrArg (tuple 0 kind) (List.map_congr_left parts)
  | var node param =>
      -- A type parameter without an image would be left to the others, but not on the right.
      have bound : param.index < images.length := closed param (List.mem_singleton_self param)
      rw [bare, subst_var, subst_var, List.getElem?_map, List.getElem?_eq_getElem bound]
      rfl

end Ty

namespace Session

def substTwice (images others : List Ty) (ty : Ty) : SessionM Ty := do
  subst others (← subst images ty)

def substInto (images others : List Ty) (ty : Ty) : SessionM Ty := do
  subst (← images.mapM (subst others)) ty

variable {images : List Ty} {ty : Ty}

def bareSubst (others : List Ty) (ty : Ty) : Ty :=
  Ty.subst 0 (others.map Ty.bare) ty.bare

theorem mapM_subst_ok (session : Session) (images others : List Ty) :
    ∃ parts next, images.mapM (subst others) session = .ok parts next ∧
      parts.map Ty.bare = images.map (bareSubst others) := by
  have served (session : Session) (image : Ty) :
      ∃ part next, subst others image session = .ok part next ∧ KeepsUnits session next ∧
        part.bare = bareSubst others image :=
    ⟨Ty.subst session.nextNode others image, session.tookNode, rfl, keepsUnits_tookNode session,
      Ty.bare_subst session.nextNode others image⟩
  obtain ⟨parts, next, servedAll, _, bareAll⟩ := mapM_query_ok served (fun _ => rfl) session images
  exact ⟨parts, next, servedAll, bareAll⟩

theorem substTwice_alike (session : Session) (others : List Ty)
    (closed : ∀ param ∈ ty.params, param.index < images.length) :
    ∃ twice next once other, substTwice images others ty session = .ok twice next ∧
      substInto images others ty session = .ok once other ∧ twice.Alike once := by
  have servedTwice : substTwice images others ty session =
      .ok (Ty.subst session.tookNode.nextNode others (Ty.subst session.nextNode images ty))
        session.tookNode.tookNode := rfl
  obtain ⟨parts, middle, servedParts, bareParts⟩ := mapM_subst_ok session images others
  have servedOnce : substInto images others ty session =
      .ok (Ty.subst middle.nextNode parts ty) middle.tookNode := by
    simp only [substInto, bind, EStateM.bind, servedParts]
    rfl
  rw [← List.length_map Ty.bare] at closed
  refine ⟨_, _, _, _, servedTwice, servedOnce, Ty.alike_of_bare ?_⟩
  calc
    (Ty.subst session.tookNode.nextNode others (Ty.subst session.nextNode images ty)).bare =
        Ty.subst 0 (others.map Ty.bare) (Ty.subst 0 (images.map Ty.bare) ty.bare) := by
      rw [Ty.bare_subst, Ty.bare_subst]
    _ = Ty.subst 0 ((images.map Ty.bare).map (Ty.subst 0 (others.map Ty.bare))) ty.bare :=
      Ty.subst_subst_bare closed
    _ = Ty.subst 0 (parts.map Ty.bare) ty.bare := by
      rw [List.map_map, bareParts]
      rfl
    _ = (Ty.subst middle.nextNode parts ty).bare := (Ty.bare_subst ..).symm

/-- What a fold makes of a node is the node over what the fold, which may have a state, made of the
parts from left to right. It keeps its handle exactly if each part kept its own, so a fold that does
nothing of its own gives back every handle; and types put in one after the other can be put into each
other first. -/
theorem folds_exact :
    (∀ (ε σ : Type) (fold : Ty → EStateM ε σ Ty) (node : NodeId) (ty : Ty) (before after : σ),
      (∀ result, Ty.mapChildrenM node fold ty before = .ok result after →
        ∃ parts, Ty.FoldsTo fold before ty.children parts after) ∧
      ∀ parts, Ty.FoldsTo fold before ty.children parts after →
        ∃ result, Ty.mapChildrenM node fold ty before = .ok result after ∧
          ty.NodeOver parts result ∧ (result = ty ↔ parts = ty.children)) ∧
    (∀ (ε σ : Type) (fold : Ty → EStateM ε σ Ty) (node : NodeId) (ty : Ty) (before : σ),
      (∀ part state, ∃ image next, fold part state = .ok image next) →
        ∃ result after, Ty.mapChildrenM node fold ty before = .ok result after) ∧
    (∀ (ε σ : Type) (fold : Ty → EStateM ε σ Ty),
      (∀ ty state, ∃ node, fold ty state = Ty.mapChildrenM node fold ty state) →
        ∀ ty state, fold ty state = .ok ty state) ∧
    (∀ (session : Session) (ty : Ty), ∃ next, rewriteNothing ty session = .ok ty next) ∧
    ∀ (session : Session) (images others : List Ty) (ty : Ty),
      (∀ param ∈ ty.params, param.index < images.length) →
        ∃ twice next once other, substTwice images others ty session = .ok twice next ∧
          substInto images others ty session = .ok once other ∧ twice.Alike once := by
  refine ⟨?node, ?answers, ?plain, ?nothing, ?composes⟩
  case node =>
    intro ε σ fold node ty before after
    constructor
    · intro result made
      obtain ⟨parts, folds, _⟩ := Ty.mapChildrenM_eq_ok_iff.mp made
      exact ⟨parts, folds⟩
    · intro parts folds
      exact folds.exists_node node
  case answers =>
    intro ε σ fold node ty before answers
    obtain ⟨parts, after, folds⟩ := Ty.exists_foldsTo answers ty.children before
    exact ⟨_, after, Ty.mapChildrenM_eq_ok_iff.mpr ⟨parts, folds, rfl⟩⟩
  case plain =>
    intro ε σ fold plain ty state
    exact Ty.fold_eq_self plain ty state
  case nothing =>
    intro session ty
    have same : Ty.rewrite session.nextNode id ty = ty := Ty.rewrite_id session.nextNode ty
    exact ⟨session.tookNode, congrArg (EStateM.Result.ok · session.tookNode) same⟩
  case composes =>
    intro session images others ty closed
    exact substTwice_alike session others closed

def replaceSecond (image ty : Ty) : EStateM Empty Nat Ty := do
  let count ← modifyGet fun count => (count, count + 1)
  return if count = 1 then image else ty

/-- A tuple of one handle twice, where a counting fold puts another handle of the same type for the
second; the rewriting that takes no step; and a function type put in for a type parameter that stands
in it, too. -/
theorem folds_exact_counting :
    ∃ (session : Session) (int map copy : Ty), session.Created ∧ int = session.prims.get .int32 ∧
      map = .fn 2 int int .withoutNull ∧ copy = .fn 3 int int .withoutNull ∧
      (∃ result, Ty.mapChildrenM 9 (replaceSecond copy) (.tuple 1 .reference [map, map]) 0 =
          .ok result 2 ∧
        (Ty.tuple 1 .reference [map, map]).NodeOver [map, copy] result ∧
        result ≠ .tuple 1 .reference [map, map]) ∧
      (∃ result count, Ty.mapChildrenM 9 (replaceSecond copy) map 0 = .ok result count) ∧
      (pure (Ty.rewrite 9 id map) : EStateM Empty Nat Ty) 0 = .ok map 0 ∧
      ∃ twice next once other,
        substTwice [.fn 2 (.var 3 ⟨.empty, 0⟩) int .withoutNull] [copy]
          (.tuple 4 .value [.var 3 ⟨.empty, 0⟩, int]) session = .ok twice next ∧
        substInto [.fn 2 (.var 3 ⟨.empty, 0⟩) int .withoutNull] [copy]
          (.tuple 4 .value [.var 3 ⟨.empty, 0⟩, int]) session = .ok once other ∧
        twice.Alike once := by
  have accepted : ({} : Config).validate = .ok () := rfl
  obtain ⟨session, created, _⟩ := exists_created accepted
  obtain ⟨node, answers, plain, _, composes⟩ := folds_exact
  let int := session.prims.get .int32
  let map : Ty := .fn 2 int int .withoutNull
  let copy : Ty := .fn 3 int int .withoutNull
  refine ⟨session, int, map, copy, created, rfl, rfl, rfl, ?second, ?total, ?same, ?within⟩
  case second =>
    have folds : Ty.FoldsTo (replaceSecond copy) 0 [map, map] [map, copy] 2 :=
      .cons rfl (.cons rfl (.nil 2))
    obtain ⟨result, made, stands, kept⟩ :=
      (node Empty Nat (replaceSecond copy) 9 (.tuple 1 .reference [map, map]) 0 2).2 _ folds
    refine ⟨result, made, stands, fun unchanged => ?_⟩
    have others : [copy] = [map] := List.tail_eq_of_cons_eq (kept.mp unchanged)
    simp [copy, map] at others
  case total => exact answers Empty Nat (replaceSecond copy) 9 map 0 fun _ _ => ⟨_, _, rfl⟩
  case same =>
    refine plain Empty Nat (fun ty => pure (Ty.rewrite 9 id ty)) (fun ty state => ⟨9, ?_⟩) map 0
    rw [Ty.pure_rewrite, id_map]
  case within =>
    refine composes session _ _ _ ?_
    rintro param (_ | ⟨_, ⟨⟩⟩)
    exact Nat.zero_lt_one

end Session

end TypeEnv
