import Mathlib.Data.List.Forall2
import TypeEnv.Proofs.Room
import TypeEnv.Tycon.WellKnown

/-!
Looking a type up by its name. Host types and types of the standard library are looked up alike: the
names are interned, and then the unit is asked for. They differ in the unit alone.
-/

namespace TypeEnv

/-- The segments that a namespace is interned as: none for the empty text. -/
def Dotted.pathSegments (space : String) : List String :=
  if space.isEmpty then [] else segments space

def UnitRef.ofUnit? (unit? : Option CompilationUnit) (path : NamespacePath) (name : Name)
    (interner : Interner) : UnitRef :=
  match unit? with
  | some unit => .found unit
  | none => .missing path name interner

namespace Interner

variable {interner before after : Interner} {text space simple : String} {path : NamespacePath}
  {name : Name}

structure Locates (interner : Interner) (space simple : String) (path : NamespacePath)
    (name : Name) : Prop where
  path : path.segments.map some = (Dotted.pathSegments space).map interner.get?
  name : interner.get? simple = some name

theorem map_some_eq_iff {texts : List String} {names : List Name} :
    names.map some = texts.map interner.get? ↔
      List.Forall₂ (fun name text => interner.get? text = some name) names texts := by
  rw [← List.forall₂_eq_eq_eq, List.forall₂_map_left_iff, List.forall₂_map_right_iff]
  constructor
  · exact List.Forall₂.imp fun _ _ => Eq.symm
  · exact List.Forall₂.imp fun _ _ => Eq.symm

theorem Grows.names {texts : List String} {names : List Name} (grows : Grows before after)
    (spelled : names.map some = texts.map before.get?) :
    names.map some = texts.map after.get? :=
  map_some_eq_iff.mpr ((map_some_eq_iff.mp spelled).imp fun _ _ => get?_mono grows)

theorem Locates.mono (located : before.Locates space simple path name)
    (grown : before.Grows after) : after.Locates space simple path name :=
  ⟨grown.names located.path, get?_mono grown located.name⟩

theorem ensures_internSpace (before : Interner) (space : String) :
    Ensures before (internPath space) fun path after =>
      before.Extends after ∧
        path.segments.map some = (Dotted.pathSegments space).map after.get? := by
  simp only [internPath, Dotted.pathSegments]
  split
  case isTrue => exact ensures_pure ⟨.refl before, rfl⟩
  case isFalse =>
    refine ensures_bind (ensures_internAll before _) fun names after interned => ?_
    exact ensures_pure interned

theorem intern_of_get? (known : interner.get? text = some name) :
    intern text interner = .ok name interner := by
  simp only [intern, tryIntern_of_get? known]

theorem mapM_intern_of_get? {texts : List String} {names : List Name}
    (known : names.map some = texts.map interner.get?) :
    texts.mapM intern interner = .ok names interner := by
  induction map_some_eq_iff.mp known with
  | nil => rfl
  | cons first rest ih =>
      have others := ih (map_some_eq_iff.mpr rest)
      rw [List.mapM_cons]
      simp only [bind, EStateM.bind, intern_of_get? first, others, pure, EStateM.pure]

theorem internPath_of_known
    (known : path.segments.map some = (Dotted.pathSegments space).map interner.get?) :
    internPath space interner = .ok path interner := by
  simp only [internPath, Dotted.pathSegments] at known ⊢
  split at known
  case isTrue empty =>
    rw [List.map_nil, List.map_eq_nil_iff] at known
    rw [if_pos empty, NamespacePath.root, ← known]
    rfl
  case isFalse filled =>
    rw [if_neg filled]
    simp only [bind, EStateM.bind, mapM_intern_of_get? known, pure, EStateM.pure]

end Interner

namespace TyconScope

def hostUnit? (scope : TyconScope) (path : NamespacePath) (name : Name) : Option CompilationUnit :=
  if scope.compilingStdLib then some scope.localUnit
  else scope.resolver.resolve scope.units path name false

def coreUnit? (scope : TyconScope) : Option CompilationUnit :=
  if scope.compilingStdLib then some scope.localUnit else scope.coreUnit.unit?

def References (space simple : String) (unit? : NamespacePath → Name → Option CompilationUnit)
    (tycon : TyconRef) (interner : Interner) : Prop :=
  ∃ path name, interner.Locates space simple path name ∧
    tycon = .named (.ofUnit? (unit? path name) path name interner) path name

/-- The look-up of a type in the unit that is known for its names. -/
def lookup (unit? : NamespacePath → Name → Option CompilationUnit) (space simple : String) :
    Interning TyconRef := do
  let path ← Interner.internPath space
  let name ← Interner.intern simple
  return .named (.ofUnit? (unit? path name) path name (← get)) path name

theorem host_eq_lookup (scope : TyconScope) (space simple : String) :
    scope.host space simple = lookup scope.hostUnit? space simple := by
  refine bind_congr fun path => bind_congr fun name => ?_
  by_cases compiling : scope.compilingStdLib
  · rw [if_pos compiling, hostUnit?, if_pos compiling]
    rfl
  · rw [if_neg compiling, hostUnit?, if_neg compiling]
    rfl

theorem core_eq_lookup (scope : TyconScope) (space simple : String) :
    scope.core space simple = lookup (fun _ _ => scope.coreUnit?) space simple := by
  refine bind_congr fun path => bind_congr fun name => ?_
  by_cases compiling : scope.compilingStdLib
  · rw [if_pos compiling, coreUnit?, if_pos compiling]
    rfl
  · rw [if_neg compiling, coreUnit?, if_neg compiling]
    cases scope.coreUnit <;> rfl

section Lookup

variable (unit? : NamespacePath → Name → Option CompilationUnit) (before : Interner)
  (space simple : String)

theorem ensures_lookup :
    Ensures before (lookup unit? space simple) fun tycon after =>
      before.Extends after ∧ References space simple unit? tycon after := by
  refine ensures_bind (Interner.ensures_internSpace before space) fun path middle spelled => ?_
  refine ensures_bind (Interner.ensures_intern middle simple) fun name after interned => ?_
  have located : after.Locates space simple path name :=
    ⟨interned.1.toGrows.names spelled.2, interned.2⟩
  refine ensures_bind ensures_get fun interner state read => ?_
  rcases read with ⟨rfl, rfl⟩
  exact ensures_pure ⟨spelled.1.trans interned.1, path, name, located, rfl⟩

theorem stops_lookup :
    StopsWhenFull id before ((Dotted.segments space).length + 1) (lookup unit? space simple) := by
  refine stopsWhenFull_bind (Interner.stops_internPath before space) fun path withPath _ => ?_
  refine (Interner.stops_intern withPath simple).bind_free fun name after _ => ?_
  exact stopsWhenFull_get.bind_pure _

end Lookup

end TyconScope

end TypeEnv
