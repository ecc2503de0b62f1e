import TypeEnv.Proofs.Canonicalization

/-!
Nominal tuples come back as source tuples. Decompiling goes from the leaves up, so the
continuation of a chain is decompiled before the node that holds it; whether it has become a
source tuple by then or has stayed nominal, its elements are found again. Only the rule of the
outermost constructor decides whether a source tuple comes out.
-/

namespace TypeEnv

theorem Ty.exists_rebuild_app (node old : NodeId) (tycon : TyconRef) (args : List Ty)
    (nullness : Nullness) (parts : List Ty) :
    ∃ held, (Ty.app old tycon args nullness).rebuild node parts =
      .app held tycon parts nullness := by
  rw [Ty.rebuild]
  by_cases same : parts = (Ty.app old tycon args nullness).children
  · rw [if_pos same, same]
    exact ⟨old, rfl⟩
  · rw [if_neg same]
    exact ⟨node, rfl⟩

namespace TupleTycons

def outermostPlace (count : Nat) : Fin maxTuple :=
  ⟨min (count - 1) 7, Nat.lt_of_le_of_lt (Nat.min_le_right ..) (by decide)⟩

def outermost (tuples : TupleTycons) (kind : TupleKind) (count : Nat) : TyconRef :=
  (tuples.family kind).get (outermostPlace count)

theorem outermostPlace_eq {count : Nat} {place : Fin maxTuple}
    (same : place.val = min (count - 1) 7) : outermostPlace count = place :=
  Fin.ext same.symm

end TupleTycons

namespace DecompileRules

variable {rules : DecompileRules} {tuples : TupleTycons} {store : UnitStore}
  {node made old : NodeId} {kind : TupleKind} {elems args flat : List Ty} {compiled : Ty}
  {place : Fin maxTuple} {nullness : Nullness}

/-- The constructors of the kind that have a rule are tuples of that kind. -/
def ReadsTuples (rules : DecompileRules) (tuples : TupleTycons) (store : UnitStore)
    (kind : TupleKind) : Prop :=
  ∀ place rule, rules.rule? store ((tuples.family kind).get place) = some rule → rule = .tuple kind

theorem exists_decompile_app (rules : DecompileRules) (tuples : TupleTycons) (store : UnitStore)
    (node old : NodeId) (tycon : TyconRef) (args : List Ty) (nullness : Nullness) :
    ∃ held, rules.decompile tuples store node (.app old tycon args nullness) =
      (rules.decompileApp? tuples store node tycon
        (args.map (rules.decompile tuples store node)) nullness).getD
          (.app held tycon (args.map (rules.decompile tuples store node)) nullness) := by
  let parts := args.map (rules.decompile tuples store node)
  obtain ⟨held, rebuilt⟩ := Ty.exists_rebuild_app node old tycon args nullness parts
  have unfolded : rules.decompile tuples store node (.app old tycon args nullness) =
      rules.decompileNode tuples store node ((Ty.app old tycon args nullness).rebuild node parts) :=
    Ty.rewrite_eq ..
  exact ⟨held, by rw [unfolded, rebuilt, decompileNode]⟩

theorem exists_decompile_of_no_rule (node : NodeId)
    (missing : rules.rule? store ((tuples.family kind).get place) = none) :
    ∃ held, rules.decompile tuples store node
        (.app old ((tuples.family kind).get place) args nullness) =
      .app held ((tuples.family kind).get place) (args.map (rules.decompile tuples store node))
        nullness := by
  have applied := rules.exists_decompile_app tuples store node old
    ((tuples.family kind).get place) args nullness
  simp only [decompileApp?, missing, Option.getD_none] at applied
  exact applied

theorem exists_decompile_of_rule (node : NodeId)
    (ruled : rules.rule? store ((tuples.family kind).get place) = some (.tuple kind)) :
    ∃ held, rules.decompile tuples store node
        (.app old ((tuples.family kind).get place) args nullness) =
      (tuples.decode node kind (args.map (rules.decompile tuples store node))).getD
        (.app held ((tuples.family kind).get place)
          (args.map (rules.decompile tuples store node)) nullness) := by
  have applied := rules.exists_decompile_app tuples store node old
    ((tuples.family kind).get place) args nullness
  simp only [decompileApp?, ruled] at applied
  exact applied

theorem continuation_of_elements (distinct : tuples.Distinct)
    (reads : rules.ReadsTuples tuples store kind) (several : place.val ≠ 0)
    (found : tuples.elements kind (args.map (rules.decompile tuples store node)) = some flat) :
    tuples.continuation kind (rules.decompile tuples store node
      (.app old ((tuples.family kind).get place) args nullness)) = some flat := by
  cases ruled : rules.rule? store ((tuples.family kind).get place) with
  | none =>
      obtain ⟨held, result⟩ := exists_decompile_of_no_rule node ruled
      rw [result, distinct.continuation_app, if_neg several, found]
  | some rule =>
      rw [reads place rule ruled] at ruled
      obtain ⟨held, result⟩ := exists_decompile_of_rule node ruled
      rw [result, TupleTycons.decode, found, Option.map_some, Option.getD_some,
        TupleTycons.continuation, if_pos rfl]

theorem continuation_of_single (distinct : tuples.Distinct)
    (reads : rules.ReadsTuples tuples store kind) (single : place.val = 0) (elem : Ty) :
    tuples.continuation kind (rules.decompile tuples store node
        (.app old ((tuples.family kind).get place) [elem] nullness)) =
      some [rules.decompile tuples store node elem] := by
  cases ruled : rules.rule? store ((tuples.family kind).get place) with
  | none =>
      obtain ⟨held, result⟩ := exists_decompile_of_no_rule node ruled
      rw [result, distinct.continuation_app, if_pos single]
      rfl
  | some rule =>
      rw [reads place rule ruled] at ruled
      obtain ⟨held, result⟩ := exists_decompile_of_rule node ruled
      have none : tuples.decode node kind ([elem].map (rules.decompile tuples store node)) = none :=
        rfl
      rw [result, none, Option.getD_none, distinct.continuation_app, if_pos single]
      rfl

/-- A decompiled chain that continues a tuple has the elements that it was made of. -/
theorem continuation_decompile (distinct : tuples.Distinct)
    (reads : rules.ReadsTuples tuples store kind) (holds : tuples.Holds made kind elems compiled) :
    tuples.continuation kind (rules.decompile tuples store node compiled) =
      some (elems.map (rules.decompile tuples store node)) := by
  induction holds with
  | last elems place length short =>
      by_cases single : place.val = 0
      · rw [single, Nat.zero_add] at length
        rcases List.length_eq_one_iff.mp length with ⟨elem, rfl⟩
        exact continuation_of_single distinct reads single elem
      · apply continuation_of_elements distinct reads single
        apply TupleTycons.elements_of_short
        · rw [List.length_map]
          omega
        · rwa [List.length_map]
  | chain seven rest nested length tail ih =>
      apply continuation_of_elements distinct reads (by decide)
      rw [List.map_append, List.map_singleton, TupleTycons.elements_of_eight, ih, Option.getD_some,
        List.map_append]
      rwa [List.length_map]

theorem elements_of_holds (node : NodeId) (distinct : tuples.Distinct)
    (reads : rules.ReadsTuples tuples store kind) (holds : tuples.Holds made kind elems compiled)
    (several : 2 ≤ elems.length) :
    ∃ args, compiled = .app made (tuples.outermost kind elems.length) args .withoutNull ∧
      tuples.elements kind (args.map (rules.decompile tuples store node)) =
        some (elems.map (rules.decompile tuples store node)) := by
  cases holds with
  | last _ place length short =>
      have same : place.val = min (elems.length - 1) 7 := by
        simp only [maxTuple] at short
        omega
      have outermost : tuples.outermost kind elems.length = (tuples.family kind).get place := by
        rw [TupleTycons.outermost, TupleTycons.outermostPlace_eq same]
      have found : tuples.elements kind (elems.map (rules.decompile tuples store node)) =
          some (elems.map (rules.decompile tuples store node)) := by
        apply TupleTycons.elements_of_short
        · rwa [List.length_map]
        · rwa [List.length_map]
      exact ⟨elems, by rw [outermost], found⟩
  | chain seven rest nested length tail =>
      have more := tail.length_pos
      have same : (Fin.last 7).val = min ((seven ++ rest).length - 1) 7 := by
        rw [List.length_append, Fin.val_last]
        omega
      have outermost : tuples.outermost kind (seven ++ rest).length = tuples.widest kind := by
        rw [TupleTycons.outermost, TupleTycons.outermostPlace_eq same, TupleTycons.widest]
      have found :
          tuples.elements kind ((seven ++ [nested]).map (rules.decompile tuples store node)) =
            some ((seven ++ rest).map (rules.decompile tuples store node)) := by
        rw [List.map_append, List.map_singleton, TupleTycons.elements_of_eight,
          continuation_decompile distinct reads tail, Option.getD_some, List.map_append]
        rwa [List.length_map]
      exact ⟨seven ++ [nested], by rw [outermost], found⟩

/-- With a rule for its outermost constructor, a nominal tuple becomes the source tuple of its
elements. -/
theorem decompile_of_rule (node : NodeId) (distinct : tuples.Distinct)
    (reads : rules.ReadsTuples tuples store kind) (holds : tuples.Holds made kind elems compiled)
    (several : 2 ≤ elems.length)
    (ruled : rules.rule? store (tuples.outermost kind elems.length) = some (.tuple kind)) :
    rules.decompile tuples store node compiled =
      .tuple node kind (elems.map (rules.decompile tuples store node)) := by
  obtain ⟨args, rfl, found⟩ := elements_of_holds node distinct reads holds several
  obtain ⟨held, result⟩ := exists_decompile_of_rule node ruled
  rw [TupleTycons.outermost, result, TupleTycons.decode, found, Option.map_some, Option.getD_some]

theorem exists_decompile_of_missing (node : NodeId) (distinct : tuples.Distinct)
    (reads : rules.ReadsTuples tuples store kind) (holds : tuples.Holds made kind elems compiled)
    (several : 2 ≤ elems.length)
    (missing : rules.rule? store (tuples.outermost kind elems.length) = none) :
    ∃ held args, rules.decompile tuples store node compiled =
      .app held (tuples.outermost kind elems.length) args .withoutNull := by
  obtain ⟨args, rfl, _⟩ := elements_of_holds node distinct reads holds several
  obtain ⟨held, result⟩ := exists_decompile_of_no_rule node missing
  exact ⟨held, _, result⟩

end DecompileRules

namespace Session

variable {start session next : Session} {units : UnitStore} {kind : TupleKind} {elems : List Ty}

/-- The elements decompiled one by one, and their nominal tuple decompiled as a whole. -/
def throughCompiled (kind : TupleKind) (elems : List Ty) : SessionM (List Ty × Ty) := do
  let parts ← elems.mapM decompileTy
  let compiled ← mkCompiledTuple kind elems
  let whole ← decompileTy compiled
  return (parts, whole)

def bareDecompiled (session : Session) (ty : Ty) : Ty :=
  (session.decompileRulesNow.decompile session.tycons.tuples session.units 0 ty).bare

theorem KeepsUnits.bareDecompiled (keeps : KeepsUnits session next) :
    next.bareDecompiled = session.bareDecompiled := by
  funext ty
  rw [Session.bareDecompiled, Session.bareDecompiled, keeps.decompileRules, keeps.tycons,
    keeps.units]

theorem decompileTy_ok (session : Session) (ty : Ty) :
    ∃ result next, decompileTy ty session = .ok result next ∧ KeepsUnits session next ∧
      result.bare = session.bareDecompiled ty := by
  have keeps := keepsUnits_answered session (.decompileTy ty)
  have bareResult : (session.decompiled ty).bare = session.bareDecompiled ty := by
    rw [decompiled, bareDecompiled, DecompileRules.bare_decompile, DecompileRules.bare_decompile]
  exact ⟨_, _, decompileTy_served session ty, keeps, bareResult⟩

theorem mapM_query_ok {query : Ty → SessionM Ty} {image : Session → Ty → Ty}
    (served : ∀ session elem, ∃ part next, query elem session = .ok part next ∧
      KeepsUnits session next ∧ part.bare = image session elem)
    (steady : ∀ {before next : Session}, KeepsUnits before next → image next = image before)
    (session : Session) (elems : List Ty) :
    ∃ parts next, elems.mapM query session = .ok parts next ∧ KeepsUnits session next ∧
      parts.map Ty.bare = elems.map (image session) := by
  induction elems generalizing session with
  | nil => exact ⟨[], session, rfl, .refl session, rfl⟩
  | cons elem rest ih =>
      obtain ⟨first, middle, servedFirst, keeps, bareFirst⟩ := served session elem
      obtain ⟨others, next, servedRest, keepsRest, bareRest⟩ := ih middle
      have servedAll : (elem :: rest).mapM query session = .ok (first :: others) next := by
        rw [List.mapM_cons]
        simp only [bind, EStateM.bind, servedFirst, servedRest]
        rfl
      have bareAll : (first :: others).map Ty.bare = (elem :: rest).map (image session) := by
        rw [List.map_cons, List.map_cons, bareFirst, bareRest, steady keeps]
      exact ⟨first :: others, next, servedAll, keeps.trans keepsRest, bareAll⟩

theorem mapM_decompileTy_ok (session : Session) (elems : List Ty) :
    ∃ parts next, elems.mapM decompileTy session = .ok parts next ∧ KeepsUnits session next ∧
      parts.map Ty.bare = elems.map session.bareDecompiled :=
  mapM_query_ok decompileTy_ok KeepsUnits.bareDecompiled session elems

theorem keepsUnits_tookNode (session : Session) : KeepsUnits session session.tookNode :=
  ⟨⟨rfl, rfl, rfl, rfl, rfl⟩, rfl, rfl, rfl⟩

theorem mkCompiledTuple_ok (session : Session) (kind : TupleKind) (some : elems ≠ []) :
    ∃ compiled, mkCompiledTuple kind elems session = .ok compiled session.tookNode ∧
      session.tycons.tuples.Holds session.nextNode kind elems compiled := by
  rcases session.tycons.tuples.exists_encode session.nextNode kind some with
    ⟨compiled, encoded, holds⟩
  have served : mkCompiledTuple kind elems session = .ok compiled session.tookNode := by
    calc
      mkCompiledTuple kind elems session =
          orBreach (session.tycons.tuples.encode session.nextNode kind elems) session.tookNode :=
        rfl
      _ = orBreach (.ok compiled) session.tookNode := by rw [encoded]
      _ = .ok compiled session.tookNode := rfl
  exact ⟨compiled, served, holds⟩

theorem throughCompiled_ok (session : Session) (kind : TupleKind) (some : elems ≠ []) :
    ∃ parts whole next made compiled,
      throughCompiled kind elems session = .ok (parts, whole) next ∧
        session.tycons.tuples.Holds made kind elems compiled ∧
        parts.map Ty.bare = elems.map session.bareDecompiled ∧
        whole.bare = session.bareDecompiled compiled := by
  obtain ⟨parts, withParts, servedParts, keepsParts, bareParts⟩ := mapM_decompileTy_ok session elems
  obtain ⟨compiled, servedCompiled, holds⟩ := mkCompiledTuple_ok withParts kind some
  obtain ⟨whole, next, servedWhole, _, bareWhole⟩ := decompileTy_ok withParts.tookNode compiled
  have keeps := keepsParts.trans (keepsUnits_tookNode withParts)
  rw [keeps.bareDecompiled] at bareWhole
  rw [keepsParts.tycons] at holds
  have served : throughCompiled kind elems session = .ok (parts, whole) next := by
    simp only [throughCompiled, bind, EStateM.bind, servedParts, servedCompiled, servedWhole]
    rfl
  exact ⟨parts, whole, next, withParts.nextNode, compiled, served, holds, bareParts, bareWhole⟩

theorem Fresh.readsTuples (fresh : start.Fresh)
    (use : FirstUse Request.usesDecompile start session units) (kind : TupleKind) :
    session.decompileRulesNow.ReadsTuples session.tycons.tuples session.units kind :=
  fun _ _ found => fresh.rule?_tuple_eq use found

/-- What comes out is the flat source tuple exactly if the outermost constructor was defined at the
first use of the rules. -/
theorem Fresh.whole_alike_iff (fresh : start.Fresh)
    (use : FirstUse Request.usesDecompile start session units)
    (enabled : kind = .value → session.config.supports .structTuples = true)
    (several : 2 ≤ elems.length) {parts : List Ty} {whole compiled : Ty} {made : NodeId}
    (holds : session.tycons.tuples.Holds made kind elems compiled)
    (bareParts : parts.map Ty.bare = elems.map session.bareDecompiled)
    (bareWhole : whole.bare = session.bareDecompiled compiled) :
    whole.Alike (.tuple 0 kind parts) ↔
      (session.tycons.tuples.outermost kind elems.length).canDeref units := by
  have distinct := (fresh.located_run use.run).distinct_tuples fresh.interner
  have reads := fresh.readsTuples use kind
  have ruled := fresh.rule?_tuple use kind (TupleTycons.outermostPlace elems.length) enabled
  constructor
  · intro alike
    by_contra undefined
    rw [TupleTycons.outermost] at undefined
    rw [if_neg undefined] at ruled
    rcases DecompileRules.exists_decompile_of_missing 0 distinct reads holds several ruled with
      ⟨held, args, result⟩
    rw [bareDecompiled, result] at bareWhole
    have clash := alike.symm.trans (Ty.alike_of_bare bareWhole)
    cases clash
  · intro defined
    rw [TupleTycons.outermost] at defined
    rw [if_pos defined] at ruled
    have result := DecompileRules.decompile_of_rule 0 distinct reads holds several ruled
    apply Ty.alike_of_bare
    rw [bareWhole, bareDecompiled, result, Ty.bare, Ty.bare, Ty.bares_eq_map, Ty.bares_eq_map,
      bareParts, List.map_map]
    rfl

theorem Fresh.throughCompiled_ok (fresh : start.Fresh)
    (use : FirstUse Request.usesDecompile start session units)
    (enabled : kind = .value → session.config.supports .structTuples = true)
    (several : 2 ≤ elems.length) :
    ∃ parts whole next, throughCompiled kind elems session = .ok (parts, whole) next ∧
      (whole.Alike (.tuple 0 kind parts) ↔
        (session.tycons.tuples.outermost kind elems.length).canDeref units) := by
  have some : elems ≠ [] := by
    intro empty
    rw [empty] at several
    exact absurd several (by decide)
  rcases Session.throughCompiled_ok session kind some with
    ⟨parts, whole, next, made, compiled, served, holds, bareParts, bareWhole⟩
  have flat := fresh.whole_alike_iff use enabled several holds bareParts bareWhole
  exact ⟨parts, whole, next, served, flat⟩

def DefinesHere (session : Session) (store : UnitStore) (tycon : TyconRef) : Prop :=
  (store.lookup session.localUnit.id tycon.path tycon.name).isSome

theorem Fresh.tuple_inUnit (fresh : start.Fresh) (bootstrap : start.config.compilingStdLib = true)
    (run : Run start session) (kind : TupleKind) (place : Fin maxTuple) :
    (session.tycons.tuples.family kind).get place =
      .inUnit session.localUnit ((session.tycons.tuples.family kind).get place).path
        ((session.tycons.tuples.family kind).get place).name := by
  rw [run.evolves.localUnit]
  exact ((fresh.located_run run).tuples kind place).bootstrap bootstrap

theorem Fresh.canDeref_tuple_iff (fresh : start.Fresh)
    (bootstrap : start.config.compilingStdLib = true) (run : Run start session)
    (kind : TupleKind) (place : Fin maxTuple) (store : UnitStore) :
    ((session.tycons.tuples.family kind).get place).canDeref store ↔
      session.DefinesHere store ((session.tycons.tuples.family kind).get place) := by
  rw [fresh.tuple_inUnit bootstrap run kind place]
  exact Iff.rfl

theorem Fresh.exists_defined_tuples (fresh : start.Fresh)
    (bootstrap : start.config.compilingStdLib = true) (run : Run start session) :
    ∃ next, QuietRun Request.usesDecompile session next ∧
      ∀ kind place, ((next.tycons.tuples.family kind).get place).canDeref next.units := by
  let entries := fun kind => (session.tycons.tuples.family kind).entries
  have own : ∀ tycon ∈ entries .reference ++ entries .value,
      tycon = .inUnit session.localUnit tycon.path tycon.name := by
    intro tycon member
    rcases List.mem_append.mp member with inKind | inKind
    all_goals
      rcases Table.mem_entries_fin.mp inKind with ⟨place, rfl⟩
      exact fresh.tuple_inUnit bootstrap run _ place
  obtain ⟨next, quiet, defined⟩ := exists_quiet_defining session.localUnit own session
  have silent : QuietRun Request.usesDecompile session next := quiet _ fun _ _ => rfl
  refine ⟨next, silent, ?_⟩
  intro kind place
  have listed : (session.tycons.tuples.family kind).get place ∈
      entries .reference ++ entries .value := by
    cases kind with
    | reference => exact List.mem_append_left _ (Table.mem_entries_fin.mpr ⟨place, rfl⟩)
    | value => exact List.mem_append_right _ (Table.mem_entries_fin.mpr ⟨place, rfl⟩)
  rw [silent.run.evolves.tycons, defined _ (own _ listed)]
  exact Or.inr ⟨_, listed, TyconRef.same_refl _⟩

theorem exists_bootstrap : ∃ start : Session, start.Created ∧
    start.config = { compilingStdLib := true } ∧ start.units.definitions = [] :=
  exists_created (by decide)

/-- Where all eight constructors of a kind were defined at the first use of the rules, and the
language has tuples of the kind, the nominal tuple of two or more elements, whatever they are, is
decompiled to the flat source tuple of the decompiled elements. -/
theorem throughCompiled_flat (created : start.Created)
    (use : FirstUse Request.usesDecompile start session units)
    (defined : ∀ place, ((session.tycons.tuples.family kind).get place).canDeref units)
    (enabled : kind = .value → session.config.supports .structTuples = true)
    (several : 2 ≤ elems.length) :
    ∃ parts whole next, throughCompiled kind elems session = .ok (parts, whole) next ∧
      whole.Alike (.tuple 0 kind parts) := by
  rcases created.fresh.throughCompiled_ok use enabled several with
    ⟨parts, whole, next, served, flat⟩
  exact ⟨parts, whole, next, served, flat.mpr (defined _)⟩

theorem throughCompiled_flat_nine :
    ∃ (start session : Session) (units : UnitStore), start.Created ∧
      FirstUse Request.usesDecompile start session units ∧
      (∀ place, ((session.tycons.tuples.family .value).get place).canDeref units) ∧
      session.config.supports .structTuples = true ∧
      ∃ parts whole next,
        throughCompiled .value (List.replicate 9 (.var 0 ⟨.empty, 0⟩)) session =
          .ok (parts, whole) next ∧ whole.Alike (.tuple 0 .value parts) := by
  obtain ⟨start, created, config, _⟩ := exists_bootstrap
  have bootstrap : start.config.compilingStdLib = true := by rw [config]
  obtain ⟨session, quiet, defined⟩ := created.fresh.exists_defined_tuples bootstrap .refl
  have enabled : session.config.supports .structTuples = true := by
    rw [quiet.run.evolves.config, config]
    decide
  have use : FirstUse Request.usesDecompile start session session.units := .ahead quiet
  exact ⟨start, session, session.units, created, use, defined .value, enabled,
    throughCompiled_flat created use (defined .value) (fun _ => enabled) (by decide)⟩

/-- While the standard library is compiled, a nominal reference tuple is decompiled to the flat
source tuple exactly if its outermost constructor was already defined when a query first used the
rules of decompiling. -/
theorem throughCompiled_flat_iff (created : start.Created)
    (bootstrap : start.config.compilingStdLib = true)
    (use : FirstUse Request.usesDecompile start session units) (several : 2 ≤ elems.length) :
    ∃ parts whole next, throughCompiled .reference elems session = .ok (parts, whole) next ∧
      (whole.Alike (.tuple 0 .reference parts) ↔
        session.DefinesHere units
          (session.tycons.tuples.outermost .reference elems.length)) := by
  have enabled : TupleKind.reference = .value → session.config.supports .structTuples = true :=
    nofun
  rcases created.fresh.throughCompiled_ok use enabled several with
    ⟨parts, whole, next, served, flat⟩
  have here := created.fresh.canDeref_tuple_iff bootstrap use.run .reference
    (TupleTycons.outermostPlace elems.length) units
  exact ⟨parts, whole, next, served, flat.trans here⟩

/-- The pair of a type parameter with itself, when nothing asked before the constructors were
defined. -/
theorem throughCompiled_flat_iff_pair :
    ∃ (start session : Session) (units : UnitStore), start.Created ∧
      start.config.compilingStdLib = true ∧
      FirstUse Request.usesDecompile start session units ∧
      session.DefinesHere units (session.tycons.tuples.outermost .reference 2) ∧
      ∃ parts whole next,
        throughCompiled .reference [.var 0 ⟨.empty, 0⟩, .var 0 ⟨.empty, 0⟩] session =
          .ok (parts, whole) next ∧ whole.Alike (.tuple 0 .reference parts) := by
  obtain ⟨start, created, config, _⟩ := exists_bootstrap
  have bootstrap : start.config.compilingStdLib = true := by rw [config]
  obtain ⟨session, quiet, defined⟩ := created.fresh.exists_defined_tuples bootstrap .refl
  have use : FirstUse Request.usesDecompile start session session.units := .ahead quiet
  have here := (created.fresh.canDeref_tuple_iff bootstrap quiet.run .reference
    (TupleTycons.outermostPlace 2) session.units).mp (defined .reference _)
  have several : 2 ≤ [Ty.var 0 ⟨.empty, 0⟩, Ty.var 0 ⟨.empty, 0⟩].length := Nat.le_refl 2
  rcases throughCompiled_flat_iff created bootstrap use several with
    ⟨parts, whole, next, served, flat⟩
  exact ⟨start, session, session.units, created, bootstrap, use, here, parts, whole, next, served,
    flat.mpr here⟩

/-- A query that comes before the constructors are defined leaves them without rules: a pair stays
nominal although the unit under compilation defines all of them, of both kinds, by then. -/
theorem early_query_keeps_nominal :
    ∃ start session : Session, start.Created ∧ start.config.compilingStdLib = true ∧
      Run start session ∧
      (∀ kind place, session.DefinesHere session.units
        ((session.tycons.tuples.family kind).get place)) ∧
      ∃ parts whole next,
        throughCompiled .reference [.var 0 ⟨.empty, 0⟩, .var 0 ⟨.empty, 0⟩] session =
          .ok (parts, whole) next ∧ ¬ whole.Alike (.tuple 0 .reference parts) := by
  obtain ⟨start, created, config, nothing⟩ := exists_bootstrap
  have bootstrap : start.config.compilingStdLib = true := by rw [config]
  let early : Request := .canonicalize (.decompileTycon (start.tycons.get .func) [] .ambivalent)
  have first : Run start (start.after early.perform) := .single ⟨early, rfl⟩
  obtain ⟨session, quiet, defined⟩ := created.fresh.exists_defined_tuples bootstrap first
  have use : FirstUse Request.usesDecompile start session start.units :=
    .passed .refl early rfl quiet.run
  have enabled : TupleKind.reference = .value → session.config.supports .structTuples = true :=
    nofun
  have several : 2 ≤ [Ty.var 0 ⟨.empty, 0⟩, Ty.var 0 ⟨.empty, 0⟩].length := Nat.le_refl 2
  have here : ∀ kind place, session.DefinesHere session.units
      ((session.tycons.tuples.family kind).get place) := by
    intro kind place
    rw [← created.fresh.canDeref_tuple_iff bootstrap use.run]
    exact defined kind place
  rcases created.fresh.throughCompiled_ok use enabled several with
    ⟨parts, whole, next, served, flat⟩
  have nominal : ¬ whole.Alike (.tuple 0 .reference parts) := by
    intro alike
    have early := (created.fresh.canDeref_tuple_iff bootstrap use.run .reference _ start.units).mp
      (flat.mp alike)
    rw [DefinesHere, UnitStore.lookup_of_undefined nothing] at early
    cases early
  exact ⟨start, session, created, bootstrap, use.run, here, parts, whole, next, served, nominal⟩

end Session

end TypeEnv
