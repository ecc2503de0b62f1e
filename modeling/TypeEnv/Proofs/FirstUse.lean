import TypeEnv.Proofs.CanonRules
import TypeEnv.Proofs.Creation
import TypeEnv.Proofs.SessionRun

namespace TypeEnv

def Request.usesDecompile : Request → Bool
  | .canonicalize query => query.usesDecompile
  | _ => false

def Request.usesImprove : Request → Bool
  | .canonicalize query => query.usesImprove
  | _ => false

namespace Session

abbrev QuietRun (uses : Request → Bool) : Session → Session → Prop :=
  Relation.ReflTransGen fun before next =>
    ∃ request : Request, uses request = false ∧ next = before.after request.perform

/-- The units at the first use in a run to `session`: those before the first request that uses
what is asked about, or those that `session` has if there was none. -/
inductive FirstUse (uses : Request → Bool) (start session : Session) : UnitStore → Prop where
  | ahead (quiet : QuietRun uses start session) : FirstUse uses start session session.units
  | passed {before : Session} (quiet : QuietRun uses start before) (request : Request)
    (use : uses request = true) (since : Run (before.after request.perform) session) :
    FirstUse uses start session before.units

variable {start before next session later : Session} {units store : UnitStore}
  {uses : Request → Bool} {request : Request}

theorem QuietRun.run (quiet : QuietRun uses start session) : Run start session := by
  induction quiet with
  | refl => exact .refl
  | tail _ step ih =>
      rcases step with ⟨request, _, served⟩
      exact ih.tail ⟨request, served⟩

theorem exists_firstUse (uses : Request → Bool) (run : Run start session) :
    ∃ units, FirstUse uses start session units := by
  induction run with
  | refl => exact ⟨_, .ahead .refl⟩
  | tail run step ih =>
      rcases step with ⟨request, rfl⟩
      rcases ih with ⟨units, quiet | ⟨quiet, earlier, use, since⟩⟩
      · by_cases use : uses request = true
        · exact ⟨_, .passed quiet request use .refl⟩
        · exact ⟨_, .ahead (quiet.tail ⟨request, Bool.not_eq_true _ ▸ use, rfl⟩)⟩
      · exact ⟨_, .passed quiet earlier use (since.tail ⟨request, rfl⟩)⟩

theorem FirstUse.run (use : FirstUse uses start session units) : Run start session := by
  cases use with
  | ahead quiet => exact quiet.run
  | passed quiet request _ since => exact (quiet.run.tail ⟨request, rfl⟩).trans since

theorem FirstUse.reaches (use : FirstUse uses start session units) :
    UnitStore.Reaches start.units units ∧ UnitStore.Reaches units session.units := by
  cases use with
  | ahead quiet => exact ⟨quiet.run.evolves.units, .refl⟩
  | passed quiet request _ since =>
      exact ⟨quiet.run.evolves.units, (Run.evolves (since.head ⟨request, rfl⟩)).units⟩

section Pass

variable {ρ : Type} {fixed : Session → Option ρ} {made : Session → UnitStore → ρ} {rules : ρ}

/-- A request that uses the rules of the pass fixes them, made from the units of that moment unless
they were fixed before. No other request touches them. -/
def FixedBy (uses : Request → Bool) (fixed : Session → Option ρ)
    (made : Session → UnitStore → ρ) : Prop :=
  ∀ (request : Request) (session : Session), fixed (session.after request.perform) =
    if uses request then some ((fixed session).getD (made session session.units))
    else fixed session

/-- Only queries have to be looked at: no other request touches rules. -/
theorem fixedBy_of_answered (silent : ∀ request : Request, request.query? = none →
      uses request = false)
    (kept : ∀ {before next}, KeepsRules before next → fixed next = fixed before)
    (answered : ∀ session query, fixed (session.answered query) =
      if uses (.canonicalize query) then some ((fixed session).getD (made session session.units))
      else fixed session) :
    FixedBy uses fixed made := by
  intro request session
  cases request with
  | canonicalize query =>
      rw [after_canonicalize]
      exact answered session query
  | _ =>
      rw [silent _ rfl, if_neg Bool.false_ne_true]
      exact kept ((alters_after _ session).keepsRules rfl)

theorem FixedBy.quiet (pass : FixedBy uses fixed made) (quiet : QuietRun uses start session) :
    fixed session = fixed start := by
  induction quiet with
  | refl => rfl
  | tail _ step ih =>
      rcases step with ⟨request, unused, rfl⟩
      rw [pass request, unused, if_neg Bool.false_ne_true, ih]

theorem FixedBy.kept (pass : FixedBy uses fixed made) (run : Run session later)
    (known : fixed session = some rules) : fixed later = some rules := by
  induction run with
  | refl => exact known
  | tail _ step ih =>
      rcases step with ⟨request, rfl⟩
      rw [pass request, ih, Option.getD_some]
      exact ite_self _

theorem FixedBy.firstUse (pass : FixedBy uses fixed made)
    (context : ∀ before after, SameContext before after → made after = made before)
    (unfixed : fixed start = none) (use : FirstUse uses start session units) :
    (fixed session).getD (made session session.units) = made session units := by
  cases use with
  | ahead quiet => rw [pass.quiet quiet, unfixed, Option.getD_none]
  | @passed before quiet request use since =>
      have first := pass request before
      rw [if_pos use, pass.quiet quiet, unfixed, Option.getD_none] at first
      have whole : Run before session := since.head ⟨request, rfl⟩
      rw [pass.kept since first, Option.getD_some,
        context before session whole.evolves.toSameContext]

theorem fixedBy_decompile : FixedBy Request.usesDecompile Session.decompileRules fun session =>
    DecompileRules.build session.tycons (session.config.supports .structTuples) :=
  fixedBy_of_answered (fun request plain => by cases request <;> trivial)
    KeepsRules.decompileRules decompileRules_answered

theorem fixedBy_improve : FixedBy Request.usesImprove Session.improveRules fun session =>
    ImproveRules.build session.improveStrategy session.tycons :=
  fixedBy_of_answered (fun request plain => by cases request <;> trivial)
    KeepsRules.improveRules improveRules_answered

end Pass

theorem FirstUse.decompileRulesNow (use : FirstUse Request.usesDecompile start session units)
    (unfixed : start.decompileRules = none) :
    session.decompileRulesNow =
      DecompileRules.build session.tycons (session.config.supports .structTuples) units := by
  refine fixedBy_decompile.firstUse (fun before after context => ?_) unfixed use
  rw [context.tycons, context.config]

theorem FirstUse.improveRulesNow (use : FirstUse Request.usesImprove start session units)
    (unfixed : start.improveRules = none) :
    session.improveRulesNow =
      ImproveRules.build session.improveStrategy session.tycons units := by
  refine fixedBy_improve.firstUse (fun before after context => ?_) unfixed use
  rw [improveStrategy, improveStrategy, context.tycons, context.config]

/-- Types of a unit can be defined one after the other, and then these are there and no others are
that were not there before. -/
theorem exists_quiet_defining (unit : CompilationUnit) {tycons : List TyconRef}
    (own : ∀ tycon ∈ tycons, tycon = .inUnit unit tycon.path tycon.name) (session : Session) :
    ∃ next, (∀ uses, (∀ unit spec, uses (.define unit spec) = false) →
        QuietRun uses session next) ∧
      ∀ other : TyconRef, other = .inUnit unit other.path other.name →
        (other.canDeref next.units ↔
          other.canDeref session.units ∨ ∃ tycon ∈ tycons, tycon.Same other) := by
  induction tycons generalizing session with
  | nil =>
      refine ⟨session, fun uses silent => .refl, fun other placed => ?_⟩
      simp only [List.not_mem_nil, false_and, exists_false, or_false]
  | cons tycon rest ih =>
      let spec : TypeSpec := { path := tycon.path, name := tycon.name, kind := .classType }
      let request : Request := .define unit.id spec
      have first (other : TyconRef) (placed : other = .inUnit unit other.path other.name) :
          other.canDeref (session.after request.perform).units ↔
            other.canDeref session.units ∨ tycon.Same other := by
        rw [placed, own tycon List.mem_cons_self, TyconRef.same_inUnit_iff]
        refine (UnitStore.isSome_lookup_define_iff ..).trans (or_congr_right ?_)
        simp only [Prod.mk.injEq, true_and, spec]
      obtain ⟨next, quiet, defined⟩ :=
        ih (fun other member => own other (List.mem_cons_of_mem _ member))
          (session.after request.perform)
      refine ⟨next, fun uses silent => ?_, fun other placed => ?_⟩
      · exact .head ⟨request, silent _ _, rfl⟩ (quiet uses silent)
      · rw [defined other placed, first other placed, or_assoc, List.exists_mem_cons_iff]

end Session

end TypeEnv
