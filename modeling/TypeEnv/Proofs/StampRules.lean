import TypeEnv.Canon.StampRules
import TypeEnv.Proofs.TyconIdentity

/-!
Rules that were made once and are read ever after. What is defined later has a stamp of its own,
so the rule of a constructor never changes, and the constructors that have a rule are those that
led to a definition when the rules were made.
-/

namespace TypeEnv.StampRules

variable {ρ : Type} {rules : List (TyconRef × ρ)} {frozen before after store : UnitStore}
  {tycon : TyconRef} {rule : ρ} {stamp : Stamp}

theorem mem_build :
    (stamp, rule) ∈ build store rules ↔
      ∃ tycon, (tycon, rule) ∈ rules ∧ tycon.stamp? store = some stamp := by
  simp only [build, List.mem_filterMap, List.mem_reverse, Option.map_eq_some_iff, Prod.mk.injEq]
  constructor
  · intro built
    rcases built with ⟨⟨tycon, _⟩, listed, _, found, rfl, rfl⟩
    exact ⟨tycon, listed, found⟩
  · intro source
    rcases source with ⟨tycon, listed, found⟩
    exact ⟨(tycon, rule), listed, stamp, found, rfl, rfl⟩

theorem find?_eq_some_iff {table : StampRules ρ} :
    table.find? store tycon = some rule ↔
      ∃ stamp, tycon.stamp? store = some stamp ∧ table.lookup stamp = some rule :=
  Option.bind_eq_some_iff

theorem mem_of_lookup {table : StampRules ρ} (found : table.lookup stamp = some rule) :
    (stamp, rule) ∈ table := by
  rcases List.lookup_eq_some_iff.mp found with ⟨newer, older, rfl, _⟩
  exact List.mem_append_right newer List.mem_cons_self

theorem exists_lookup {table : StampRules ρ} (member : (stamp, rule) ∈ table) :
    ∃ found, table.lookup stamp = some found := by
  rw [← Option.isSome_iff_exists, List.lookup_isSome_iff]
  exact ⟨(stamp, rule), member, beq_self_eq_true stamp⟩

def Agree (rules : List (TyconRef × ρ)) : Prop :=
  ∀ first ∈ rules, ∀ second ∈ rules, first.1.Same second.1 → first.2 = second.2

section Read

variable (wellFormed : frozen.WellFormed) (run : UnitStore.Reaches frozen store)
  (listed : ∀ entry ∈ rules, entry.1.Held frozen) (held : tycon.Held store)

include wellFormed run listed held

theorem exists_of_find? (found : (build frozen rules).find? store tycon = some rule) :
    ∃ entry ∈ rules, entry.1.Same tycon ∧ entry.1.canDeref frozen ∧ entry.2 = rule := by
  rcases find?_eq_some_iff.mp found with ⟨stamp, now, entered⟩
  rcases mem_build.mp (mem_of_lookup entered) with ⟨source, inRules, earlier⟩
  have heldSource := (listed _ inRules).mono run
  have still := TyconRef.stamp?_mono run wellFormed earlier
  have same : source.Same tycon :=
    TyconRef.same_of_stamp? (run.wellFormed wellFormed) heldSource held still now
  exact ⟨(source, rule), inRules, same, TyconRef.canDeref_iff.mpr ⟨stamp, earlier⟩, rfl⟩

theorem isSome_find? {entry : TyconRef × ρ} (member : entry ∈ rules) (same : entry.1.Same tycon)
    (defined : entry.1.canDeref frozen) : ((build frozen rules).find? store tycon).isSome := by
  rcases TyconRef.canDeref_iff.mp defined with ⟨stamp, earlier⟩
  have now : tycon.stamp? store = some stamp := by
    have heldEntry := (listed entry member).mono run
    rw [← same.stamp?_eq (run.wellFormed wellFormed) heldEntry held]
    exact TyconRef.stamp?_mono run wellFormed earlier
  rcases exists_lookup (mem_build.mpr ⟨entry.1, member, earlier⟩) with ⟨rule, found⟩
  rw [find?_eq_some_iff.mpr ⟨stamp, now, found⟩]
  rfl

theorem isSome_find?_iff :
    ((build frozen rules).find? store tycon).isSome ↔
      ∃ entry ∈ rules, entry.1.Same tycon ∧ entry.1.canDeref frozen := by
  constructor
  · intro present
    rcases Option.isSome_iff_exists.mp present with ⟨rule, found⟩
    rcases exists_of_find? wellFormed run listed held found with ⟨entry, member, same, defined, _⟩
    exact ⟨entry, member, same, defined⟩
  · intro source
    rcases source with ⟨entry, member, same, defined⟩
    exact isSome_find? wellFormed run listed held member same defined

theorem find?_of_agree (agree : Agree rules) {entry : TyconRef × ρ} (member : entry ∈ rules)
    (same : entry.1.Same tycon) :
    (build frozen rules).find? store tycon =
      if entry.1.canDeref frozen then some entry.2 else none := by
  by_cases defined : entry.1.canDeref frozen
  · have present := isSome_find? wellFormed run listed held member same defined
    rcases Option.isSome_iff_exists.mp present with ⟨rule, found⟩
    rcases exists_of_find? wellFormed run listed held found with ⟨other, inRules, sameOther, _, rfl⟩
    rw [if_pos defined, found, agree other inRules entry member (sameOther.trans same.symm)]
  · rw [if_neg defined, Option.eq_none_iff_forall_ne_some]
    intro rule found
    rcases exists_of_find? wellFormed run listed held found with
      ⟨other, inRules, sameOther, definedOther, _⟩
    have one : other.1.Same entry.1 := sameOther.trans same.symm
    have both := one.canDeref_iff wellFormed (listed other inRules) (listed entry member)
    exact defined (both.mp definedOther)

/-- Where every listed constructor was defined when the rules were made, looking a constructor up by
its stamp is the same as looking for it in the list. -/
theorem find?_eq_find?_same (agree : Agree rules)
    (defined : ∀ entry ∈ rules, entry.1.canDeref frozen) :
    (build frozen rules).find? store tycon =
      (rules.find? fun entry => entry.1.Same tycon).map Prod.snd := by
  cases compared : rules.find? fun entry => entry.1.Same tycon with
  | some entry =>
      have member := List.mem_of_find?_eq_some compared
      have same : entry.1.Same tycon := by simpa using List.find?_some compared
      rw [find?_of_agree wellFormed run listed held agree member same,
        if_pos (defined entry member), Option.map_some]
  | none =>
      rw [List.find?_eq_none] at compared
      rw [Option.map_none, Option.eq_none_iff_forall_ne_some]
      intro rule found
      rcases exists_of_find? wellFormed run listed held found with ⟨entry, member, same, _, _⟩
      exact compared entry member (decide_eq_true same)

end Read

theorem find?_stable (wellFormed : frozen.WellFormed) (reached : UnitStore.Reaches frozen before)
    (run : UnitStore.Reaches before after) (listed : ∀ entry ∈ rules, entry.1.Held frozen) :
    (build frozen rules).find? after tycon = (build frozen rules).find? before tycon := by
  have wellFormedBefore := reached.wellFormed wellFormed
  cases known : tycon.stamp? before with
  | some stamp =>
      rw [find?, find?, known, TyconRef.stamp?_mono run wellFormedBefore known]
  | none =>
      cases later : tycon.stamp? after with
      | none => rw [find?, find?, known, later]
      | some stamp =>
          rw [find?, find?, known, later, Option.bind_some, Option.bind_none]
          cases found : (build frozen rules).lookup stamp with
          | none => rfl
          | some rule =>
              -- a stamp with a rule is older than the rules, a new stamp is not
              rcases mem_build.mp (mem_of_lookup found) with ⟨source, inRules, earlier⟩
              rcases TyconRef.stamp?_eq_some.mp earlier with ⟨definition, leads, rfl⟩
              have present := TyconRef.mem_of_definition? (listed _ inRules) leads
              have old := wellFormed.order_lt present
              have new := TyconRef.stampCount_le_order_of_stamp? run wellFormedBefore known later
              have grown := reached.stampCount_le
              omega

end TypeEnv.StampRules
