import TypeEnv.Proofs.CompiledTuples

namespace TypeEnv

namespace TupleTycons

variable {tuples : TupleTycons} {kind : TupleKind} {made : NodeId} {elems : List Ty} {compiled : Ty}

/-- One eight-ary node for each seven elements, the first outermost, around the last node. -/
def chain (tuples : TupleTycons) (made : NodeId) (kind : TupleKind) (sevens : List (List Ty))
    (last : Ty) : Ty :=
  sevens.foldr
    (fun seven nested => .app made (tuples.widest kind) (seven ++ [nested]) .withoutNull) last

theorem tycon_widest (tuples : TupleTycons) (kind : TupleKind) :
    tuples.tycon kind maxTuple = .ok (tuples.widest kind) :=
  tuples.tycon_succ kind (Fin.last 7)

theorem Holds.exists_chain (holds : tuples.Holds made kind elems compiled) :
    ∃ sevens last own, elems = sevens.flatten ++ last ∧ (∀ seven ∈ sevens, seven.length = 7) ∧
      1 ≤ last.length ∧ last.length ≤ 7 ∧ tuples.tycon kind last.length = .ok own ∧
      compiled = tuples.chain made kind sevens (.app made own last .withoutNull) := by
  induction holds with
  | last elems place length short =>
      have found := tuples.tycon_succ kind place
      rw [← length] at found
      have positive : 1 ≤ elems.length := by omega
      exact ⟨[], elems, _, rfl, by simp, positive, Nat.le_of_lt_succ short, found, rfl⟩
  | chain seven rest nested length tail ih =>
      obtain ⟨sevens, last, own, rfl, full, positive, short, found, rfl⟩ := ih
      have flattened : seven ++ (sevens.flatten ++ last) = (seven :: sevens).flatten ++ last := by
        simp
      have fullAll : ∀ each ∈ seven :: sevens, each.length = 7 :=
        List.forall_mem_cons.mpr ⟨length, full⟩
      exact ⟨seven :: sevens, last, own, flattened, fullAll, positive, short, found, rfl⟩

theorem length_flatten_of_sevens {sevens : List (List Ty)}
    (full : ∀ seven ∈ sevens, seven.length = 7) : sevens.flatten.length = 7 * sevens.length := by
  have lengths : sevens.map List.length = List.replicate sevens.length 7 :=
    List.eq_replicate_iff.mpr ⟨List.length_map _, List.forall_mem_map.mpr full⟩
  calc
    sevens.flatten.length = (sevens.map List.length).sum := List.length_flatten
    _ = (List.replicate sevens.length 7).sum := by rw [lengths]
    _ = 7 * sevens.length := by rw [List.sum_replicate_nat, Nat.mul_comm]

end TupleTycons

namespace Session

/-- The nominal tuple of any elements but none at all is a chain that depends on their number: of
`n` elements, `(n - 1) / 7` eight-ary nodes hold seven each and the last node holds the others,
under the constructor of as many arguments. Only the empty list has no nominal tuple. -/
theorem mkCompiledTuple_chain (session : Session) (kind : TupleKind) (elems : List Ty) :
    ((∃ failure next, mkCompiledTuple kind elems session = .error failure next) ↔ elems = []) ∧
    mkCompiledTuple kind [] session = .error (.breach .emptyTuple) session.tookNode ∧
    (1 ≤ elems.length → ∃ sevens last own,
      mkCompiledTuple kind elems session =
        .ok (session.tycons.tuples.chain session.nextNode kind sevens
          (.app session.nextNode own last .withoutNull)) session.tookNode ∧
      elems = sevens.flatten ++ last ∧
      sevens.length = (elems.length - 1) / 7 ∧ (∀ seven ∈ sevens, seven.length = 7) ∧
      last.length = elems.length - 7 * ((elems.length - 1) / 7) ∧
      1 ≤ last.length ∧ last.length ≤ 7 ∧
      session.tycons.tuples.tycon kind 8 = .ok (session.tycons.tuples.widest kind) ∧
      session.tycons.tuples.tycon kind last.length = .ok own) := by
  have empty : mkCompiledTuple kind [] session = .error (.breach .emptyTuple) session.tookNode :=
    rfl
  refine ⟨⟨?onlyEmpty, ?fails⟩, empty, ?chain⟩
  case onlyEmpty =>
    rintro ⟨failure, next, failed⟩
    by_contra some
    obtain ⟨compiled, served, _⟩ := mkCompiledTuple_ok session kind some
    cases served.symm.trans failed
  case fails =>
    rintro rfl
    exact ⟨_, _, empty⟩
  case chain =>
    intro positive
    have some : elems ≠ [] := List.ne_nil_of_length_pos positive
    obtain ⟨compiled, served, holds⟩ := mkCompiledTuple_ok session kind some
    obtain ⟨sevens, last, own, rfl, full, atLeast, atMost, found, rfl⟩ := holds.exists_chain
    have total : (sevens.flatten ++ last).length = 7 * sevens.length + last.length := by
      rw [List.length_append, TupleTycons.length_flatten_of_sevens full]
    have count : sevens.length = ((sevens.flatten ++ last).length - 1) / 7 := by omega
    have rest : last.length = (sevens.flatten ++ last).length -
        7 * (((sevens.flatten ++ last).length - 1) / 7) := by omega
    exact ⟨sevens, last, own, served, rfl, count, full, rest, atLeast, atMost,
      TupleTycons.tycon_widest .., found⟩

theorem mkCompiledTuple_chain_fifteen :
    ∃ (session : Session) (elems : List Ty), elems.length = 15 ∧ 1 ≤ elems.length ∧
      ∃ sevens last own,
        mkCompiledTuple .value elems session =
          .ok (session.tycons.tuples.chain session.nextNode .value sevens
            (.app session.nextNode own last .withoutNull)) session.tookNode ∧
        elems = sevens.flatten ++ last ∧ sevens.length = 2 ∧ last.length = 1 ∧
        session.tycons.tuples.tycon .value 1 = .ok own := by
  obtain ⟨session, _⟩ := exists_bootstrap
  let elems : List Ty := (List.range 15).map fun index => .var 0 ⟨.empty, index⟩
  have length : elems.length = 15 := by simp [elems]
  have positive : 1 ≤ elems.length := by omega
  obtain ⟨sevens, last, own, served, parts, count, _, rest, _, _, _, found⟩ :=
    (mkCompiledTuple_chain session .value elems).2.2 positive
  have two : sevens.length = 2 := by omega
  have one : last.length = 1 := by omega
  rw [one] at found
  exact ⟨session, elems, length, positive, sevens, last, own, served, parts, two, one, found⟩

end Session

end TypeEnv
