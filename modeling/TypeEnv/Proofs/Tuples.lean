import TypeEnv.Proofs.TyconIdentity
import TypeEnv.Tuple

namespace TypeEnv

namespace Table

variable {n : Nat} {α : Type}

theorem length_entries_fin (table : Table (Fin n) α) : table.entries.length = n :=
  table.length_entries.trans List.length_finRange

theorem mem_entries_fin {table : Table (Fin n) α} {value : α} :
    value ∈ table.entries ↔ ∃ place, table.get place = value := by
  constructor
  · intro member
    rcases List.mem_iff_getElem.mp member with ⟨position, bound, rfl⟩
    exact ⟨⟨position, table.length_entries_fin ▸ bound⟩, rfl⟩
  · intro placed
    rcases placed with ⟨place, rfl⟩
    exact List.get_mem ..

theorem counted_eq_ok_iff (table : Table (Fin n) α) {count : Nat} {breach : Breach} {own : α} :
    (if h : 1 ≤ count ∧ count ≤ n then .ok (table.get ⟨count - 1, by omega⟩)
      else Except.error breach) = .ok own ↔
      ∃ place, place.val + 1 = count ∧ table.get place = own := by
  constructor
  · intro found
    split at found
    case isTrue bounds =>
      cases found
      exact ⟨_, Nat.sub_add_cancel bounds.1, rfl⟩
    case isFalse => cases found
  · rintro ⟨place, rfl, rfl⟩
    exact dif_pos ⟨Nat.le_add_left 1 _, place.isLt⟩

theorem findIdx?_same_eq_some_iff {table : Table (Fin n) TyconRef} {tycon : TyconRef}
    (apart : ∀ left right, (table.get left).Same (table.get right) → left = right)
    {position : Nat} :
    table.entries.findIdx? (fun candidate => candidate.Same tycon) = some position ↔
      ∃ place : Fin n, place.val = position ∧ (table.get place).Same tycon := by
  have length := table.length_entries_fin
  simp only [List.findIdx?_eq_some_iff_getElem, decide_eq_true_eq]
  constructor
  · intro first
    rcases first with ⟨bound, same, _⟩
    exact ⟨⟨position, length ▸ bound⟩, rfl, same⟩
  · rintro ⟨place, rfl, same⟩
    have bound : place.val < table.entries.length := length.symm ▸ place.isLt
    refine ⟨bound, same, ?_⟩
    intro position earlier sameEarlier
    have other : position < n := Nat.lt_trans earlier place.isLt
    have one : (⟨position, other⟩ : Fin n) = place :=
      apart ⟨position, other⟩ place (sameEarlier.trans same.symm)
    exact absurd (congrArg Fin.val one) (Nat.ne_of_lt earlier)

end Table

namespace TupleTycons

variable {tuples : TupleTycons} {kind : TupleKind} {made : NodeId}

def Distinct (tuples : TupleTycons) : Prop :=
  ∀ (first second : TupleKind) (left right : Fin maxTuple),
    ((tuples.family first).get left).Same ((tuples.family second).get right) →
      first = second ∧ left = right

theorem arityIn_eq_some_iff {constructors : Table (Fin maxTuple) TyconRef} {tycon : TyconRef}
    (apart : ∀ left right, (constructors.get left).Same (constructors.get right) → left = right)
    {arity : Nat} :
    arityIn constructors tycon = some arity ↔
      ∃ place, place.val + 1 = arity ∧ (constructors.get place).Same tycon := by
  simp only [arityIn, Option.map_eq_some_iff, Table.findIdx?_same_eq_some_iff apart]
  constructor
  · rintro ⟨_, ⟨place, rfl, same⟩, rfl⟩
    exact ⟨place, rfl, same⟩
  · rintro ⟨place, rfl, same⟩
    exact ⟨place.val, ⟨place, rfl, same⟩, rfl⟩

theorem arityIn_eq_none_iff {constructors : Table (Fin maxTuple) TyconRef} {tycon : TyconRef} :
    arityIn constructors tycon = none ↔ ∀ place, ¬ (constructors.get place).Same tycon := by
  simp only [arityIn, Option.map_eq_none_iff, List.findIdx?_eq_none_iff, decide_eq_false_iff_not,
    Table.mem_entries_fin, forall_exists_index, forall_apply_eq_imp_iff]

theorem classify_eq_none_iff {tycon : TyconRef} :
    tuples.classify tycon = none ↔
      ∀ kind place, ¬ ((tuples.family kind).get place).Same tycon := by
  have references : arityIn tuples.references tycon = none ↔
      ∀ place, ¬ (tuples.references.get place).Same tycon := arityIn_eq_none_iff
  have values : arityIn tuples.values tycon = none ↔
      ∀ place, ¬ (tuples.values.get place).Same tycon := arityIn_eq_none_iff
  rw [classify]
  constructor
  · intro unclassified kind
    split at unclassified
    case h_1 => cases unclassified
    case h_2 missing =>
      rw [Option.map_eq_none_iff] at unclassified
      cases kind with
      | reference => exact references.mp missing
      | value => exact values.mp unclassified
  · intro apart
    rw [references.mpr (apart .reference), values.mpr (apart .value)]
    rfl

theorem Distinct.classify_eq_some_iff (distinct : tuples.Distinct) {tycon : TyconRef}
    {arity : Nat} :
    tuples.classify tycon = some (kind, arity) ↔
      ∃ place, place.val + 1 = arity ∧ ((tuples.family kind).get place).Same tycon := by
  have apart : ∀ kind left right, ((tuples.family kind).get left).Same
      ((tuples.family kind).get right) → left = right := by
    intro kind left right same
    exact (distinct kind kind left right same).2
  have references : ∀ arity, arityIn tuples.references tycon = some arity ↔
      ∃ place, place.val + 1 = arity ∧ ((tuples.family .reference).get place).Same tycon :=
    fun _ => arityIn_eq_some_iff (apart .reference)
  have values : ∀ arity, arityIn tuples.values tycon = some arity ↔
      ∃ place, place.val + 1 = arity ∧ ((tuples.family .value).get place).Same tycon :=
    fun _ => arityIn_eq_some_iff (apart .value)
  rw [classify]
  constructor
  · intro classified
    split at classified
    case h_1 found =>
      cases classified
      exact (references arity).mp found
    case h_2 =>
      rcases Option.map_eq_some_iff.mp classified with ⟨_, found, whole⟩
      cases whole
      exact (values arity).mp found
  · rintro ⟨place, rfl, same⟩
    cases kind with
    | reference => rw [(references (place.val + 1)).mpr ⟨place, rfl, same⟩]
    | value =>
        have noReference : arityIn tuples.references tycon = none := by
          rw [arityIn_eq_none_iff]
          intro other sameOther
          exact absurd (distinct .reference .value other place (sameOther.trans same.symm)).1
            (by decide)
        rw [noReference, (values (place.val + 1)).mpr ⟨place, rfl, same⟩, Option.map_some]

theorem Distinct.classify_get (distinct : tuples.Distinct) (kind : TupleKind)
    (place : Fin maxTuple) :
    tuples.classify ((tuples.family kind).get place) = some (kind, place.val + 1) :=
  distinct.classify_eq_some_iff.mpr ⟨place, rfl, TyconRef.same_refl _⟩

def widest (tuples : TupleTycons) (kind : TupleKind) : TyconRef :=
  (tuples.family kind).get (Fin.last 7)

/-- How elements are held by a nominal tuple. -/
inductive Holds (tuples : TupleTycons) (made : NodeId) (kind : TupleKind) :
    List Ty → Ty → Prop where
  | last (elems : List Ty) (place : Fin maxTuple) (length : elems.length = place.val + 1)
    (short : elems.length < maxTuple) :
    Holds tuples made kind elems (.app made ((tuples.family kind).get place) elems .withoutNull)
  | chain (seven rest : List Ty) (nested : Ty) (length : seven.length = 7)
    (tail : Holds tuples made kind rest nested) :
    Holds tuples made kind (seven ++ rest)
      (.app made (tuples.widest kind) (seven ++ [nested]) .withoutNull)

theorem Holds.length_pos {elems : List Ty} {compiled : Ty}
    (holds : tuples.Holds made kind elems compiled) : 0 < elems.length := by
  induction holds with
  | last elems place length short => omega
  | chain seven rest nested length tail ih =>
      rw [List.length_append]
      omega

theorem tycon_succ (tuples : TupleTycons) (kind : TupleKind) (place : Fin maxTuple) :
    tuples.tycon kind (place.val + 1) = .ok ((tuples.family kind).get place) :=
  dif_pos ⟨Nat.le_add_left 1 _, place.isLt⟩

theorem tycon_eq_ok_iff {own : TyconRef} {arity : Nat} :
    tuples.tycon kind arity = .ok own ↔
      ∃ place, place.val + 1 = arity ∧ (tuples.family kind).get place = own :=
  Table.counted_eq_ok_iff (tuples.family kind)

theorem encode_short {elems : List Ty} (some : elems ≠ []) (short : elems.length < maxTuple) :
    tuples.encode made kind elems = (do
      let exact ← tuples.tycon kind elems.length
      return .app made exact elems .withoutNull) := by
  rcases elems with _ | ⟨a, _ | ⟨b, _ | ⟨c, _ | ⟨d, _ | ⟨e, _ | ⟨f, _ | ⟨g, _ | ⟨h, rest⟩⟩⟩⟩⟩⟩⟩⟩
  case nil => exact absurd rfl some
  case cons.cons.cons.cons.cons.cons.cons.cons =>
    simp only [List.length_cons, maxTuple] at short
    omega
  all_goals rfl

theorem encode_chain {seven rest : List Ty} {nested : Ty} (length : seven.length = 7)
    (some : rest ≠ []) (tail : tuples.encode made kind rest = .ok nested) :
    tuples.encode made kind (seven ++ rest) =
      .ok (.app made (tuples.widest kind) (seven ++ [nested]) .withoutNull) := by
  rcases List.exists_cons_of_ne_nil some with ⟨h, others, rfl⟩
  match seven, length with
  | [a, b, c, d, e, f, g], _ =>
      have widest := tuples.tycon_succ kind (Fin.last 7)
      simp only [List.cons_append, List.nil_append, encode, tail]
      exact congrArg (fun found => found >>= fun tycon => _) widest

theorem exists_encode (tuples : TupleTycons) (made : NodeId) (kind : TupleKind) {elems : List Ty}
    (some : elems ≠ []) :
    ∃ compiled, tuples.encode made kind elems = .ok compiled ∧
      tuples.Holds made kind elems compiled := by
  induction size : elems.length using Nat.strongRecOn generalizing elems with
  | ind size ih =>
      subst size
      by_cases short : elems.length < maxTuple
      · have positive : 0 < elems.length := List.length_pos_iff.mpr some
        let place : Fin maxTuple := ⟨elems.length - 1, by omega⟩
        have length : elems.length = place.val + 1 := by
          simp only [place]
          omega
        have encoded : tuples.encode made kind elems =
            .ok (.app made ((tuples.family kind).get place) elems .withoutNull) := by
          rw [encode_short some short, length, tycon_succ]
          rfl
        exact ⟨_, encoded, .last elems place length short⟩
      · have long : maxTuple ≤ elems.length := Nat.le_of_not_lt short
        have restSome : elems.drop 7 ≠ [] := by
          rw [← List.length_pos_iff, List.length_drop]
          simp only [maxTuple] at long
          omega
        have shorter : (elems.drop 7).length < elems.length := by
          rw [List.length_drop]
          simp only [maxTuple] at long
          omega
        have seven : (elems.take 7).length = 7 := by
          rw [List.length_take]
          simp only [maxTuple] at long
          omega
        rcases ih _ shorter restSome rfl with ⟨nested, encodedRest, holdsRest⟩
        have encoded := encode_chain seven restSome encodedRest
        have holds := Holds.chain (elems.take 7) (elems.drop 7) nested seven holdsRest
        rw [List.take_append_drop] at encoded holds
        exact ⟨_, encoded, holds⟩

theorem elements_of_eight {seven : List Ty} (length : seven.length = 7) (slot : Ty) :
    tuples.elements kind (seven ++ [slot]) =
      some (seven ++ (tuples.continuation kind slot).getD [slot]) := by
  match seven, length with
  | [a, b, c, d, e, f, g], _ => rfl

theorem elements_of_length_ne {args : List Ty} (other : args.length ≠ maxTuple) :
    tuples.elements kind args = if 2 ≤ args.length then some args else none := by
  rw [elements.eq_def]
  split
  case h_1 => rfl
  case h_2 => rfl
  case h_3 => exact absurd rfl other
  case h_4 several single _ =>
    match args with
    | [] => exact absurd rfl several
    | [arg] => exact absurd rfl (single arg)
    | first :: second :: rest => exact (if_pos (Nat.le_add_left 2 rest.length)).symm

theorem exists_of_length_eight {args : List Ty} (eight : args.length = maxTuple) :
    ∃ seven slot, seven.length = 7 ∧ args = seven ++ [slot] := by
  have some : args ≠ [] := List.ne_nil_of_length_pos (eight ▸ Nat.zero_lt_succ 7)
  refine ⟨args.dropLast, args.getLast some, ?_, (List.dropLast_concat_getLast some).symm⟩
  rw [List.length_dropLast, eight]
  rfl

theorem elements_of_short {args : List Ty} (several : 2 ≤ args.length)
    (short : args.length < maxTuple) : tuples.elements kind args = some args := by
  rw [elements_of_length_ne (Nat.ne_of_lt short), if_pos several]

/-- The elements are the arguments, of which there are two or more, except that an eighth and last
one gives way to the elements that it adds. -/
theorem cases_of_elements {args flat : List Ty} (found : tuples.elements kind args = some flat) :
    (2 ≤ args.length ∧ flat = args) ∨
      ∃ seven slot, seven.length = 7 ∧ args = seven ++ [slot] ∧
        flat = seven ++ (tuples.continuation kind slot).getD [slot] := by
  by_cases eight : args.length = maxTuple
  · obtain ⟨seven, slot, length, rfl⟩ := exists_of_length_eight eight
    rw [elements_of_eight length] at found
    cases found
    exact Or.inr ⟨seven, slot, length, rfl, rfl⟩
  · rw [elements_of_length_ne eight] at found
    split at found
    case isTrue several =>
      cases found
      exact Or.inl ⟨several, rfl⟩
    case isFalse => cases found

/-- What an application of a constructor of the kind adds when it stands in an eighth argument. -/
theorem Distinct.continuation_app (distinct : tuples.Distinct) (place : Fin maxTuple)
    (node : NodeId) (args : List Ty) (nullness : Nullness) :
    tuples.continuation kind (.app node ((tuples.family kind).get place) args nullness) =
      if place.val = 0 then some args else tuples.elements kind args := by
  rw [continuation, distinct.classify_get]
  simp only [ne_eq, not_true_eq_false, if_false, Nat.add_eq_right]

end TupleTycons

end TypeEnv
