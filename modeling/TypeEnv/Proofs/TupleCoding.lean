import TypeEnv.Proofs.Applications

/-!
Encoding and decoding of tuples, without going into the elements. Decoding opens the chain that
encoding made and nothing else: the last node of a chain holds elements, so a tuple that is the last
element is not taken for the rest of the chain.
-/

namespace TypeEnv.TupleTycons

variable {tuples : TupleTycons} {kind other : TupleKind} {made otherMade node : NodeId}
  {elems others args flat : List Ty} {compiled otherCompiled : Ty}

section Decode

variable (distinct : tuples.Distinct) (holds : tuples.Holds made kind elems compiled)

include distinct holds

theorem Holds.continuation_eq : tuples.continuation kind compiled = some elems := by
  induction holds with
  | last elems place length short =>
      rw [distinct.continuation_app]
      by_cases single : place.val = 0
      · rw [if_pos single]
      · rw [if_neg single]
        apply elements_of_short
        · omega
        · exact short
  | chain seven rest nested length tail ih =>
      have several : (Fin.last 7).val ≠ 0 := by decide
      rw [widest, distinct.continuation_app, if_neg several, elements_of_eight length, ih]
      rfl

theorem Holds.exists_decode (several : 2 ≤ elems.length) (node : NodeId) :
    ∃ own args, compiled.app? = some (own, args) ∧
      tuples.decode node kind args = some (.tuple node kind elems) := by
  cases holds with
  | last elems place length short =>
      have decoded : tuples.decode node kind elems = some (.tuple node kind elems) := by
        rw [decode, elements_of_short several short]
        rfl
      exact ⟨_, elems, rfl, decoded⟩
  | chain seven rest nested length tail =>
      have decoded : tuples.decode node kind (seven ++ [nested]) =
          some (.tuple node kind (seven ++ rest)) := by
        rw [decode, elements_of_eight length, tail.continuation_eq distinct]
        rfl
      exact ⟨_, seven ++ [nested], rfl, decoded⟩

end Decode

theorem Distinct.of_alike (distinct : tuples.Distinct) {left right : Fin maxTuple}
    {nullness otherNullness : Nullness}
    (alike : (Ty.app made ((tuples.family kind).get left) args nullness).Alike
      (.app otherMade ((tuples.family other).get right) others otherNullness)) :
    kind = other ∧ args.map Ty.shape = others.map Ty.shape := by
  simp only [Ty.Alike, Ty.shape, Ty.shapes_eq_map, Shape.app.injEq] at alike
  obtain ⟨keys, shapes, _⟩ := alike
  have same := (TyconRef.same_iff ..).mpr keys
  exact ⟨(distinct kind other left right same).1, shapes⟩

theorem length_eq_of_shapes (shapes : args.map Ty.shape = others.map Ty.shape) :
    args.length = others.length := by
  simpa using congrArg List.length shapes

theorem Holds.injective (distinct : tuples.Distinct)
    (first : tuples.Holds made kind elems compiled)
    (second : tuples.Holds otherMade other others otherCompiled)
    (alike : compiled.Alike otherCompiled) :
    kind = other ∧ elems.map Ty.shape = others.map Ty.shape := by
  induction first generalizing others otherCompiled with
  | last elems place length short =>
      cases second with
      | last => exact distinct.of_alike alike
      | chain seven rest nested eight =>
          have lengths := length_eq_of_shapes (distinct.of_alike alike).2
          rw [List.length_append, eight, List.length_singleton] at lengths
          simp only [maxTuple] at short
          omega
  | chain seven rest nested eight tail ih =>
      cases second with
      | last others place length short =>
          have lengths := length_eq_of_shapes (distinct.of_alike alike).2
          rw [List.length_append, eight, List.length_singleton] at lengths
          simp only [maxTuple] at short
          omega
      | chain otherSeven otherRest otherNested otherEight otherTail =>
          obtain ⟨kinds, shapes⟩ := distinct.of_alike alike
          rw [List.map_append, List.map_append] at shapes
          have lengths : (seven.map Ty.shape).length = (otherSeven.map Ty.shape).length := by
            rw [List.length_map, List.length_map, eight, otherEight]
          obtain ⟨sevens, lasts⟩ := List.append_inj shapes lengths
          have rests := (ih otherTail (List.singleton_inj.mp lasts)).2
          exact ⟨kinds, by rw [List.map_append, List.map_append, sevens, rests]⟩

theorem holds_of_encode (encoded : tuples.encode made kind elems = .ok compiled) :
    tuples.Holds made kind elems compiled := by
  have some : elems ≠ [] := by
    rintro rfl
    cases encoded
  obtain ⟨result, encodedResult, holds⟩ := exists_encode tuples made kind some
  obtain rfl : result = compiled := Except.ok.inj (encodedResult.symm.trans encoded)
  exact holds

theorem two_le_of_elements (found : tuples.elements kind args = some flat) : 2 ≤ flat.length := by
  rcases cases_of_elements found with ⟨several, rfl⟩ | ⟨seven, slot, length, _, rfl⟩
  · exact several
  · rw [List.length_append]
    omega

/-- With sixteen different constructors, wherever they lead, decoding the arguments of an encoded
tuple gives that tuple back, with the very elements that were encoded; so no two tuples are encoded
alike. Decoding anything else gives a tuple of two or more elements, and fails only for fewer than
two arguments. -/
theorem decode_of_encode (distinct : tuples.Distinct) (made node : NodeId) (kind : TupleKind) :
    (∀ elems : List Ty, 2 ≤ elems.length →
      ∃ compiled own args, tuples.encode made kind elems = .ok compiled ∧
        compiled.app? = some (own, args) ∧
        tuples.decode node kind args = some (.tuple node kind elems)) ∧
    (∀ elems compiled, tuples.encode made kind elems = .ok compiled →
      ∀ otherMade other others otherCompiled,
        tuples.encode otherMade other others = .ok otherCompiled →
        compiled.Alike otherCompiled →
        kind = other ∧ elems.map Ty.shape = others.map Ty.shape) ∧
    (∀ args : List Ty, (tuples.decode node kind args = none ↔ args.length < 2) ∧
      ∀ source, tuples.decode node kind args = some source →
        ∃ flat, source = .tuple node kind flat ∧ 2 ≤ flat.length) := by
  refine ⟨?inverse, ?injective, fun args => ⟨decode_eq_none_iff, ?several⟩⟩
  case inverse =>
    intro elems several
    have some : elems ≠ [] := List.ne_nil_of_length_pos (Nat.lt_of_succ_lt several)
    obtain ⟨compiled, encoded, holds⟩ := exists_encode tuples made kind some
    obtain ⟨own, args, applied, decoded⟩ := holds.exists_decode distinct several node
    exact ⟨compiled, own, args, encoded, applied, decoded⟩
  case injective =>
    intro elems compiled encoded otherMade other others otherCompiled otherEncoded
    exact (holds_of_encode encoded).injective distinct (holds_of_encode otherEncoded)
  case several =>
    intro source decoded
    obtain ⟨flat, found, rfl⟩ := Option.map_eq_some_iff.mp decoded
    exact ⟨flat, rfl, two_le_of_elements found⟩

/-- A tuple of eight whose last element is a nominal pair of the same kind. The constructors of
reference tuples are held as definitions, those of struct tuples were not found. -/
theorem decode_of_encode_nested_pair :
    ∃ (tuples : TupleTycons) (elem pair : Ty), tuples.Distinct ∧
      tuples.encode 1 .value [elem, elem] = .ok pair ∧
      ∃ compiled own args,
        tuples.encode 2 .value [elem, elem, elem, elem, elem, elem, elem, pair] = .ok compiled ∧
        compiled.app? = some (own, args) ∧
        tuples.decode 3 .value args =
          some (.tuple 3 .value [elem, elem, elem, elem, elem, elem, elem, pair]) := by
  let name (place : Fin maxTuple) : Name := .ofParts 0 place.val
  let definition (place : Fin maxTuple) : TypeDef :=
    ⟨⟨place.val⟩, ⟨0⟩, .root, name place, .classType, place.val + 1, .exported, {}⟩
  let tuples : TupleTycons :=
    ⟨.ofFn fun place => .direct (definition place),
      .ofFn fun place => .named (.deferred ⟨.root, name place, ""⟩) .root (name place)⟩
  have names : ∀ left right, name left = name right → left = right := by
    intro left right same
    apply Fin.ext
    apply (Name.ofParts_injective _ _ (congrArg Name.raw same)).2
    all_goals
      simp only [Name.shardCapacity, maxTuple] at *
      omega
  have distinct : tuples.Distinct := by
    intro first second left right same
    rw [TyconRef.same_iff] at same
    cases first <;> cases second <;>
      simp only [tuples, family, Table.get_ofFn, TyconRef.key, TyconRef.Key.mk.injEq] at same
    case reference.reference => exact ⟨rfl, names left right same.2.2⟩
    case reference.value => cases same.1
    case value.reference => cases same.1
    case value.value => exact ⟨rfl, names left right same.2.2⟩
  let elem : Ty := .var 0 ⟨.empty, 0⟩
  obtain ⟨pair, _, _, encodedPair, _, _⟩ :=
    (decode_of_encode distinct 1 3 .value).1 [elem, elem] (by decide)
  obtain ⟨compiled, own, args, encoded, applied, decoded⟩ :=
    (decode_of_encode distinct 2 3 .value).1
      [elem, elem, elem, elem, elem, elem, elem, pair] (by simp)
  exact ⟨tuples, elem, pair, distinct, encodedPair, compiled, own, args, encoded, applied, decoded⟩

end TypeEnv.TupleTycons
