import Mathlib.Data.List.Nodup
import TypeEnv.Namespace

namespace TypeEnv

/-- If the computation gives a value from the state `before`, then `post` holds of the value and
of the state afterwards. -/
def Ensures {ε σ α : Type} (before : σ) (action : EStateM ε σ α) (post : α → σ → Prop) : Prop :=
  ∀ value after, action before = .ok value after → post value after

section Ensures

variable {ε σ α β : Type} {before : σ} {action : EStateM ε σ α} {post : α → σ → Prop}

theorem ensures_pure {value : α} (holds : post value before) :
    Ensures before (pure value : EStateM ε σ α) post := by
  intro result after outcome
  cases outcome
  exact holds

theorem ensures_true (action : EStateM ε σ α) : Ensures before action fun _ _ => True :=
  fun _ _ _ => trivial

theorem ensures_outcome (action : EStateM ε σ α) :
    Ensures before action fun value after => action before = .ok value after :=
  fun _ _ outcome => outcome

theorem ensures_get :
    Ensures before (get : EStateM ε σ σ) fun value after => value = before ∧ after = before := by
  intro result after outcome
  cases outcome
  exact ⟨rfl, rfl⟩

theorem ensures_bind {following : α → EStateM ε σ β} {middle : α → σ → Prop} {post : β → σ → Prop}
    (first : Ensures before action middle)
    (rest : ∀ value state, middle value state → Ensures state (following value) post) :
    Ensures before (action >>= following) post := by
  intro result after outcome
  simp only [bind, EStateM.bind] at outcome
  cases start : action before with
  | ok value state =>
      rw [start] at outcome
      exact rest value state (first value state start) result after outcome
  | error failure state =>
      rw [start] at outcome
      cases outcome

theorem Ensures.weaken {weaker : α → σ → Prop} (ensured : Ensures before action post)
    (implied : ∀ value after, post value after → weaker value after) :
    Ensures before action weaker := fun value after outcome =>
  implied value after (ensured value after outcome)

end Ensures

namespace Shard

structure WellFormed (shard : Shard) : Prop where
  indexed : ∀ text index, shard.indices.lookup text = some index ↔
    shard.strings[index]? = some text
  fits : shard.strings.length ≤ Name.shardCapacity

structure Grows (before after : Shard) : Prop where
  indices : ∀ text index, before.indices.lookup text = some index →
    after.indices.lookup text = some index
  strings : before.strings <+: after.strings

variable {shard before middle after : Shard} {text other : String} {index : Nat}

theorem Grows.refl (shard : Shard) : Grows shard shard := ⟨fun _ _ => id, List.prefix_rfl⟩

theorem Grows.trans (left : Grows before middle) (right : Grows middle after) :
    Grows before after :=
  ⟨fun text index => right.indices text index ∘ left.indices text index,
    left.strings.trans right.strings⟩

theorem lookup_push (shard : Shard) (text other : String) :
    (shard.push text).indices.lookup other =
      if other = text then some shard.strings.length else shard.indices.lookup other := by
  rw [push, List.lookup_cons]
  by_cases same : other = text
  · rw [if_pos same, same, beq_self_eq_true]
  · rw [if_neg same, beq_eq_false_iff_ne.mpr same]

theorem getElem?_push :
    (shard.push text).strings[index]? = some other ↔
      shard.strings[index]? = some other ∨ index = shard.strings.length ∧ other = text := by
  rw [push, List.getElem?_append]
  split
  case isTrue within => simp [Nat.ne_of_lt within]
  case isFalse beyond =>
    have none : shard.strings[index]? = none := List.getElem?_eq_none (Nat.not_lt.mp beyond)
    rw [List.getElem?_singleton, none]
    split
    case isTrue first =>
      have last : index = shard.strings.length := by omega
      simp [last, eq_comm]
    case isFalse later =>
      have past : index ≠ shard.strings.length := by omega
      simp [past]

theorem grows_push (new : shard.indices.lookup text = none) : Grows shard (shard.push text) := by
  constructor
  case indices =>
    intro other index found
    rw [lookup_push]
    split
    case isTrue same =>
      rw [same, new] at found
      cases found
    case isFalse => exact found
  case strings => exact List.prefix_append ..

theorem WellFormed.push (wellFormed : shard.WellFormed) (new : shard.indices.lookup text = none)
    (room : shard.strings.length < Name.shardCapacity) : (shard.push text).WellFormed := by
  constructor
  case indexed =>
    intro other index
    rw [lookup_push, getElem?_push, ← wellFormed.indexed]
    split
    case isTrue same => simp [same, new, eq_comm]
    case isFalse different => simp [different]
  case fits =>
    rw [Shard.push, List.length_append, List.length_singleton]
    exact room

theorem WellFormed.nodup (wellFormed : shard.WellFormed) : shard.strings.Nodup := by
  rw [List.nodup_iff_getElem?_ne_getElem?]
  intro first second before bound same
  have entry : shard.strings[second]? = some shard.strings[second] := List.getElem?_eq_getElem bound
  have foundFirst := (wellFormed.indexed _ first).mpr (same.trans entry)
  have foundSecond := (wellFormed.indexed _ second).mpr entry
  rw [foundFirst, Option.some.injEq] at foundSecond
  omega

theorem WellFormed.isSome_lookup_iff (wellFormed : shard.WellFormed) :
    (shard.indices.lookup text).isSome ↔ text ∈ shard.strings := by
  simp only [Option.isSome_iff_exists, wellFormed.indexed, List.mem_iff_getElem?]

end Shard

namespace Interner

/-- Every string is in its own shard under its own index, and was counted once. -/
structure WellFormed (interner : Interner) : Prop where
  shards : ∀ shard : Fin Name.shardCount, interner.shards[shard].WellFormed
  placed : ∀ (shard : Fin Name.shardCount) (text : String),
    text ∈ interner.shards[shard].strings → interner.selector.pick text = shard
  count : interner.count = interner.strings.length

/-- Strings were added, each at the end of its shard. -/
structure Grows (before after : Interner) : Prop where
  selector : after.selector = before.selector
  shards : ∀ shard : Fin Name.shardCount, before.shards[shard].Grows after.shards[shard]

inductive Reachable : Interner → Prop where
  | fresh (selector : ShardSelector) : Reachable (fresh selector)
  | insert {interner : Interner} (reached : Reachable interner) (text : String) :
    Reachable (interner.insert text)

variable {interner before middle after grown : Interner} {text first second : String} {name : Name}

theorem Grows.refl (interner : Interner) : Grows interner interner :=
  ⟨rfl, fun _ => .refl _⟩

theorem Grows.trans (left : Grows before middle) (right : Grows middle after) :
    Grows before after :=
  ⟨right.selector.trans left.selector, fun shard => (left.shards shard).trans (right.shards shard)⟩

theorem get?_eq_some_iff :
    interner.get? text = some name ↔
      ∃ index, (interner.shardOf text).indices.lookup text = some index ∧
        Name.ofParts (interner.selector.pick text) index = name :=
  Option.map_eq_some_iff

theorem get?_eq_none_iff :
    interner.get? text = none ↔ (interner.shardOf text).indices.lookup text = none :=
  Option.map_eq_none_iff

theorem get?_mono (grows : Grows before after) (known : before.get? text = some name) :
    after.get? text = some name := by
  rcases get?_eq_some_iff.mp known with ⟨index, found, rfl⟩
  have later := (grows.shards (before.selector.pick text)).indices text index found
  apply get?_eq_some_iff.mpr
  simp only [shardOf, grows.selector]
  exact ⟨index, later, rfl⟩

theorem WellFormed.lookup?_of_get? (wellFormed : interner.WellFormed)
    (known : interner.get? text = some name) : interner.lookup? name = some text := by
  rcases get?_eq_some_iff.mp known with ⟨index, found, rfl⟩
  have shard := wellFormed.shards (interner.selector.pick text)
  have entry := (shard.indexed text index).mp found
  have fits : index < Name.shardCapacity :=
    Nat.lt_of_lt_of_le (List.getElem?_eq_some_iff.mp entry).1 shard.fits
  simp only [lookup?, Name.shard_ofParts _ _ fits, Name.index_ofParts _ _ fits]
  exact entry

theorem WellFormed.text_of_get? (wellFormed : interner.WellFormed)
    (known : interner.get? text = some name) : interner.text name = text := by
  rw [Interner.text, wellFormed.lookup?_of_get? known]
  rfl

theorem WellFormed.lookup?_eq_some_iff (wellFormed : interner.WellFormed) :
    interner.lookup? name = some text ↔ interner.get? text = some name := by
  constructor
  · intro read
    have own : interner.selector.pick text = name.shard :=
      wellFormed.placed name.shard text (List.mem_of_getElem? read)
    have found := ((wellFormed.shards name.shard).indexed text name.index).mpr read
    apply get?_eq_some_iff.mpr
    simp only [shardOf, own]
    exact ⟨name.index, found, name.ofParts_shard_index⟩
  · exact wellFormed.lookup?_of_get?

theorem WellFormed.isSome_get?_iff (wellFormed : interner.WellFormed) :
    (interner.get? text).isSome ↔ text ∈ (interner.shardOf text).strings := by
  rw [get?, Option.isSome_map]
  exact (wellFormed.shards _).isSome_lookup_iff

theorem WellFormed.get?_injective (wellFormed : interner.WellFormed)
    (knownFirst : interner.get? first = some name)
    (knownSecond : interner.get? second = some name) : first = second := by
  have readFirst := wellFormed.lookup?_of_get? knownFirst
  have readSecond := wellFormed.lookup?_of_get? knownSecond
  exact Option.some.inj (readFirst.symm.trans readSecond)

theorem tryIntern_of_get? (known : interner.get? text = some name) :
    interner.tryIntern text = .ok (name, interner) := by
  simp only [tryIntern, known]

theorem tryIntern_new (new : interner.get? text = none)
    (outcome : interner.tryIntern text = .ok (name, grown)) :
    (interner.shardOf text).strings.length < Name.shardCapacity ∧
      name = Name.ofParts (interner.selector.pick text) (interner.shardOf text).strings.length ∧
      grown = interner.push text := by
  simp only [tryIntern, new] at outcome
  split at outcome
  case isTrue room =>
    simp only [Except.ok.injEq, Prod.mk.injEq] at outcome
    exact ⟨room, outcome.1.symm, outcome.2.symm⟩
  case isFalse => cases outcome

theorem getElem_shards_push (interner : Interner) (text : String) (shard : Fin Name.shardCount) :
    (interner.push text).shards[shard] =
      if interner.selector.pick text = shard then (interner.shardOf text).push text
      else interner.shards[shard] := by
  simp only [push, Fin.getElem_fin, Vector.getElem_set, Fin.ext_iff]

theorem shardOf_push (interner : Interner) (text other : String) :
    (interner.push text).shardOf other =
      if interner.selector.pick text = interner.selector.pick other then
        (interner.shardOf text).push text
      else interner.shardOf other :=
  interner.getElem_shards_push text (interner.selector.pick other)

theorem grows_push (new : interner.get? text = none) : Grows interner (interner.push text) := by
  constructor
  case selector => rfl
  case shards =>
    intro shard
    rw [getElem_shards_push]
    split
    case isTrue same =>
      subst same
      exact Shard.grows_push (get?_eq_none_iff.mp new)
    case isFalse => exact .refl _

theorem get?_push (interner : Interner) (text : String) :
    (interner.push text).get? text =
      some (Name.ofParts (interner.selector.pick text) (interner.shardOf text).strings.length) := by
  rw [get?, shardOf_push, if_pos rfl, Shard.lookup_push, if_pos rfl]
  rfl

theorem length_flatten_set {lists : List (List String)} {index : Nat} (bound : index < lists.length)
    (other : List String) :
    (lists.set index other).flatten.length + lists[index].length =
      lists.flatten.length + other.length := by
  induction lists generalizing index with
  | nil => cases bound
  | cons list rest ih =>
      cases index with
      | zero =>
          simp only [List.set_cons_zero, List.flatten_cons, List.length_append,
            List.getElem_cons_zero]
          omega
      | succ index =>
          have inner := ih (Nat.lt_of_succ_lt_succ bound)
          simp only [List.set_cons_succ, List.flatten_cons, List.length_append,
            List.getElem_cons_succ]
          omega

theorem length_strings_push (interner : Interner) (text : String) :
    (interner.push text).strings.length = interner.strings.length + 1 := by
  have bound : (interner.selector.pick text).val <
      (interner.shards.toList.map Shard.strings).length := by
    rw [List.length_map, Vector.length_toList]
    exact (interner.selector.pick text).isLt
  have whole := length_flatten_set bound ((interner.shardOf text).push text).strings
  have held : (interner.shards.toList.map Shard.strings)[(interner.selector.pick text).val] =
      (interner.shardOf text).strings := by
    rw [List.getElem_map, Vector.getElem_toList]
    rfl
  rw [held, Shard.push, List.length_append, List.length_singleton] at whole
  rw [strings, push, Vector.toList_set, List.map_set, strings, Shard.push]
  omega

theorem WellFormed.push (wellFormed : interner.WellFormed) (new : interner.get? text = none)
    (room : (interner.shardOf text).strings.length < Name.shardCapacity) :
    (interner.push text).WellFormed := by
  constructor
  case shards =>
    intro shard
    rw [getElem_shards_push]
    split
    · exact (wellFormed.shards _).push (get?_eq_none_iff.mp new) room
    · exact wellFormed.shards shard
  case placed =>
    intro shard member present
    rw [getElem_shards_push] at present
    split at present
    case isTrue same =>
      rcases List.mem_append.mp present with old | added
      · exact (wellFormed.placed _ member old).trans same
      · rw [List.mem_singleton.mp added]
        exact same
    case isFalse => exact wellFormed.placed shard member present
  case count => rw [length_strings_push, ← wellFormed.count, Interner.push]

theorem tryIntern_grows (outcome : interner.tryIntern text = .ok (name, grown)) :
    Grows interner grown := by
  cases known : interner.get? text with
  | some earlier =>
      rw [tryIntern_of_get? known] at outcome
      cases outcome
      exact .refl interner
  | none =>
      rcases tryIntern_new known outcome with ⟨_, _, rfl⟩
      exact grows_push known

theorem get?_of_tryIntern (outcome : interner.tryIntern text = .ok (name, grown)) :
    grown.get? text = some name := by
  cases known : interner.get? text with
  | some earlier =>
      rw [tryIntern_of_get? known] at outcome
      cases outcome
      exact known
  | none =>
      rcases tryIntern_new known outcome with ⟨_, rfl, rfl⟩
      exact interner.get?_push text

theorem WellFormed.tryIntern (wellFormed : interner.WellFormed)
    (outcome : interner.tryIntern text = .ok (name, grown)) : grown.WellFormed := by
  cases known : interner.get? text with
  | some earlier =>
      rw [tryIntern_of_get? known] at outcome
      cases outcome
      exact wellFormed
  | none =>
      rcases tryIntern_new known outcome with ⟨room, _, rfl⟩
      exact wellFormed.push known room

theorem WellFormed.insert (wellFormed : interner.WellFormed) (text : String) :
    (interner.insert text).WellFormed := by
  simp only [Interner.insert]
  split
  case h_1 interned => exact wellFormed.tryIntern interned
  case h_2 => exact wellFormed

theorem WellFormed.tryIntern_eq_error_iff (wellFormed : interner.WellFormed) {full : ShardFull} :
    interner.tryIntern text = .error full ↔
      full = ⟨(interner.selector.pick text).val⟩ ∧ interner.get? text = none ∧
        (interner.shardOf text).strings.length = Name.shardCapacity := by
  have fits : (interner.shardOf text).strings.length ≤ Name.shardCapacity :=
    (wellFormed.shards _).fits
  cases known : interner.get? text with
  | some name => simp [Interner.tryIntern, known]
  | none =>
      simp only [Interner.tryIntern, known]
      split
      case isTrue room =>
        have notFull : (interner.shardOf text).strings.length ≠ Name.shardCapacity :=
          Nat.ne_of_lt room
        simp [notFull]
      case isFalse noRoom =>
        have isFull : (interner.shardOf text).strings.length = Name.shardCapacity := by omega
        simp [isFull, eq_comm]

theorem getElem_shards_blank (selector : ShardSelector) (shard : Fin Name.shardCount) :
    (blank selector).shards[shard] = if shard = 0 then ({} : Shard).push "" else {} := by
  simp only [blank, Fin.getElem_fin, Vector.getElem_set, Vector.getElem_replicate, Fin.ext_iff,
    Fin.val_zero, eq_comm]

theorem wellFormed_blank (selector : ShardSelector) : (blank selector).WellFormed := by
  have none : ({} : Shard).WellFormed := by
    constructor
    case indexed => simp
    case fits => exact Nat.zero_le _
  constructor
  case shards =>
    intro shard
    rw [getElem_shards_blank]
    split
    · exact none.push rfl (by decide)
    · exact none
  case placed =>
    intro shard text present
    rw [getElem_shards_blank] at present
    split at present
    case isTrue first =>
      rw [List.mem_singleton.mp present, first]
      exact selector.pick_empty
    case isFalse => cases present
  case count => rfl

theorem wellFormed_fresh (selector : ShardSelector) : (fresh selector).WellFormed := by
  have all : ∀ (texts : List String) (interner : Interner), interner.WellFormed →
      (texts.foldl Interner.insert interner).WellFormed := by
    intro texts
    induction texts with
    | nil => exact fun _ wellFormed => wellFormed
    | cons text rest ih => exact fun _ wellFormed => ih _ (wellFormed.insert text)
  exact all prelude _ (wellFormed_blank selector)

/-- Strings were added and the interner is still well-formed if it was. -/
structure Extends (before after : Interner) : Prop extends Grows before after where
  wellFormed : before.WellFormed → after.WellFormed

theorem Extends.refl (interner : Interner) : Extends interner interner :=
  ⟨.refl interner, id⟩

theorem Extends.trans (left : Extends before middle) (right : Extends middle after) :
    Extends before after :=
  ⟨left.toGrows.trans right.toGrows, right.wellFormed ∘ left.wellFormed⟩

theorem ensures_intern (before : Interner) (text : String) :
    Ensures before (intern text) fun name after =>
      before.Extends after ∧ after.get? text = some name := by
  intro name after outcome
  simp only [intern] at outcome
  split at outcome
  case h_1 _ grown interned =>
    cases outcome
    exact ⟨⟨tryIntern_grows interned, fun wellFormed => wellFormed.tryIntern interned⟩,
      get?_of_tryIntern interned⟩
  case h_2 => cases outcome

theorem ensures_internAll (before : Interner) (texts : List String) :
    Ensures before (texts.mapM intern) fun names after =>
      before.Extends after ∧ names.map some = texts.map after.get? := by
  induction texts generalizing before with
  | nil =>
      rw [List.mapM_nil]
      exact ensures_pure ⟨.refl before, rfl⟩
  | cons text rest ih =>
      rw [List.mapM_cons]
      refine ensures_bind (ensures_intern before text) fun name middle interned => ?_
      refine ensures_bind (ih middle) fun names after others => ?_
      have first := get?_mono others.1.toGrows interned.2
      apply ensures_pure
      constructor
      · exact interned.1.trans others.1
      · rw [List.map_cons, List.map_cons, others.2, first]

theorem Reachable.wellFormed (reached : interner.Reachable) : interner.WellFormed := by
  induction reached with
  | fresh selector => exact wellFormed_fresh selector
  | insert _ text ih => exact ih.insert text

end Interner

end TypeEnv
