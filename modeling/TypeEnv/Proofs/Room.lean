import TypeEnv.Proofs.Interner
import TypeEnv.Enumerated

/-!
Interning fails only when a shard is full. A computation that interns so many strings at most
gives a value whenever every shard has room for that many.
-/

namespace TypeEnv

namespace Interner

/-- The shard of every string has room for this many more. -/
def Room (interner : Interner) (count : Nat) : Prop :=
  ∀ text : String, (interner.shardOf text).strings.length + count ≤ Name.shardCapacity

def Exhausted (interner : Interner) (full : ShardFull) : Prop :=
  ∃ text, full = ⟨(interner.selector.pick text).val⟩ ∧
    (interner.shardOf text).strings.length = Name.shardCapacity

variable {interner grown : Interner} {text : String} {name : Name}

theorem Room.weaken {more fewer : Nat} (room : interner.Room more) (less : fewer ≤ more) :
    interner.Room fewer := by
  intro text
  have bound := room text
  omega

theorem Room.tryIntern {count : Nat} (room : interner.Room (1 + count))
    (outcome : interner.tryIntern text = .ok (name, grown)) : grown.Room count := by
  cases known : interner.get? text with
  | some earlier =>
      rw [tryIntern_of_get? known] at outcome
      cases outcome
      exact room.weaken (by omega)
  | none =>
      rcases tryIntern_new known outcome with ⟨_, _, rfl⟩
      intro other
      have bound := room other
      rw [shardOf_push]
      split
      case isTrue same =>
        have one : interner.shardOf text = interner.shardOf other := by simp only [shardOf, same]
        rw [Shard.push, List.length_append, List.length_singleton, one]
        omega
      case isFalse => omega

theorem exists_tryIntern (room : interner.Room 1) (text : String) :
    ∃ name grown, interner.tryIntern text = .ok (name, grown) := by
  cases known : interner.get? text with
  | some name => exact ⟨name, interner, tryIntern_of_get? known⟩
  | none =>
      have space : (interner.shardOf text).strings.length < Name.shardCapacity :=
        room text
      exact ⟨_, _, by simp only [Interner.tryIntern, known, if_pos space]; rfl⟩

end Interner

/-- From the state `before` the computation only adds strings, at most `count` to a shard. It fails
only where a shard is full, which it reports. -/
def StopsWhenFull {ε α : Type} (report : ShardFull → ε) (before : Interner) (count : Nat)
    (action : EStateM ε Interner α) : Prop :=
  match action before with
  | .ok _ after => before.Extends after ∧ ∀ extra, before.Room (count + extra) → after.Room extra
  | .error failure after => before.Extends after ∧ ¬ before.Room count ∧
      (before.WellFormed → ∃ full, failure = report full ∧ after.Exhausted full)

section StopsWhenFull

variable {ε α β κ : Type} {report : ShardFull → ε} {before after : Interner}
  {count fewer more : Nat} {action : EStateM ε Interner α} {following : α → EStateM ε Interner β}

theorem stopsWhenFull_pure (value : α) :
    StopsWhenFull report before count (pure value : EStateM ε Interner α) :=
  ⟨.refl before, fun _ room => room.weaken (Nat.le_add_left ..)⟩

theorem stopsWhenFull_get :
    StopsWhenFull report before count (get : EStateM ε Interner Interner) :=
  ⟨.refl before, fun _ room => room.weaken (Nat.le_add_left ..)⟩

theorem StopsWhenFull.weaken (stops : StopsWhenFull report before fewer action)
    (less : fewer ≤ more) : StopsWhenFull report before more action := by
  simp only [StopsWhenFull] at stops ⊢
  cases outcome : action before with
  | ok value after =>
      rw [outcome] at stops
      exact ⟨stops.1, fun extra room => stops.2 extra (room.weaken (by omega))⟩
  | error failure after =>
      rw [outcome] at stops
      exact ⟨stops.1, fun room => stops.2.1 (room.weaken less), stops.2.2⟩

theorem stopsWhenFull_bind {second : Nat} (first : StopsWhenFull report before count action)
    (rest : ∀ value state, action before = .ok value state →
      StopsWhenFull report state second (following value)) :
    StopsWhenFull report before (count + second) (action >>= following) := by
  simp only [StopsWhenFull, bind, EStateM.bind] at first ⊢
  cases start : action before with
  | error failure state =>
      rw [start] at first
      exact ⟨first.1, fun room => first.2.1 (room.weaken (Nat.le_add_right ..)), first.2.2⟩
  | ok value state =>
      rw [start] at first
      have next := rest value state start
      simp only [StopsWhenFull] at next ⊢
      cases finish : following value state with
      | ok result after =>
          rw [finish] at next
          refine ⟨first.1.trans next.1, fun extra room => next.2 extra (first.2 _ ?_)⟩
          rwa [← Nat.add_assoc]
      | error failure after =>
          rw [finish] at next
          refine ⟨first.1.trans next.1, fun room => next.2.1 (first.2 second room), ?_⟩
          exact fun wellFormed => next.2.2 (first.1.wellFormed wellFormed)

theorem StopsWhenFull.bind_free (stops : StopsWhenFull report before count action)
    (rest : ∀ value state, action before = .ok value state →
      StopsWhenFull report state 0 (following value)) :
    StopsWhenFull report before count (action >>= following) :=
  stopsWhenFull_bind stops rest

theorem StopsWhenFull.bind_pure (stops : StopsWhenFull report before count action)
    (give : α → β) :
    StopsWhenFull report before count (action >>= fun value => pure (give value)) :=
  stops.bind_free fun value _ _ => stopsWhenFull_pure (give value)

theorem StopsWhenFull.map (change : α → β) (stops : StopsWhenFull report before count action) :
    StopsWhenFull report before count (change <$> action) := by
  rw [map_eq_pure_bind]
  exact stops.bind_pure change

theorem stopsWhenFull_mapM {items : List β} {entry : β → EStateM ε Interner α}
    (each : ∀ item before, StopsWhenFull report before count (entry item)) (before : Interner) :
    StopsWhenFull report before (items.length * count) (items.mapM entry) := by
  induction items generalizing before with
  | nil =>
      rw [List.mapM_nil]
      exact stopsWhenFull_pure []
  | cons item rest ih =>
      rw [List.mapM_cons, List.length_cons, Nat.succ_mul, Nat.add_comm]
      refine stopsWhenFull_bind (each item before) fun first middle _ => ?_
      exact (ih middle).bind_pure _

theorem stopsWhenFull_collect {entry : κ → EStateM ε Interner α}
    (each : ∀ key before, StopsWhenFull report before count (entry key)) (keys : List κ)
    (before : Interner) :
    StopsWhenFull report before (keys.length * count) (Table.collect entry keys) := by
  induction keys generalizing before with
  | nil => exact stopsWhenFull_pure _
  | cons key rest ih =>
      have whole : StopsWhenFull report before (count + rest.length * count)
          (Table.collect entry (key :: rest)) := by
        refine stopsWhenFull_bind (each key before) fun first middle _ => ?_
        exact (ih middle).bind_pure _
      rw [Nat.add_comm, ← Nat.succ_mul] at whole
      exact whole

theorem stopsWhenFull_ofFnM [Enumerated κ] {entry : κ → EStateM ε Interner α}
    (each : ∀ key before, StopsWhenFull report before count (entry key)) (before : Interner) :
    StopsWhenFull report before ((Enumerated.all : List κ).length * count) (Table.ofFnM entry) :=
  (stopsWhenFull_collect each Enumerated.all before).bind_pure _

theorem StopsWhenFull.extends_of_ok {value : α} (stops : StopsWhenFull report before count action)
    (outcome : action before = .ok value after) : before.Extends after := by
  rw [StopsWhenFull, outcome] at stops
  exact stops.1

theorem StopsWhenFull.ensures (stops : StopsWhenFull report before count action) :
    Ensures before action fun _ after => before.Extends after :=
  fun _ _ outcome => stops.extends_of_ok outcome

theorem StopsWhenFull.of_error {failure : ε} (stops : StopsWhenFull report before count action)
    (outcome : action before = .error failure after) :
    before.Extends after ∧
      (before.WellFormed → ∃ full, failure = report full ∧ after.Exhausted full) := by
  rw [StopsWhenFull, outcome] at stops
  exact ⟨stops.1, stops.2.2⟩

/-- With the room that it may need, the computation gives a value, and what more there was is left. -/
theorem StopsWhenFull.exists_ok {extra : Nat} (stops : StopsWhenFull report before count action)
    (room : before.Room (count + extra)) :
    ∃ value after, action before = .ok value after ∧ after.Room extra := by
  rw [StopsWhenFull] at stops
  cases outcome : action before with
  | ok value after =>
      rw [outcome] at stops
      exact ⟨value, after, rfl, stops.2 extra room⟩
  | error failure after =>
      rw [outcome] at stops
      exact absurd (room.weaken (Nat.le_add_right ..)) stops.2.1

end StopsWhenFull

namespace Interner

variable {before : Interner}

theorem exhausted_of_tryIntern {interner : Interner} {text : String} {full : ShardFull}
    (wellFormed : interner.WellFormed) (refused : interner.tryIntern text = .error full) :
    interner.Exhausted full := by
  rcases wellFormed.tryIntern_eq_error_iff.mp refused with ⟨rfl, _, isFull⟩
  exact ⟨text, rfl, isFull⟩

theorem stops_intern (before : Interner) (text : String) :
    StopsWhenFull id before 1 (intern text) := by
  cases outcome : before.tryIntern text with
  | ok interned =>
      have extended := ensures_intern before text interned.1 interned.2
        (by simp only [intern, outcome])
      simp only [StopsWhenFull, intern, outcome]
      exact ⟨extended.1, fun extra room => room.tryIntern outcome⟩
  | error full =>
      simp only [StopsWhenFull, intern, outcome]
      refine ⟨.refl before, fun room => ?_, fun wellFormed => ?_⟩
      · obtain ⟨name, grown, interned⟩ := exists_tryIntern room text
        cases outcome.symm.trans interned
      · exact ⟨full, rfl, exhausted_of_tryIntern wellFormed outcome⟩

theorem stops_internPath (before : Interner) (dotted : String) :
    StopsWhenFull id before (Dotted.segments dotted).length (internPath dotted) := by
  simp only [internPath]
  split
  case isTrue => exact stopsWhenFull_pure _
  case isFalse =>
    have segments : StopsWhenFull id before ((Dotted.segments dotted).length * 1)
        ((Dotted.segments dotted).mapM intern) :=
      stopsWhenFull_mapM (fun text state => stops_intern state text) before
    exact (segments.bind_pure _).weaken (Nat.le_of_eq (Nat.mul_one _))

def typeNameRoom (full : String) : Nat := (Dotted.segments (Dotted.splitLast full).1).length + 1

theorem stops_internTypeName (before : Interner) (full : String) :
    StopsWhenFull id before (typeNameRoom full) (internTypeName full) := by
  refine stopsWhenFull_bind (stops_internPath before _) fun path withPath _ => ?_
  exact (stops_intern withPath _).bind_pure _

theorem room_blank (selector : ShardSelector) {count : Nat}
    (fits : 1 + count ≤ Name.shardCapacity) : (blank selector).Room count := by
  intro text
  have short : ((blank selector).shardOf text).strings.length ≤ 1 := by
    rw [shardOf, getElem_shards_blank]
    split <;> simp [Shard.push]
  omega

theorem room_fresh (selector : ShardSelector) (count : Nat)
    (fits : prelude.length + 1 + count ≤ Name.shardCapacity) : (fresh selector).Room count := by
  have all : ∀ (texts : List String) (interner : Interner),
      interner.Room (texts.length + count) → (texts.foldl Interner.insert interner).Room count := by
    intro texts
    induction texts with
    | nil => exact fun _ room => room.weaken (by omega)
    | cons text rest ih =>
        intro interner room
        rw [List.length_cons] at room
        apply ih
        obtain ⟨name, grown, outcome⟩ := exists_tryIntern (room.weaken (by omega)) text
        simp only [Interner.insert, outcome]
        exact Room.tryIntern (room.weaken (by omega)) outcome
  exact all prelude _ (room_blank selector (by omega))

end Interner

end TypeEnv
