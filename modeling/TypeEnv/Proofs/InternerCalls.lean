import Mathlib.Data.List.Dedup
import TypeEnv.Failure
import TypeEnv.Proofs.Room

namespace TypeEnv

namespace Interner

inductive Call where
  | intern (text : String)
  | tryIntern (text : String)
  | get (text : String)
  | internPath (dotted : String)

def after {α : Type} (interner : Interner) (action : Interning α) : Interner :=
  match action interner with
  | .ok _ grown => grown
  | .error _ grown => grown

/-- The strings that get interned when these are interned in turn, up to one that does not fit. -/
def accepted (interner : Interner) : List String → List String
  | [] => []
  | text :: rest =>
    match interner.tryIntern text with
    | .ok (_, grown) => text :: grown.accepted rest
    | .error _ => []

namespace Call

/-- The interner that the call leaves behind. -/
def leaves (call : Call) (interner : Interner) : Interner :=
  match call with
  | .intern text => interner.after (Interner.intern text)
  | .tryIntern text => interner.insert text
  | .get _ => interner
  | .internPath dotted => interner.after (Interner.internPath dotted)

def interned (call : Call) (interner : Interner) : List String :=
  match call with
  | .intern text => interner.accepted [text]
  | .tryIntern text => interner.accepted [text]
  | .get _ => []
  | .internPath dotted => interner.accepted (if dotted.isEmpty then [] else Dotted.segments dotted)

def names (call : Call) (interner : Interner) : List (String × Name) :=
  match call with
  | .intern text =>
    match Interner.intern text interner with
    | .ok name _ => [(text, name)]
    | .error .. => []
  | .tryIntern text =>
    match interner.tryIntern text with
    | .ok (name, _) => [(text, name)]
    | .error _ => []
  | .get text => ((interner.get? text).map fun name => (text, name)).toList
  | .internPath dotted =>
    match Interner.internPath dotted interner with
    | .ok path _ => (Dotted.segments dotted).zip path.segments
    | .error .. => []

end Call

def afterCalls (interner : Interner) (calls : List Call) : Interner :=
  calls.foldl (fun before call => call.leaves before) interner

def collected {α : Type} (each : Call → Interner → List α) (interner : Interner) :
    List Call → List α
  | [] => []
  | call :: rest => each call interner ++ collected each (call.leaves interner) rest

def reached (selector : ShardSelector) (calls : List Call) : Interner :=
  (fresh selector).afterCalls calls

def internedBy (selector : ShardSelector) (calls : List Call) : List String :=
  "" :: prelude ++ (fresh selector).collected Call.interned calls

def handedOut (selector : ShardSelector) (calls : List Call) : List (String × Name) :=
  (fresh selector).collected Call.names calls

variable {interner grown : Interner} {text : String} {name : Name} {texts : List String}
  {selector : ShardSelector} {calls : List Call}

/-- The strings that the interner holds are those in this list. -/
structure Records (interner : Interner) (texts : List String) : Prop where
  wellFormed : interner.WellFormed
  known : ∀ text, (interner.get? text).isSome ↔ text ∈ texts

theorem isSome_get?_push (wellFormed : interner.WellFormed) (new : interner.get? text = none)
    (room : (interner.shardOf text).strings.length < Name.shardCapacity) (other : String) :
    ((interner.push text).get? other).isSome ↔ (interner.get? other).isSome ∨ other = text := by
  rw [(wellFormed.push new room).isSome_get?_iff, wellFormed.isSome_get?_iff, shardOf_push]
  split
  case isTrue same =>
    have one : interner.shardOf text = interner.shardOf other := by simp only [shardOf, same]
    rw [one, Shard.push, List.mem_append, List.mem_singleton]
  case isFalse different =>
    have apart : other ≠ text := fun same => different (same ▸ rfl)
    rw [or_iff_left apart]

theorem Records.tryIntern (records : interner.Records texts)
    (outcome : interner.tryIntern text = .ok (name, grown)) : grown.Records (texts ++ [text]) := by
  have wellFormed := records.wellFormed
  refine ⟨wellFormed.tryIntern outcome, ?_⟩
  intro other
  rw [List.mem_append, List.mem_singleton, ← records.known]
  cases known : interner.get? text with
  | some earlier =>
      rw [tryIntern_of_get? known] at outcome
      cases outcome
      constructor
      · exact Or.inl
      · rintro (found | rfl)
        · exact found
        · rw [known]
          rfl
  | none =>
      rcases tryIntern_new known outcome with ⟨room, _, rfl⟩
      exact isSome_get?_push wellFormed known room other

theorem insert_of_tryIntern (outcome : interner.tryIntern text = .ok (name, grown)) :
    interner.insert text = grown := by
  simp only [Interner.insert, outcome]

theorem Records.accepted (records : interner.Records texts) (more : List String) :
    ((interner.accepted more).foldl Interner.insert interner).Records
      (texts ++ interner.accepted more) := by
  induction more generalizing interner texts with
  | nil =>
      rw [Interner.accepted, List.append_nil]
      exact records
  | cons text rest ih =>
      rw [Interner.accepted]
      split
      case h_1 name grown outcome =>
        rw [List.foldl_cons, insert_of_tryIntern outcome, List.append_cons]
        exact ih (records.tryIntern outcome)
      case h_2 =>
        rw [List.append_nil]
        exact records

theorem accepted_eq_self (room : interner.Room texts.length) :
    interner.accepted texts = texts := by
  induction texts generalizing interner with
  | nil => rfl
  | cons text rest ih =>
      rw [List.length_cons, Nat.add_comm] at room
      obtain ⟨name, grown, outcome⟩ := exists_tryIntern (room.weaken (by omega)) text
      simp only [accepted, outcome, ih (room.tryIntern outcome)]

theorem records_blank (selector : ShardSelector) : (blank selector).Records [""] := by
  have wellFormed := wellFormed_blank selector
  refine ⟨wellFormed, ?_⟩
  intro text
  rw [wellFormed.isSome_get?_iff, shardOf, getElem_shards_blank, List.mem_singleton]
  constructor
  · intro present
    split at present
    case isTrue => exact List.mem_singleton.mp present
    case isFalse => cases present
  · rintro rfl
    have first : (blank selector).selector.pick "" = 0 := selector.pick_empty
    rw [if_pos first]
    exact List.mem_singleton_self ""

theorem records_fresh (selector : ShardSelector) :
    (fresh selector).Records ("" :: prelude) := by
  have room : (blank selector).Room prelude.length := room_blank selector (by decide)
  have records := (records_blank selector).accepted prelude
  rw [accepted_eq_self room] at records
  exact records

theorem extends_insert (interner : Interner) (text : String) :
    interner.Extends (interner.insert text) := by
  rw [Interner.insert]
  split
  case h_1 outcome =>
    exact ⟨tryIntern_grows outcome, fun wellFormed => wellFormed.tryIntern outcome⟩
  case h_2 => exact .refl interner

theorem extends_insertAll (interner : Interner) (texts : List String) :
    interner.Extends (texts.foldl Interner.insert interner) := by
  induction texts generalizing interner with
  | nil => exact .refl interner
  | cons text rest ih => exact (extends_insert interner text).trans (ih _)

section Calls

theorem after_bind {α β : Type} (interner : Interner) (action : Interning α)
    (following : α → Interning β) :
    interner.after (action >>= following) =
      match action interner with
      | .ok value grown => grown.after (following value)
      | .error _ grown => grown := by
  simp only [after, bind, EStateM.bind]
  cases action interner <;> rfl

theorem after_intern (interner : Interner) (text : String) :
    interner.after (intern text) = interner.insert text := by
  simp only [after, intern, Interner.insert]
  cases interner.tryIntern text <;> rfl

theorem insert_eq_accepted (interner : Interner) (text : String) :
    interner.insert text = (interner.accepted [text]).foldl Interner.insert interner := by
  simp only [accepted]
  cases outcome : interner.tryIntern text with
  | ok interned =>
      rw [insert_of_tryIntern outcome, List.foldl_cons, insert_of_tryIntern outcome, List.foldl_nil]
  | error full => simp only [Interner.insert, outcome, List.foldl_nil]

/-- Also when a string does not fit, those before it stay interned. -/
theorem after_internAll (interner : Interner) (texts : List String) :
    interner.after (texts.mapM intern) =
      (interner.accepted texts).foldl Interner.insert interner := by
  induction texts generalizing interner with
  | nil => rfl
  | cons text rest ih =>
      rw [List.mapM_cons, after_bind, accepted]
      cases outcome : interner.tryIntern text with
      | ok interned =>
          have rests : interned.2.after (do
              let names ← rest.mapM intern
              pure (interned.1 :: names)) = interned.2.after (rest.mapM intern) := by
            rw [after_bind, after]
            cases rest.mapM intern interned.2 <;> rfl
          simp only [intern, outcome, List.foldl_cons, insert_of_tryIntern outcome, ← ih]
          exact rests
      | error full => simp only [intern, outcome, List.foldl_nil]

theorem after_internPath (interner : Interner) (dotted : String) :
    interner.after (internPath dotted) =
      interner.after ((if dotted.isEmpty then [] else Dotted.segments dotted).mapM intern) := by
  rw [internPath]
  split
  case isTrue => rfl
  case isFalse =>
    rw [after_bind, after]
    cases (Dotted.segments dotted).mapM intern interner <;> rfl

theorem leaves_eq (call : Call) (interner : Interner) :
    call.leaves interner = (call.interned interner).foldl Interner.insert interner := by
  cases call with
  | intern text => rw [Call.leaves, Call.interned, after_intern, ← insert_eq_accepted]
  | tryIntern text => rw [Call.leaves, Call.interned, ← insert_eq_accepted]
  | get text => rfl
  | internPath dotted => rw [Call.leaves, Call.interned, after_internPath, after_internAll]

theorem extends_leaves (call : Call) (interner : Interner) :
    interner.Extends (call.leaves interner) := by
  rw [leaves_eq]
  exact extends_insertAll interner _

theorem Records.leaves (records : interner.Records texts) (call : Call) :
    (call.leaves interner).Records (texts ++ call.interned interner) := by
  rw [leaves_eq]
  cases call with
  | intern text => exact records.accepted [text]
  | tryIntern text => exact records.accepted [text]
  | get text =>
      rw [Call.interned, List.append_nil]
      exact records
  | internPath dotted => exact records.accepted _

theorem ensures_internPath (before : Interner) (dotted : String) :
    Ensures before (internPath dotted) fun path after =>
      ∀ given ∈ (Dotted.segments dotted).zip path.segments,
        after.get? given.1 = some given.2 := by
  rw [internPath]
  split
  case isTrue =>
    apply ensures_pure
    intro given member
    rw [NamespacePath.root, List.zip_nil_right] at member
    cases member
  case isFalse =>
    refine ensures_bind (ensures_internAll before _) fun names after interned => ?_
    apply ensures_pure
    intro given member
    rcases List.getElem_of_mem member with ⟨index, bound, rfl⟩
    rw [List.length_zip, Nat.lt_min] at bound
    have same := congrArg (fun all => all[index]?) interned.2
    simp only [List.getElem?_map, List.getElem?_eq_getElem bound.1,
      List.getElem?_eq_getElem bound.2, Option.map_some, Option.some.injEq] at same
    rw [List.getElem_zip]
    exact same.symm

theorem get?_of_mem_names {call : Call} {given : String × Name}
    (member : given ∈ call.names interner) :
    (call.leaves interner).get? given.1 = some given.2 := by
  cases call with
  | intern text =>
      simp only [Call.names, Call.leaves, after] at member ⊢
      cases outcome : intern text interner with
      | error full state =>
          rw [outcome] at member
          cases member
      | ok name grown =>
          rw [outcome, List.mem_singleton] at member
          subst member
          exact (ensures_intern interner text name grown outcome).2
  | tryIntern text =>
      simp only [Call.names] at member
      split at member
      case h_1 name grown outcome =>
        rw [List.mem_singleton] at member
        subst member
        rw [Call.leaves, insert_of_tryIntern outcome]
        exact get?_of_tryIntern outcome
      case h_2 => cases member
  | get text =>
      rw [Call.names, Option.mem_toList, Option.map_eq_some_iff] at member
      rcases member with ⟨name, found, rfl⟩
      exact found
  | internPath dotted =>
      simp only [Call.names] at member
      split at member
      case h_1 path grown outcome =>
        simp only [Call.leaves, after, outcome]
        exact ensures_internPath interner dotted path grown outcome given member
      case h_2 => cases member

theorem extends_afterCalls (interner : Interner) (calls : List Call) :
    interner.Extends (interner.afterCalls calls) := by
  induction calls generalizing interner with
  | nil => exact .refl interner
  | cons call rest ih => exact (extends_leaves call interner).trans (ih _)

theorem Records.afterCalls (records : interner.Records texts) (calls : List Call) :
    (interner.afterCalls calls).Records (texts ++ interner.collected Call.interned calls) := by
  induction calls generalizing interner texts with
  | nil =>
      rw [collected, List.append_nil]
      exact records
  | cons call rest ih =>
      rw [collected, ← List.append_assoc]
      exact ih (records.leaves call)

theorem get?_of_mem_collected {given : String × Name}
    (member : given ∈ interner.collected Call.names calls) :
    (interner.afterCalls calls).get? given.1 = some given.2 := by
  induction calls generalizing interner with
  | nil => cases member
  | cons call rest ih =>
      rcases List.mem_append.mp member with first | others
      · exact get?_mono (extends_afterCalls _ rest).toGrows (get?_of_mem_names first)
      · exact ih others

end Calls

section Size

theorem mem_strings_iff (wellFormed : interner.WellFormed) :
    text ∈ interner.strings ↔ (interner.get? text).isSome := by
  rw [wellFormed.isSome_get?_iff, strings, List.mem_flatten]
  constructor
  · rintro ⟨held, shard, present⟩
    rcases List.mem_map.mp shard with ⟨own, member, rfl⟩
    rcases List.getElem_of_mem member with ⟨index, bound, rfl⟩
    rw [Vector.length_toList] at bound
    rw [Vector.getElem_toList] at present
    have picked := wellFormed.placed ⟨index, bound⟩ text present
    have same : interner.shardOf text = interner.shards[index] := by
      simp only [shardOf, picked, Fin.getElem_fin]
    rw [same]
    exact present
  · intro present
    refine ⟨(interner.shardOf text).strings, List.mem_map_of_mem ?_, present⟩
    rw [shardOf, Vector.mem_toList_iff]
    exact Vector.getElem_mem _

theorem nodup_strings (wellFormed : interner.WellFormed) : interner.strings.Nodup := by
  rw [strings, List.nodup_flatten]
  constructor
  · intro held shard
    rcases List.mem_map.mp shard with ⟨own, member, rfl⟩
    rcases List.getElem_of_mem member with ⟨index, bound, rfl⟩
    rw [Vector.length_toList] at bound
    rw [Vector.getElem_toList]
    exact (wellFormed.shards ⟨index, bound⟩).nodup
  · rw [List.pairwise_map, List.pairwise_iff_getElem]
    intro first second boundFirst boundSecond before text inFirst inSecond
    rw [Vector.length_toList] at boundFirst boundSecond
    rw [Vector.getElem_toList] at inFirst inSecond
    have left := wellFormed.placed ⟨first, boundFirst⟩ text inFirst
    have right := wellFormed.placed ⟨second, boundSecond⟩ text inSecond
    have same : first = second := congrArg Fin.val (left.symm.trans right)
    omega

theorem Records.size_eq (records : interner.Records texts) :
    interner.size = texts.dedup.length := by
  have same : interner.strings.Perm texts.dedup := by
    rw [List.perm_ext_iff_of_nodup (nodup_strings records.wellFormed) (List.nodup_dedup texts)]
    intro text
    rw [mem_strings_iff records.wellFormed, records.known, List.mem_dedup]
  rw [size, records.wellFormed.count, same.length_eq]

end Size

section Fresh

theorem reached_append (selector : ShardSelector) (calls later : List Call) :
    reached selector (calls ++ later) = (reached selector calls).afterCalls later := by
  simp only [reached, afterCalls, List.foldl_append]

theorem records_reached (selector : ShardSelector) (calls : List Call) :
    (reached selector calls).Records (internedBy selector calls) :=
  (records_fresh selector).afterCalls calls

theorem get?_of_mem_handedOut {given : String × Name} (member : given ∈ handedOut selector calls)
    (later : List Call) :
    (reached selector (calls ++ later)).get? given.1 = some given.2 := by
  rw [reached_append]
  exact get?_mono (extends_afterCalls _ later).toGrows (get?_of_mem_collected member)

theorem get?_empty_fresh (selector : ShardSelector) :
    (fresh selector).get? "" = some Name.empty := by
  have first : (blank selector).get? "" = some Name.empty := by
    have held : (blank selector).shardOf "" = ({} : Shard).push "" := by
      rw [shardOf, getElem_shards_blank]
      exact if_pos selector.pick_empty
    have place : (blank selector).selector.pick "" = 0 := selector.pick_empty
    rw [get?, held, place]
    rfl
  exact get?_mono (extends_insertAll _ prelude).toGrows first

theorem get?_empty_reached (selector : ShardSelector) (calls : List Call) :
    (reached selector calls).get? "" = some Name.empty :=
  get?_mono (extends_afterCalls _ calls).toGrows (get?_empty_fresh selector)

theorem selector_reached (selector : ShardSelector) (calls : List Call) :
    (reached selector calls).selector = selector :=
  ((extends_insertAll _ prelude).trans (extends_afterCalls _ calls)).selector

theorem get?_reached {given : String × Name} (member : given ∈ handedOut selector calls) :
    (reached selector calls).get? given.1 = some given.2 := by
  have found := get?_of_mem_handedOut member []
  rwa [List.append_nil] at found

theorem handedOut_eq_iff {given other : String × Name} (member : given ∈ handedOut selector calls)
    (memberOther : other ∈ handedOut selector calls) : given.2 = other.2 ↔ given.1 = other.1 := by
  have wellFormed := (records_reached selector calls).wellFormed
  have first := get?_reached member
  have second := get?_reached memberOther
  constructor
  · intro sameName
    rw [← sameName] at second
    exact wellFormed.get?_injective first second
  · intro sameText
    rw [sameText, second] at first
    exact (Option.some.inj first).symm

theorem handedOut_raw_eq_zero_iff {given : String × Name}
    (member : given ∈ handedOut selector calls) : given.2.raw = 0 ↔ given.1 = "" := by
  have wellFormed := (records_reached selector calls).wellFormed
  have empty := get?_empty_reached selector calls
  have found := get?_reached member
  constructor
  · intro zero
    have isEmpty : given.2 = Name.empty := congrArg Name.mk zero
    rw [isEmpty] at found
    exact wellFormed.get?_injective found empty
  · intro same
    rw [same, empty] at found
    rw [← Option.some.inj found, Name.empty]

/-- Names and strings stand for one another along any calls on a fresh interner. -/
theorem calls_faithful (selector : ShardSelector) (calls later : List Call) :
    -- equal names for equal strings and for no others
    (∀ given ∈ handedOut selector calls, ∀ other ∈ handedOut selector calls,
      given.2 = other.2 ↔ given.1 = other.1) ∧
    -- a name reads back as its string in every later state
    (∀ given ∈ handedOut selector calls,
      (reached selector (calls ++ later)).get? given.1 = some given.2 ∧
        (reached selector (calls ++ later)).lookup given.2 = .ok given.1) ∧
    -- just the interned strings have a name, and asking for it leaves the interner as it is
    (∀ text, ((reached selector calls).get? text).isSome ↔ text ∈ internedBy selector calls) ∧
    (∀ text, reached selector (calls ++ [.get text]) = reached selector calls) ∧
    -- the word zero is the name of the empty string, and the parts of a name are packed without loss
    (reached selector calls).get? "" = some ⟨0⟩ ∧
    (∀ given ∈ handedOut selector calls, given.2.raw = 0 ↔ given.1 = "") ∧
    (∀ (first second : Fin Name.shardCount) (left right : Nat), left < Name.shardCapacity →
      right < Name.shardCapacity →
      (Name.ofParts first left).raw = (Name.ofParts second right).raw →
        first = second ∧ left = right) ∧
    -- the size counts the interned strings
    (reached selector calls).size = (internedBy selector calls).dedup.length ∧
    -- a string is refused when it is new and its shard is full, and the interner is left as it is
    (∀ text full, (reached selector calls).tryIntern text = .error full ↔
      full = ⟨(selector.pick text).val⟩ ∧ text ∉ internedBy selector calls ∧
        ((reached selector calls).shardOf text).strings.length =
          Name.shardCapacity) ∧
    (∀ text full, (reached selector calls).tryIntern text = .error full →
      reached selector (calls ++ [.tryIntern text]) = reached selector calls) := by
  have records := records_reached selector calls
  refine ⟨fun _ member _ memberOther => handedOut_eq_iff member memberOther, ?_, records.known, ?_,
    get?_empty_reached selector calls, fun _ member => handedOut_raw_eq_zero_iff member, ?_,
    records.size_eq, ?_, ?_⟩
  · intro given member
    have found := get?_of_mem_handedOut member later
    have wellFormed := (records_reached selector (calls ++ later)).wellFormed
    refine ⟨found, ?_⟩
    rw [Interner.lookup, wellFormed.lookup?_of_get? found]
  · intro text
    rw [reached_append, afterCalls, List.foldl_cons, List.foldl_nil, Call.leaves]
  · intro first second left right fitsLeft fitsRight same
    exact Name.ofParts_injective fitsLeft fitsRight same
  · intro text full
    rw [records.wellFormed.tryIntern_eq_error_iff, selector_reached, ← records.known,
      Option.not_isSome_iff_eq_none]
  · intro text full refused
    rw [reached_append, afterCalls, List.foldl_cons, List.foldl_nil, Call.leaves, Interner.insert,
      refused]

/-- The segments of a path are interned, and a name handed out for one reads back after more calls. -/
theorem calls_faithful_path :
    ("System", Name.ofParts 5 0) ∈ handedOut .codePointSum [.internPath "System.Linq"] ∧
      ("Linq", Name.ofParts 4 2) ∈ handedOut .codePointSum [.internPath "System.Linq"] ∧
      Name.ofParts 4 2 ≠ Name.ofParts 5 0 ∧
      (reached .codePointSum ([.internPath "System.Linq"] ++ [.tryIntern "Parallel"])).lookup
        (Name.ofParts 4 2) = .ok "Linq" ∧
      ((reached .codePointSum [.internPath "System.Linq"]).get? "Parallel").isSome = false ∧
      (Name.ofParts 4 2).raw ≠ 0 ∧
      (reached .codePointSum [.internPath "System.Linq"]).size = 24 := by
  have outer : ("System", Name.ofParts 5 0) ∈
      handedOut .codePointSum [.internPath "System.Linq"] := by decide +kernel
  have inner : ("Linq", Name.ofParts 4 2) ∈
      handedOut .codePointSum [.internPath "System.Linq"] := by decide +kernel
  have held : internedBy .codePointSum [.internPath "System.Linq"] =
      "" :: prelude ++ ["System", "Linq"] := by decide +kernel
  rcases calls_faithful .codePointSum [.internPath "System.Linq"] [.tryIntern "Parallel"] with
    ⟨equal, reads, known, -, -, zero, -, size, -, -⟩
  refine ⟨outer, inner, ?_, (reads _ inner).2, ?_, ?_, ?_⟩
  · intro same
    exact absurd ((equal _ inner _ outer).mp same) (by decide)
  · rw [Bool.eq_false_iff, ne_eq, known, held]
    decide
  · intro none
    exact absurd ((zero _ inner).mp none) (by decide)
  · rw [size, held]
    decide

end Fresh

end Interner

end TypeEnv
