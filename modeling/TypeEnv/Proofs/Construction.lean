import TypeEnv.Proofs.Creation
import TypeEnv.Session.Intrinsics

namespace TypeEnv

theorem Table.eq_of_get {κ α β : Type} [Enumerated κ] {table : Table κ α} {label : α → β}
    (distinct : (table.entries.map label).Nodup) {first second : κ}
    (same : label (table.get first) = label (table.get second)) : first = second := by
  have entries : table.entries.Nodup := distinct.of_map
  have values : table.get first = table.get second :=
    List.inj_on_of_nodup_map distinct (List.get_mem ..) (List.get_mem ..) same
  have places := Fin.val_eq_of_eq (entries.injective_get values)
  exact Enumerated.index_injective (Fin.ext places)

theorem Table.get_mem_entries {κ α : Type} [Enumerated κ] (table : Table κ α) (key : κ) :
    table.get key ∈ table.entries :=
  List.get_mem ..

namespace Session

variable {setup : SessionSetup} {interner : Interner} {session : Session}

/-- Each intrinsic of the session is at its own place, no two have one linkage key, and just the
known ones are found by theirs. -/
structure Linked (session : Session) : Prop where
  placed : ∀ id, (session.intrinsic id).id = id
  described : ∀ id, (session.intrinsic id).known = id.spec.known
  distinct : ∀ first second, (session.intrinsic first).key = (session.intrinsic second).key →
    first = second
  found : ∀ id, session.known.find? (session.intrinsic id).key =
    if (session.intrinsic id).known then some (session.intrinsic id) else none

theorem Built.keys_nodup (built : session.Built) :
    (session.intrinsics.entries.map Intrinsic.key).Nodup :=
  built.intrinsics.keys_nodup built.interner

theorem Built.describes (built : session.Built) (id : IntrinsicId) :
    (session.intrinsic id).Described id.spec session.interner :=
  (Table.get_of_entries built.intrinsics id).described

theorem Built.known_nodup (built : session.Built) :
    (session.known.entries.map Intrinsic.key).Nodup := by
  rw [built.known]
  exact built.keys_nodup.sublist (List.filter_sublist.map Intrinsic.key)

theorem Built.mem_known_iff (built : session.Built) {value : Intrinsic} :
    value ∈ session.known.entries ↔ value ∈ session.intrinsics.entries ∧ value.known = true := by
  rw [built.known, List.mem_filter]

theorem Built.linked (built : session.Built) : session.Linked := by
  constructor
  case placed =>
    intro id
    rw [(built.describes id).id, id.id_spec]
  case described => exact fun id => (built.describes id).known
  case distinct => exact fun first second same => Table.eq_of_get built.keys_nodup same
  case found =>
    intro id
    have present : session.intrinsic id ∈ session.intrinsics.entries :=
      session.intrinsics.get_mem_entries id
    split
    case isTrue known =>
      rw [KnownTable.find?_eq_some_iff built.known_nodup]
      exact ⟨built.mem_known_iff.mpr ⟨present, known⟩, rfl⟩
    case isFalse unknown =>
      rw [KnownTable.find?_eq_none_iff, List.mem_map]
      rintro ⟨other, member, same⟩
      rcases built.mem_known_iff.mp member with ⟨listed, known⟩
      rw [List.inj_on_of_nodup_map built.keys_nodup listed present same] at known
      exact unknown known

theorem create_of_rejected {reason : ConfigError}
    (rejected : setup.config.validate = .error reason) :
    create setup interner = .error (.error (.invalidConfig reason)) interner := by
  rw [create, rejected]
  rfl

/-- A rejected configuration is reported and nothing is interned. An accepted one has a session, in
which the intrinsics are linked, unless a shard runs full; nothing else goes wrong, since templates
ask only for type parameters and array ranks that exist. -/
theorem create_linked (setup : SessionSetup) (reached : interner.Reachable) :
    (∀ reason, setup.config.validate = .error reason →
      create setup interner = .error (.error (.invalidConfig reason)) interner) ∧
    (setup.config.validate = .ok () →
      ((∃ session after, create setup interner = .ok session after ∧ session.interner = after ∧
          session.Linked) ∨
        ∃ full after, create setup interner = .error (.breach (.shardFull full)) after ∧
          after.Exhausted full) ∧
      (interner.Room buildRoom → ∃ session after, create setup interner = .ok session after)) ∧
    ∀ id : IntrinsicId, IntrinsicSpec.rows[id.ctorIdx]? = some id.spec ∧ id.spec.id = id ∧
      id.spec.signature.closed id.spec.typars.length := by
  have wellFormed := reached.wellFormed
  refine ⟨fun _ => create_of_rejected, ?_, ?_⟩
  · intro accepted
    rw [create_of_accepted accepted]
    constructor
    · cases outcome : build setup interner with
      | ok session after =>
          rcases ensures_build wellFormed session after outcome with ⟨built, _, _, _, same⟩
          exact Or.inl ⟨session, after, rfl, same, built.linked⟩
      | error failure after =>
          rcases ((stops_build wellFormed).of_error outcome).2 wellFormed with
            ⟨full, rfl, exhausted⟩
          exact Or.inr ⟨full, after, rfl, exhausted⟩
    · intro room
      have enough : interner.Room (buildRoom + 0) := room.weaken (Nat.le_of_eq (Nat.add_zero _))
      rcases (stops_build wellFormed).exists_ok enough with ⟨session, after, outcome, _⟩
      exact ⟨session, after, outcome⟩
  · intro id
    have row := id.getElem?_rows
    have own := id.id_spec
    have closed := id.closed_spec
    exact ⟨row, own, closed⟩

/-- A resolver that answers with one unit whatever it is asked; the same with a relative base path. -/
theorem create_linked_always :
    ∃ setup : SessionSetup, setup.config.validate = .ok () ∧ Interner.new.Room buildRoom ∧
      (∃ session after, create setup Interner.new = .ok session after ∧ session.Linked) ∧
      create { setup with config := { basePath := "src" } } Interner.new =
        .error (.error (.invalidConfig (.relativeBasePath "src"))) Interner.new := by
  let setup : SessionSetup :=
    { localUnit := ⟨⟨0⟩, Name.empty, .compiled⟩, units := {}
      resolver := .always ⟨⟨0⟩, Name.empty, .compiled⟩ }
  have reached : Interner.new.Reachable := .fresh .codePointSum
  have room : Interner.new.Room buildRoom := Interner.room_fresh _ _ (by decide +kernel)
  have accepted : setup.config.validate = .ok () := rfl
  have relative : ({ basePath := "src" } : Config).validate = .error (.relativeBasePath "src") := rfl
  have rejected := (create_linked { setup with config := { basePath := "src" } } reached).1 _ relative
  rcases (create_linked setup reached).2.1 accepted with ⟨outcomes, enough⟩
  rcases enough room with ⟨session, after, built⟩
  refine ⟨setup, accepted, room, ?_, rejected⟩
  rcases outcomes with ⟨other, left, outcome, _, linked⟩ | ⟨full, left, outcome, _⟩
  · exact ⟨other, left, outcome, linked⟩
  · rw [built] at outcome
    cases outcome

end Session

end TypeEnv
