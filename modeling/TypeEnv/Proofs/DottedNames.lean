import Mathlib.Data.List.Basic
import TypeEnv.Proofs.AttributeDescriptions
import TypeEnv.Proofs.InternerCalls

namespace TypeEnv

namespace Dotted

variable {text run : List Char} {full space simple : String} {parts : List String}

theorem cut_eq_splitOn (text : List Char) : cut text = text.splitOn '.' := by
  induction text with
  | nil => rfl
  | cons c rest ih =>
      obtain ⟨first, others, found⟩ := List.exists_cons_of_ne_nil (List.splitOn_ne_nil '.' rest)
      simp only [cut, List.splitOn_cons_eq_if_modifyHead, ih, found, beq_iff_eq,
        List.modifyHead_cons]

theorem map_toList_segments (text : String) :
    (segments text).map String.toList = text.toList.splitOn '.' := by
  rw [segments, List.map_map, ← cut_eq_splitOn]
  simp

theorem toList_join (parts : List String) :
    (join parts).toList = ['.'].intercalate (parts.map String.toList) := by
  fun_induction join parts with
  | case1 => rfl
  | case2 => simp
  | case3 segment rest filled ih =>
      obtain ⟨second, others, rfl⟩ := List.exists_cons_of_ne_nil filled
      simp [ih, List.intercalate_cons_cons]

theorem join_segments (text : String) : join (segments text) = text := by
  rw [← String.toList_inj, toList_join, map_toList_segments, List.intercalate_splitOn]

theorem segments_join (some : parts ≠ []) (free : ∀ part ∈ parts, '.' ∉ part.toList) :
    segments (join parts) = parts := by
  have lists : (segments (join parts)).map String.toList = parts.map String.toList := by
    rw [map_toList_segments, toList_join]
    apply List.splitOn_intercalate
    · exact List.forall_mem_map.mpr free
    · simpa using some
  exact (List.map_inj_right fun _ _ => String.toList_inj.mp).mp lists

theorem join_concat (parts : List String) (last : String) :
    join (parts ++ [last]) = if parts = [] then last else join parts ++ "." ++ last := by
  induction parts with
  | nil => rfl
  | cons first rest ih =>
      rw [if_neg (List.cons_ne_nil first rest)]
      cases rest with
      | nil => rfl
      | cons second others =>
          rw [if_neg (List.cons_ne_nil second others)] at ih
          calc
            join (first :: second :: others ++ [last]) =
                first ++ "." ++ join (second :: others ++ [last]) := rfl
            _ = first ++ "." ++ (join (second :: others) ++ "." ++ last) := by rw [ih]
            _ = join (first :: second :: others) ++ "." ++ last := by
              simp only [join, String.append_assoc]

theorem dot_notMem_of_mem_cut (member : run ∈ cut text) : '.' ∉ run := by
  induction text generalizing run with
  | nil =>
      rw [List.mem_singleton.mp member]
      exact List.not_mem_nil
  | cons c rest ih =>
      obtain ⟨first, others, found⟩ := List.exists_cons_of_ne_nil (cut_ne_nil rest)
      simp only [cut, found] at member ih
      split at member
      case isTrue =>
        rcases List.mem_cons.mp member with rfl | later
        · exact List.not_mem_nil
        · exact ih later
      case isFalse other =>
        rcases List.mem_cons.mp member with rfl | later
        · intro dot
          rcases List.mem_cons.mp dot with same | inside
          · exact other same.symm
          · exact ih List.mem_cons_self inside
        · exact ih (List.mem_cons_of_mem first later)

theorem dot_notMem_of_mem_segments {part : String} (member : part ∈ segments full) :
    '.' ∉ part.toList := by
  rcases List.mem_map.mp member with ⟨run, inCut, rfl⟩
  rw [String.toList_ofList]
  exact dot_notMem_of_mem_cut inCut

theorem join_pathSegments (space : String) : join (pathSegments space) = space := by
  rw [pathSegments]
  split
  case isTrue empty => exact (String.isEmpty_iff.mp empty).symm
  case isFalse => exact join_segments space

theorem pathSegments_eq_nil_iff : pathSegments space = [] ↔ space = "" := by
  constructor
  · intro nothing
    rw [← join_pathSegments space, nothing, join]
  · rintro rfl
    rfl

/-- What is cut as a path after joining: the same parts, unless one has a dot or the empty text
stands alone. -/
theorem pathSegments_join_eq_iff :
    pathSegments (join parts) = parts ↔
      (∀ part ∈ parts, '.' ∉ part.toList) ∧ parts ≠ [""] := by
  constructor
  · intro same
    by_cases empty : join parts = ""
    · rw [pathSegments_eq_nil_iff.mpr empty] at same
      subst same
      simp
    · have cut : segments (join parts) = parts := by
        rw [pathSegments, if_neg (mt String.isEmpty_iff.mp empty)] at same
        exact same
      refine ⟨fun part member => ?_, ?_⟩
      · rw [← cut] at member
        exact dot_notMem_of_mem_segments member
      · rintro rfl
        exact empty rfl
  · rintro ⟨free, several⟩
    by_cases nothing : parts = []
    · rw [nothing]
      rfl
    · have cut := segments_join nothing free
      have filled : join parts ≠ "" := by
        intro empty
        rw [empty] at cut
        exact several cut.symm
      rw [pathSegments, if_neg (mt String.isEmpty_iff.mp filled), cut]

theorem cutLast_spec (text : List Char) :
    match cutLast text with
    | some (before, after) => text = before ++ '.' :: after ∧ '.' ∉ after
    | none => '.' ∉ text := by
  induction text with
  | nil => exact List.not_mem_nil
  | cons c rest ih =>
      rw [cutLast]
      cases found : cutLast rest with
      | some parts =>
          rw [found] at ih
          exact ⟨congrArg (c :: ·) ih.1, ih.2⟩
      | none =>
          rw [found] at ih
          simp only
          by_cases dot : c = '.'
          · rw [if_pos dot, dot]
            exact ⟨rfl, ih⟩
          · rw [if_neg dot]
            exact fun member => (List.mem_cons.mp member).elim (fun same => dot same.symm) ih

def qualified (space simple : String) : String :=
  if space = "" then simple else space ++ "." ++ simple

/-- A full name is the full name of its parts, unless it is a dot before a name without dots, which
is cut like the name alone. -/
theorem qualified_splitLast (regular : ∀ name, full = "." ++ name → '.' ∈ name.toList) :
    qualified (splitLast full).1 (splitLast full).2 = full := by
  have spec := cutLast_spec full.toList
  rw [splitLast]
  cases found : cutLast full.toList with
  | none => rfl
  | some parts =>
      obtain ⟨before, after⟩ := parts
      rw [found] at spec
      obtain ⟨whole, free⟩ := spec
      have joined : full = String.ofList before ++ "." ++ String.ofList after := by
        rw [← String.toList_inj, whole]
        simp
      have filled : String.ofList before ≠ "" := by
        intro empty
        rw [empty, String.empty_append] at joined
        have dot := regular _ joined
        rw [String.toList_ofList] at dot
        exact free dot
      simp only [qualified, if_neg filled]
      exact joined.symm

end Dotted

theorem NamespacePath.qualify_eq_dotted_child (path : NamespacePath) (name : Name)
    (interner : Interner) : path.qualify name interner = (path.child name).dotted interner := by
  have joined := Dotted.join_concat (path.segments.map interner.text) (interner.text name)
  simp only [qualify, dotted, child, isRoot, List.map_append, List.map_singleton, joined,
    List.map_eq_nil_iff, List.isEmpty_iff]

namespace Interner

variable {interner before after : Interner} {space simple full : String} {path : NamespacePath}
  {name : Name}

theorem WellFormed.dotted_eq (wellFormed : interner.WellFormed)
    (known : path.segments.map some = (Dotted.pathSegments space).map interner.get?) :
    path.dotted interner = space := by
  rw [NamespacePath.dotted, wellFormed.map_text known, Dotted.join_pathSegments]

theorem Locates.qualify_eq (located : interner.Locates space simple path name)
    (wellFormed : interner.WellFormed) :
    path.qualify name interner = Dotted.qualified space simple := by
  have root : path.isRoot = true ↔ space = "" := by
    have lengths := congrArg List.length located.path
    rw [List.length_map, List.length_map] at lengths
    rw [NamespacePath.isRoot, List.isEmpty_iff, ← Dotted.pathSegments_eq_nil_iff,
      ← List.length_eq_zero_iff, lengths, List.length_eq_zero_iff]
  have simpleText : interner.text name = simple := wellFormed.text_of_get? located.name
  simp only [NamespacePath.qualify, Dotted.qualified, root, simpleText,
    wellFormed.dotted_eq located.path]

theorem internPath_read_back (wellFormed : before.WellFormed) (text : String) :
    (∃ shard after, internPath text before = .error shard after ∧ after.Exhausted shard) ∨
    ∃ path after, internPath text before = .ok path after ∧
      ∀ later, after.Extends later → path.dotted later = text := by
  cases outcome : internPath text before with
  | error shard after =>
      rcases ((stops_internPath before text).of_error outcome).2 wellFormed with ⟨_, rfl, exhausted⟩
      exact Or.inl ⟨_, after, rfl, exhausted⟩
  | ok path after =>
      obtain ⟨grown, spelled⟩ := ensures_internSpace before text path after outcome
      refine Or.inr ⟨path, after, rfl, fun later extended => ?_⟩
      have formed := (grown.trans extended).wellFormed wellFormed
      exact formed.dotted_eq (extended.toGrows.names spelled)

/-- A path of known names is what its own text is interned as, unless a segment has a dot or the
path is the empty text alone. -/
theorem internPath_dotted_iff (wellFormed : interner.WellFormed)
    (known : ∀ segment ∈ path.segments, (interner.lookup? segment).isSome) :
    (∃ after, internPath (path.dotted interner) interner = .ok path after) ↔
      (∀ segment ∈ path.segments, '.' ∉ (interner.text segment).toList) ∧
        path.segments.map interner.text ≠ [""] := by
  rw [← List.forall_mem_map (f := interner.text) (P := fun part => '.' ∉ part.toList),
    ← Dotted.pathSegments_join_eq_iff]
  change _ ↔ Dotted.pathSegments (path.dotted interner) = _
  constructor
  · rintro ⟨after, outcome⟩
    obtain ⟨grown, spelled⟩ := ensures_internSpace interner _ path after outcome
    rw [← (grown.wellFormed wellFormed).map_text spelled]
    exact List.map_congr_left fun segment member => text_mono (known segment member) grown.toGrows
  · intro same
    refine ⟨interner, internPath_of_known ?_⟩
    rw [same, List.map_map]
    apply List.map_congr_left
    intro segment member
    rcases Option.isSome_iff_exists.mp (known segment member) with ⟨text, found⟩
    have handedOut := wellFormed.lookup?_eq_some_iff.mp found
    rw [Function.comp_apply, Interner.text, found, Option.getD_some, handedOut]

end Interner

namespace Session

variable {start : Session} {full : String} {names : AttributeNames}

theorem deref_of_unprovided {interner : Interner} {resolver : Resolver} {units : UnitStore}
    (named : interner.Names full names) (wellFormed : interner.WellFormed)
    (regular : ∀ name, full = "." ++ name → '.' ∈ name.toList)
    (unprovided : resolver.resolve units names.path names.name true = none) (store : UnitStore)
    (later : Interner) :
    (AttributeInfo.inUnit (resolver.resolveOrDefer units interner names.path names.name true)
      names.path names.name).tycon.deref store later =
        .error (.deferredResolution (full ++ " not found")) := by
  have text : notFoundText names.path names.name interner = full ++ " not found" := by
    rw [notFoundText, named.locates.qualify_eq wellFormed, Dotted.qualified_splitLast regular]
  rw [Resolver.resolveOrDefer, unprovided, UnitRef.missing, text]
  rfl

theorem exists_findAttribute (created : start.Created) (room : start.interner.Room spareRoom)
    (fits : (Dotted.segments (Dotted.splitLast full).1).length + 2 ≤ spareRoom) :
    ∃ info, start.outcome (findAttribute full) = .ok info := by
  obtain ⟨names, interner, interned⟩ := Interner.exists_internAttribute room fits
  simp only [outcome, findAttribute_eq created.catalogued, interned]
  cases start.attributes.found.lookup names.key with
  | some info => exact ⟨info, rfl⟩
  | none => exact ⟨_, rfl⟩

theorem findAttribute_new (created : start.Created) (full : String) :
    start.OutOfRoom (findAttribute full) ∨
    ∃ names interner, interner.WellFormed ∧ interner.Names full names ∧
      (start.after (findAttribute full)).interner.Names full names ∧
      start.outcome (findAttribute full) = .ok (.inUnit
        (start.resolver.resolveOrDefer start.units interner names.path names.name true)
        names.path names.name) := by
  have catalogued := created.catalogued
  have extended := (serves_findAttribute catalogued full).retains.interner
  by_cases required : ∃ attr : RequiredAttribute, full = attr.fullName
  · obtain ⟨attr, rfl⟩ := required
    obtain ⟨names, resolved, _⟩ := created.equipped.required attr
    have located := outcome_required created [] attr
    rw [resolved.described] at located
    exact Or.inr ⟨names, start.interner, catalogued.interner, resolved.named,
      resolved.named.mono extended, located⟩
  · have unasked : Request.findAttribute full ∉ [] := List.not_mem_nil
    refine (first_findAttribute catalogued unasked (not_exists.mp required)).imp_right ?_
    rintro ⟨names, named, described⟩
    exact ⟨names, _, extended.wellFormed catalogued.interner, named, named, described⟩

end Session

/-- Dotted names read back. Interning a path and writing it gives the text; writing a path and
interning it gives the path, unless a segment has a dot or the path is the empty text alone; a full
name is written like a path; and the message about an attribute that no unit provides starts with
the name that was looked up, unless that is a dot before a name without dots. -/
theorem dotted_names_read_back {interner : Interner} {start : Session}
    (reachable : interner.Reachable) (created : start.Created) :
    (∀ text,
      (∃ shard after, Interner.internPath text interner = .error shard after ∧
        after.Exhausted shard) ∨
      ∃ path after, Interner.internPath text interner = .ok path after ∧
        ∀ later, after.Extends later → path.dotted later = text) ∧
    (∀ path : NamespacePath, (∀ segment ∈ path.segments, (interner.lookup? segment).isSome) →
      ((∃ after, Interner.internPath (path.dotted interner) interner = .ok path after) ↔
        (∀ segment ∈ path.segments, '.' ∉ (interner.text segment).toList) ∧
          path.segments.map interner.text ≠ [""])) ∧
    (∀ (path : NamespacePath) (name : Name),
      path.qualify name interner = (path.child name).dotted interner) ∧
    (∀ full, (∀ name, full = "." ++ name → '.' ∈ name.toList) →
      start.OutOfRoom (Session.findAttribute full) ∨
      ∃ names info, (start.after (Session.findAttribute full)).interner.Names full names ∧
        start.outcome (Session.findAttribute full) = .ok info ∧
        (start.resolver.resolve start.units names.path names.name true = none →
          ∀ store later, info.tycon.deref store later =
            .error (.deferredResolution (full ++ " not found")))) := by
  have wellFormed := reachable.wellFormed
  refine ⟨?_, ?_, ?_, ?_⟩
  · exact fun text => Interner.internPath_read_back wellFormed text
  · exact fun path known => Interner.internPath_dotted_iff wellFormed known
  · exact fun path name => path.qualify_eq_dotted_child name interner
  · intro full regular
    refine (Session.findAttribute_new created full).imp_right ?_
    rintro ⟨names, spelling, formed, named, later, outcome⟩
    refine ⟨names, _, later, outcome, fun unprovided => ?_⟩
    exact Session.deref_of_unprovided named formed regular unprovided

/-- Empty segments and dots at both ends: of the paths of empty segments only that of one segment
is lost, and an attribute with a leading and a trailing dot is named as it was asked for. -/
theorem dotted_names_read_back_empty_parts :
    ∃ start : Session, Interner.new.Reachable ∧ start.Created ∧
      (∃ after, Interner.internPath "." Interner.new = .ok ⟨[.empty, .empty]⟩ after) ∧
      (¬ ∃ after, Interner.internPath "" Interner.new = .ok ⟨[.empty]⟩ after) ∧
      ∃ info, start.outcome (Session.findAttribute ".A.") = .ok info ∧
        ∀ store later, info.tycon.deref store later =
          .error (.deferredResolution ".A. not found") := by
  have reachable : Interner.new.Reachable := .fresh _
  have known : Interner.new.lookup? Name.empty = some "" :=
    reachable.wellFormed.lookup?_of_get? (Interner.get?_empty_fresh _)
  have text : Interner.new.text Name.empty = "" :=
    reachable.wellFormed.text_of_get? (Interner.get?_empty_fresh _)
  have accepted : ({} : Config).validate = .ok () := rfl
  obtain ⟨start, created, _, undefined, table, room⟩ := Session.exists_roomy accepted
  obtain ⟨_, paths, _, attributes⟩ := dotted_names_read_back reachable created
  refine ⟨start, reachable, created, ?_, ?_, ?_⟩
  · have two : NamespacePath.dotted ⟨[.empty, .empty]⟩ Interner.new = "." := by
      simp only [NamespacePath.dotted, List.map_cons, List.map_nil, text]
      rfl
    rw [← two]
    apply (paths ⟨[.empty, .empty]⟩ (by simp [known])).mpr
    simp [text]
  · have one : NamespacePath.dotted ⟨[.empty]⟩ Interner.new = "" := text
    rw [← one, paths ⟨[.empty]⟩ (by simp [known])]
    simp [text]
  · have regular : ∀ name, ".A." = "." ++ name → '.' ∈ name.toList := by
      intro name same
      have rest : name.toList = ['A', '.'] := by
        simpa using congrArg String.toList same.symm
      simp [rest]
    have answered : ∃ info, start.outcome (Session.findAttribute ".A.") = .ok info :=
      Session.exists_findAttribute created room (by decide +kernel)
    obtain ⟨given, outcome⟩ := answered
    rcases attributes ".A." regular with ⟨_, failed, _⟩ | ⟨names, info, _, found, deferred⟩
    · cases outcome.symm.trans failed
    · refine ⟨info, found, deferred ?_⟩
      rw [table, Resolver.table_of_undefined undefined]

end TypeEnv
