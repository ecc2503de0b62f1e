import Mathlib.Data.List.Basic
import TypeEnv.Proofs.InternerCalls
import TypeEnv.Ty.Display

/-!
What the text of a type tells about it. With legible names, and tuples of two elements or more,
types with one text have one tree of nodes with one name at each. The text is read from the left:
where a type ends is seen from what comes next, so equal texts that begin with a type begin with the
same type and go on alike.
-/

namespace TypeEnv

/-- What the text of a type shows. It shows neither namespaces nor units, nor the positions of type
parameters, nor whether functions admit null. -/
inductive Outline where
  | app (name : Name) (args : List Outline) (withNull : Bool)
  | fn (domain range : Outline)
  | tuple (kind : TupleKind) (elems : List Outline)
  | var (name : Name)

namespace TypeText

/-- The characters that a legible name does without. -/
def marks : List Char := [' ', '<', '>', '(', ')', '\'']

def Begins (ways : List (List Char)) (text : List Char) : Prop :=
  text = [] ∨ ∃ way ∈ ways, way <+: text

def ends : List (List Char) := [[')'], ['>'], [',', ' '], [' ', '*', ' ']]

/-- How the text goes on after a type that may be the domain of a function. -/
def stops : List (List Char) := [' ', '-', '>', ' '] :: ends

def follows : List (List Char) := [',', ' '] :: marks.map fun c => [c]

/-- A name that is told from what comes next. -/
structure LegibleName (text : String) : Prop where
  filled : text ≠ ""
  plain : ∀ c ∈ text.toList, c ∉ marks
  last : text.toList.getLast? ≠ some ','

/-- The separator and the last character of a list are told from its entries and from each other. -/
structure Delimits (separator : List Char) (close : Char) : Prop where
  separated : ∀ rest, Begins ends (separator ++ rest)
  closed : ∀ rest, Begins ends (close :: rest)
  apart : ∀ rest others, separator ++ rest ≠ close :: others

theorem delimits_args : Delimits [',', ' '] '>' := by
  constructor <;> simp [Begins, ends]

theorem delimits_elems : Delimits [' ', '*', ' '] ')' := by
  constructor <;> simp [Begins, ends]

theorem begins_arrow (rest : List Char) : Begins stops (' ' :: '-' :: '>' :: ' ' :: rest) := by
  simp [Begins, stops]

variable {ways others : List (List Char)} {text rest r s : List Char}

theorem Begins.mono (begins : Begins ways text)
    (shorter : ∀ way ∈ ways, ∃ other ∈ others, other <+: way) : Begins others text := by
  rcases begins with empty | ⟨way, member, starts⟩
  · exact Or.inl empty
  · obtain ⟨other, among, start⟩ := shorter way member
    exact Or.inr ⟨other, among, start.trans starts⟩

theorem Begins.stops_of_ends (begins : Begins ends text) : Begins stops text :=
  begins.mono (by decide)

theorem Begins.follows_of_stops (begins : Begins stops text) : Begins follows text :=
  begins.mono (by decide)

theorem LegibleName.back_eq_nil {name : String} {front back : List Char}
    (legible : LegibleName name) (parts : name.toList = front ++ back)
    (begins : Begins follows (back ++ rest)) : back = [] := by
  cases back with
  | nil => rfl
  | cons c others =>
      have plain : c ∉ marks := legible.plain c (by simp [parts])
      have inside : ' ' ∉ others := fun member =>
        legible.plain ' ' (by simp [parts, member]) (by decide)
      have last := legible.last
      rw [parts] at last
      simp only [Begins, List.cons_append, follows, List.mem_cons, List.mem_map] at begins
      rcases begins with empty | ⟨way, rfl | ⟨mark, marked, rfl⟩, starts⟩
      · cases empty
      -- a comma with a blank behind it: the name has the blank too unless it ends in the comma
      · rw [List.cons_prefix_cons] at starts
        cases others with
        | nil => simp [starts.1.symm] at last
        | cons d more =>
            rw [List.cons_append, List.cons_prefix_cons] at starts
            rw [← starts.2.1] at inside
            exact absurd List.mem_cons_self inside
      · rw [List.cons_prefix_cons] at starts
        exact absurd (starts.1 ▸ marked) plain

theorem LegibleName.append_inj {first second : String} (legible : LegibleName first)
    (legibleSecond : LegibleName second) (begins : Begins follows r)
    (beginsSecond : Begins follows s) (same : first.toList ++ r = second.toList ++ s) :
    first = second ∧ r = s := by
  rcases List.append_eq_append_iff.mp same with ⟨back, parts, rest⟩ | ⟨back, parts, rest⟩
  · have none := legibleSecond.back_eq_nil parts (rest ▸ begins)
    subst none
    rw [List.append_nil, String.toList_inj] at parts
    exact ⟨parts.symm, rest⟩
  · have none := legible.back_eq_nil parts (rest ▸ beginsSecond)
    subst none
    rw [List.append_nil, String.toList_inj] at parts
    exact ⟨parts, rest.symm⟩

theorem LegibleName.append_ne {name : String} {c : Char} (legible : LegibleName name)
    (marked : c ∈ marks) : name.toList ++ r ≠ c :: s := by
  intro same
  cases text : name.toList with
  | nil => exact legible.filled (String.toList_inj.mp text)
  | cons first rest =>
      rw [text, List.cons_append, List.cons.injEq] at same
      exact legible.plain first (by simp [text]) (same.1 ▸ marked)

end TypeText

theorem Interner.WellFormed.eq_of_text {interner : Interner} {first second : Name}
    (wellFormed : interner.WellFormed) (filled : interner.text first ≠ "")
    (same : interner.text first = interner.text second) : first = second := by
  have known {name : Name} (shown : interner.text name ≠ "") :
      interner.get? (interner.text name) = some name := by
    apply wellFormed.lookup?_eq_some_iff.mp
    rw [text] at shown ⊢
    cases found : interner.lookup? name with
    | none => simp [found] at shown
    | some text => rfl
  have one := known filled
  rw [same] at one filled
  exact Option.some.inj (one.symm.trans (known filled))

namespace Ty

open TypeText

mutual

def outline : Ty → Outline
  | .app _ tycon args nullness => .app tycon.name (outlines args) (nullness = .withNull)
  | .fn _ domain range _ => .fn domain.outline range.outline
  | .tuple _ kind elems => .tuple kind (outlines elems)
  | .var _ param => .var param.name
termination_by structural ty => ty

def outlines : List Ty → List Outline
  | [] => []
  | ty :: rest => ty.outline :: outlines rest
termination_by structural tys => tys

end

theorem outlines_eq_map (tys : List Ty) : outlines tys = tys.map outline := by
  induction tys with
  | nil => rfl
  | cons ty rest ih => simp [outlines, ih]

inductive Legible (interner : Interner) : Ty → Prop where
  | app {node : NodeId} {tycon : TyconRef} {args : List Ty} {nullness : Nullness}
    (name : LegibleName (interner.text tycon.name))
    (parts : ∀ arg ∈ args, Legible interner arg) : Legible interner (.app node tycon args nullness)
  | fn {node : NodeId} {domain range : Ty} {nullness : Nullness}
    (left : Legible interner domain) (right : Legible interner range) :
    Legible interner (.fn node domain range nullness)
  | tuple {node : NodeId} {kind : TupleKind} {elems : List Ty} (several : 2 ≤ elems.length)
    (parts : ∀ elem ∈ elems, Legible interner elem) : Legible interner (.tuple node kind elems)
  | var {node : NodeId} {param : TyParam} (name : LegibleName (interner.text param.name)) :
    Legible interner (.var node param)

section Text

variable (interner : Interner)

def chars (ty : Ty) : List Char := (ty.display interner).toList

def domainChars (ty : Ty) : List Char :=
  if ty.isFn then '(' :: (ty.chars interner ++ [')']) else ty.chars interner

def afterFirst (separator : List Char) (tys : List Ty) : List Char :=
  tys.flatMap fun ty => separator ++ ty.chars interner

def argChars : List Ty → List Char
  | [] => []
  | first :: rest =>
    '<' :: (first.chars interner ++ (afterFirst interner [',', ' '] rest ++ ['>']))

def nullChars (nullness : Nullness) : List Char :=
  if nullness = .withNull then [' ', '|', ' ', 'n', 'u', 'l', 'l'] else []

def kindChars (kind : TupleKind) : List Char :=
  if kind = .value then ['s', 't', 'r', 'u', 'c', 't', ' '] else []

theorem toList_displayList (separator : String) (first : Ty) (rest : List Ty) :
    (displayList interner separator (first :: rest)).toList =
      first.chars interner ++ afterFirst interner separator.toList rest := by
  induction rest generalizing first with
  | nil => simp [displayList, afterFirst, chars]
  | cons second others ih =>
      simp only [displayList, String.toList_append, ih, afterFirst, List.flatMap_cons,
        List.append_assoc, chars]

theorem chars_app (node : NodeId) (tycon : TyconRef) (args : List Ty) (nullness : Nullness) :
    (Ty.app node tycon args nullness).chars interner =
      (interner.text tycon.name).toList ++ (argChars interner args ++ nullChars nullness) := by
  cases args with
  | nil => cases nullness <;> simp [chars, display, argChars, nullChars]
  | cons first rest =>
      have list := toList_displayList interner ", " first rest
      cases nullness <;> simp [chars, display, argChars, nullChars, list]

theorem chars_fn (node : NodeId) (domain range : Ty) (nullness : Nullness) :
    (Ty.fn node domain range nullness).chars interner =
      domain.domainChars interner ++ ' ' :: '-' :: '>' :: ' ' :: range.chars interner := by
  simp only [chars, display, domainChars]
  split <;> simp

theorem chars_tuple (node : NodeId) (kind : TupleKind) (first : Ty) (rest : List Ty) :
    (Ty.tuple node kind (first :: rest)).chars interner = kindChars kind ++
      '(' :: (first.chars interner ++ (afterFirst interner [' ', '*', ' '] rest ++ [')'])) := by
  have list := toList_displayList interner " * " first rest
  cases kind <;> simp [chars, display, kindChars, list]

theorem chars_var (node : NodeId) (param : TyParam) :
    (Ty.var node param).chars interner = '\'' :: (interner.text param.name).toList := by
  simp [chars, display]

end Text

section Reading

variable {interner : Interner} {node : NodeId} {nullness otherNullness : Nullness}
  {r s : List Char} {ty domain range : Ty} {tycon : TyconRef} {args elems : List Ty}
  {kind : TupleKind} {param : TyParam}

/-- The type is told from its text, wherever the text goes on as it does after a type. -/
def Reads (interner : Interner) (ty : Ty) : Prop :=
  ∀ ⦃other : Ty⦄ ⦃r s : List Char⦄, other.Legible interner → Begins ends r → Begins ends s →
    ty.chars interner ++ r = other.chars interner ++ s → ty.outline = other.outline ∧ r = s

def ReadsAsDomain (interner : Interner) (ty : Ty) : Prop :=
  ∀ ⦃other : Ty⦄ ⦃r s : List Char⦄, other.Legible interner → Begins stops r → Begins stops s →
    ty.domainChars interner ++ r = other.domainChars interner ++ s →
      ty.outline = other.outline ∧ r = s

section Lists

variable {separator : List Char} {close : Char} {tys others : List Ty}
  (delimits : Delimits separator close)

include delimits

theorem begins_afterFirst (tys : List Ty) (r : List Char) :
    Begins ends (afterFirst interner separator tys ++ close :: r) := by
  cases tys with
  | nil => exact delimits.closed r
  | cons first rest =>
      rw [afterFirst, List.flatMap_cons, List.append_assoc, List.append_assoc]
      exact delimits.separated _

theorem reads_afterFirst (reads : ∀ ty ∈ tys, ty.Reads interner)
    (legible : ∀ ty ∈ others, ty.Legible interner)
    (same : afterFirst interner separator tys ++ close :: r =
      afterFirst interner separator others ++ close :: s) :
    tys.map outline = others.map outline ∧ r = s := by
  induction tys generalizing others with
  | nil =>
      cases others with
      | nil => exact ⟨rfl, List.tail_eq_of_cons_eq same⟩
      | cons second more =>
          rw [afterFirst, afterFirst, List.flatMap_cons, List.append_assoc,
            List.append_assoc] at same
          exact absurd same.symm (delimits.apart _ _)
  | cons first rest ih =>
      obtain ⟨readsFirst, readsRest⟩ := List.forall_mem_cons.mp reads
      cases others with
      | nil =>
          rw [afterFirst, List.flatMap_cons, List.append_assoc, List.append_assoc] at same
          exact absurd same (delimits.apart _ _)
      | cons second more =>
          obtain ⟨legibleSecond, legibleMore⟩ := List.forall_mem_cons.mp legible
          simp only [afterFirst, List.flatMap_cons, List.append_assoc,
            List.append_cancel_left_eq] at same
          obtain ⟨here, rests⟩ := readsFirst legibleSecond (begins_afterFirst delimits rest r)
            (begins_afterFirst delimits more s) same
          obtain ⟨later, after⟩ := ih readsRest legibleMore rests
          exact ⟨by rw [List.map_cons, List.map_cons, here, later], after⟩

theorem reads_list {first second : Ty} {rest more : List Ty}
    (reads : ∀ ty ∈ first :: rest, ty.Reads interner)
    (legible : ∀ ty ∈ second :: more, ty.Legible interner)
    (same : first.chars interner ++ (afterFirst interner separator rest ++ close :: r) =
      second.chars interner ++ (afterFirst interner separator more ++ close :: s)) :
    (first :: rest).map outline = (second :: more).map outline ∧ r = s := by
  apply reads_afterFirst delimits reads legible
  rw [afterFirst, List.flatMap_cons, afterFirst, List.flatMap_cons, List.append_assoc,
    List.append_assoc, List.append_assoc, List.append_assoc]
  exact congrArg (separator ++ ·) same

end Lists

theorem reads_nullChars (begins : Begins stops r) (beginsOther : Begins stops s)
    (same : nullChars nullness ++ r = nullChars otherNullness ++ s) :
    decide (nullness = .withNull) = decide (otherNullness = .withNull) ∧ r = s := by
  by_cases first : nullness = .withNull <;> by_cases second : otherNullness = .withNull
  · simpa [nullChars, first, second] using same
  · simp only [nullChars, first, second, if_true, if_false, List.nil_append] at same
    simp [← same, Begins, stops, ends] at beginsOther
  · simp only [nullChars, first, second, if_true, if_false, List.nil_append] at same
    simp [same, Begins, stops, ends] at begins
  · simpa [nullChars, first, second] using same

/-- What comes after the arguments looks neither like arguments nor like elements of a struct. -/
theorem nullChars_ne (begins : Begins stops r) :
    nullChars nullness ++ r ≠ '<' :: s ∧ nullChars nullness ++ r ≠ ' ' :: '(' :: s := by
  by_cases null : nullness = .withNull
  · simp [nullChars, null]
  · simp only [nullChars, null, if_false, List.nil_append]
    constructor <;>
    · rintro rfl
      simp [Begins, stops, ends] at begins

theorem reads_argChars {args others : List Ty} (reads : ∀ arg ∈ args, arg.Reads interner)
    (legible : ∀ other ∈ others, other.Legible interner) (begins : Begins stops r)
    (beginsOther : Begins stops s)
    (same : argChars interner args ++ (nullChars nullness ++ r) =
      argChars interner others ++ (nullChars otherNullness ++ s)) :
    args.map outline = others.map outline ∧
      nullChars nullness ++ r = nullChars otherNullness ++ s := by
  cases args with
  | nil =>
      cases others with
      | nil => exact ⟨rfl, same⟩
      | cons second more => exact absurd same (nullChars_ne begins).1
  | cons first rest =>
      cases others with
      | nil => exact absurd same.symm (nullChars_ne beginsOther).1
      | cons second more =>
          simp only [argChars, List.cons_append, List.append_assoc, List.nil_append,
            List.cons.injEq, true_and] at same
          exact reads_list delimits_args reads legible same

theorem begins_afterName (begins : Begins stops r) (args : List Ty) :
    Begins follows (argChars interner args ++ (nullChars nullness ++ r)) := by
  cases args with
  | nil =>
      by_cases null : nullness = .withNull
      · simp [argChars, nullChars, null, Begins, follows, marks]
      · simpa [argChars, nullChars, null] using begins.follows_of_stops
  | cons first rest => simp [argChars, Begins, follows, marks]

/-- No application is taken for a tuple, even of a constructor with the name `struct`. -/
theorem app_ne_tuple {name : String} (legible : LegibleName name) (begins : Begins stops r)
    (args : List Ty) (kind : TupleKind) :
    name.toList ++ (argChars interner args ++ (nullChars nullness ++ r)) ≠
      kindChars kind ++ '(' :: s := by
  intro same
  cases kind with
  | reference => exact legible.append_ne (by decide) same
  | value =>
      have struct : LegibleName "struct" := ⟨by decide, by simp [marks], by decide⟩
      have space : Begins follows (' ' :: '(' :: s) := by simp [Begins, follows, marks]
      have rests := (legible.append_inj struct (begins_afterName begins args) space same).2
      cases args with
      | nil => exact (nullChars_ne begins).2 rests
      | cons first rest => simp [argChars] at rests

theorem domainChars_of_not_isFn (plain : ty.isFn = false) :
    ty.domainChars interner = ty.chars interner :=
  if_neg (Bool.eq_false_iff.mp plain)

-- Below, a domain of each form with what comes after it.

theorem domainChars_app (args : List Ty) (r : List Char) :
    (Ty.app node tycon args nullness).domainChars interner ++ r =
      (interner.text tycon.name).toList ++
        (argChars interner args ++ (nullChars nullness ++ r)) := by
  rw [domainChars_of_not_isFn rfl, chars_app, List.append_assoc, List.append_assoc]

theorem domainChars_fn (r : List Char) :
    (Ty.fn node domain range nullness).domainChars interner ++ r =
      '(' :: ((Ty.fn node domain range nullness).chars interner ++ ')' :: r) := by
  simp [domainChars, isFn]

theorem domainChars_tuple (first : Ty) (rest : List Ty) (r : List Char) :
    (Ty.tuple node kind (first :: rest)).domainChars interner ++ r = kindChars kind ++
      '(' :: (first.chars interner ++ (afterFirst interner [' ', '*', ' '] rest ++ ')' :: r)) := by
  rw [domainChars_of_not_isFn rfl, chars_tuple]
  simp only [List.append_assoc, List.cons_append, List.nil_append]

theorem domainChars_var (r : List Char) :
    (Ty.var node param).domainChars interner ++ r =
      '\'' :: ((interner.text param.name).toList ++ r) := by
  rw [domainChars_of_not_isFn rfl, chars_var, List.cons_append]

theorem exists_cons_cons (several : 2 ≤ elems.length) :
    ∃ first second rest, elems = first :: second :: rest := by
  obtain ⟨first, others, rfl⟩ := List.exists_cons_of_length_pos (Nat.lt_of_succ_lt several)
  obtain ⟨second, rest, rfl⟩ :=
    List.exists_cons_of_length_pos (Nat.le_of_succ_le_succ several)
  exact ⟨first, second, rest, rfl⟩

theorem readsAsDomain_app (wellFormed : interner.WellFormed)
    (legible : LegibleName (interner.text tycon.name)) (reads : ∀ arg ∈ args, arg.Reads interner) :
    (Ty.app node tycon args nullness).ReadsAsDomain interner := by
  intro second r s legibleSecond begins beginsOther same
  rw [domainChars_app] at same
  cases legibleSecond with
  | app name parts =>
      rw [domainChars_app] at same
      obtain ⟨texts, rests⟩ := legible.append_inj name (begins_afterName begins _)
        (begins_afterName beginsOther _) same
      obtain ⟨lists, ending⟩ := reads_argChars reads parts begins beginsOther rests
      obtain ⟨nulls, after⟩ := reads_nullChars begins beginsOther ending
      rw [outline, outline, outlines_eq_map, outlines_eq_map, lists, nulls,
        wellFormed.eq_of_text legible.filled texts]
      exact ⟨rfl, after⟩
  | fn left right => exact absurd same (legible.append_ne (by decide))
  | @tuple _ kind elems several parts =>
      obtain ⟨first, next, rest, rfl⟩ := exists_cons_cons several
      rw [domainChars_tuple] at same
      exact absurd same (app_ne_tuple legible begins args kind)
  | var name =>
      rw [domainChars_var] at same
      exact absurd same (legible.append_ne (by decide))

theorem readsAsDomain_var (wellFormed : interner.WellFormed)
    (legible : LegibleName (interner.text param.name)) :
    (Ty.var node param).ReadsAsDomain interner := by
  intro second r s legibleSecond begins beginsOther same
  rw [domainChars_var] at same
  cases legibleSecond with
  | app name parts =>
      rw [domainChars_app] at same
      exact absurd same.symm (name.append_ne (by decide))
  | fn left right => simp [domainChars_fn] at same
  | @tuple _ kind elems several parts =>
      obtain ⟨first, next, rest, rfl⟩ := exists_cons_cons several
      rw [domainChars_tuple] at same
      cases kind <;> simp [kindChars] at same
  | var name =>
      rw [domainChars_var, List.cons.injEq] at same
      obtain ⟨texts, after⟩ := legible.append_inj name begins.follows_of_stops
        beginsOther.follows_of_stops same.2
      rw [outline, outline, wellFormed.eq_of_text legible.filled texts]
      exact ⟨rfl, after⟩

/-- A tuple is not taken for a function in parentheses: a star comes after its first element. -/
theorem readsAsDomain_tuple (several : 2 ≤ elems.length)
    (reads : ∀ elem ∈ elems, elem.Reads interner) :
    (Ty.tuple node kind elems).ReadsAsDomain interner := by
  obtain ⟨first, next, rest, rfl⟩ := exists_cons_cons several
  intro second r s legibleSecond begins beginsOther same
  rw [domainChars_tuple] at same
  cases legibleSecond with
  | app name parts =>
      rw [domainChars_app] at same
      exact absurd same.symm (app_ne_tuple name beginsOther _ kind)
  | fn left right =>
      cases kind with
      | value => simp [kindChars, domainChars_fn] at same
      | reference =>
          simp only [kindChars, reduceCtorEq, if_false, List.nil_append, domainChars_fn,
            List.cons.injEq, true_and] at same
          have rests := (reads first List.mem_cons_self (.fn left right)
            (begins_afterFirst delimits_elems _ r) (delimits_elems.closed s) same).2
          simp [afterFirst] at rests
  | @tuple _ otherKind elems several parts =>
      obtain ⟨firstOther, nextOther, more, rfl⟩ := exists_cons_cons several
      rw [domainChars_tuple] at same
      have kinds : kind = otherKind := by
        cases kind <;> cases otherKind <;> simp [kindChars] at same ⊢
      subst kinds
      simp only [List.append_cancel_left_eq, List.cons.injEq, true_and] at same
      obtain ⟨lists, after⟩ := reads_list delimits_elems reads parts same
      rw [outline, outline, outlines_eq_map, outlines_eq_map, lists]
      exact ⟨rfl, after⟩
  | var name =>
      rw [domainChars_var] at same
      cases kind <;> simp [kindChars] at same

/-- No arrow comes after a type that is not a function. -/
theorem reads_of_readsAsDomain (plain : ty.isFn = false) (reads : ty.ReadsAsDomain interner) :
    ty.Reads interner := by
  intro second r s legible begins beginsOther same
  rw [← domainChars_of_not_isFn plain] at same
  by_cases arrow : second.isFn = true
  · cases legible with
    | fn left right =>
        rw [chars_fn, List.append_assoc] at same
        have rests := (reads left begins.stops_of_ends (begins_arrow _) same).2
        simp [rests, Begins, ends] at begins
    | _ => cases arrow
  · rw [← domainChars_of_not_isFn (Bool.not_eq_true _ ▸ arrow)] at same
    exact reads legible begins.stops_of_ends beginsOther.stops_of_ends same

theorem reads_fn (readsDomain : domain.ReadsAsDomain interner) (readsRange : range.Reads interner) :
    (Ty.fn node domain range nullness).Reads interner := by
  intro second r s legible begins beginsOther same
  rw [chars_fn, List.append_assoc] at same
  by_cases arrow : second.isFn = true
  · cases legible with
    | fn left right =>
        rw [chars_fn, List.append_assoc] at same
        obtain ⟨domains, rests⟩ := readsDomain left (begins_arrow _) (begins_arrow _) same
        simp only [List.cons.injEq, true_and] at rests
        obtain ⟨ranges, after⟩ := readsRange right begins beginsOther rests
        rw [outline, outline, domains, ranges]
        exact ⟨rfl, after⟩
    | _ => cases arrow
  · have plain : second.domainChars interner = second.chars interner :=
      domainChars_of_not_isFn (Bool.not_eq_true _ ▸ arrow)
    rw [← plain] at same
    have rests := (readsDomain legible (begins_arrow _) beginsOther.stops_of_ends same).2
    simp [← rests, Begins, ends] at beginsOther

theorem readsAsDomain_fn (reads : (Ty.fn node domain range nullness).Reads interner) :
    (Ty.fn node domain range nullness).ReadsAsDomain interner := by
  intro second r s legibleSecond begins beginsOther same
  rw [domainChars_fn] at same
  cases legibleSecond with
  | app name parts =>
      rw [domainChars_app] at same
      exact absurd same.symm (name.append_ne (by decide))
  | fn left right =>
      rw [domainChars_fn, List.cons.injEq] at same
      obtain ⟨whole, rests⟩ :=
        reads (.fn left right) (delimits_elems.closed r) (delimits_elems.closed s) same.2
      exact ⟨whole, List.tail_eq_of_cons_eq rests⟩
  | @tuple _ kind elems several parts =>
      obtain ⟨first, next, rest, rfl⟩ := exists_cons_cons several
      rw [domainChars_tuple] at same
      cases kind with
      | value => simp [kindChars] at same
      | reference =>
          simp only [kindChars, reduceCtorEq, if_false, List.nil_append, List.cons.injEq,
            true_and] at same
          have rests := (reads (parts first List.mem_cons_self) (delimits_elems.closed r)
            (begins_afterFirst delimits_elems _ s) same).2
          simp [afterFirst] at rests
  | var name =>
      rw [domainChars_var] at same
      simp at same

theorem Legible.reads (wellFormed : interner.WellFormed) (legible : ty.Legible interner) :
    ty.ReadsAsDomain interner ∧ ty.Reads interner := by
  induction ty using Ty.induction with
  | app node tycon args nullness ih =>
      cases legible with
      | app name parts =>
          have domain : (Ty.app node tycon args nullness).ReadsAsDomain interner :=
            readsAsDomain_app wellFormed name fun arg member => (ih arg member (parts arg member)).2
          exact ⟨domain, reads_of_readsAsDomain rfl domain⟩
  | fn node domain range nullness ihDomain ihRange =>
      cases legible with
      | fn left right =>
          have whole : (Ty.fn node domain range nullness).Reads interner :=
            reads_fn (ihDomain left).1 (ihRange right).2
          exact ⟨readsAsDomain_fn whole, whole⟩
  | tuple node kind elems ih =>
      cases legible with
      | tuple several parts =>
          have domain : (Ty.tuple node kind elems).ReadsAsDomain interner :=
            readsAsDomain_tuple several fun elem member => (ih elem member (parts elem member)).2
          exact ⟨domain, reads_of_readsAsDomain rfl domain⟩
  | var node param =>
      cases legible with
      | var name =>
          have domain : (Ty.var node param).ReadsAsDomain interner :=
            readsAsDomain_var wellFormed name
          exact ⟨domain, reads_of_readsAsDomain rfl domain⟩

end Reading

section Shown

variable {interner : Interner} {tys others : List Ty}

theorem displayList_congr (separator : String)
    (same : tys.map (display interner) = others.map (display interner)) :
    displayList interner separator tys = displayList interner separator others := by
  induction tys generalizing others with
  | nil => rw [List.map_eq_nil_iff.mp same.symm]
  | cons first rest ih =>
      obtain ⟨second, more, rfl, here, tails⟩ := List.map_eq_cons_iff.mp same.symm
      have later := ih tails.symm
      cases rest with
      | nil =>
          rw [List.map_eq_nil_iff.mp tails]
          simp only [displayList, here]
      | cons next further =>
          obtain ⟨third, last, rfl, _, _⟩ := List.map_eq_cons_iff.mp tails
          simp only [displayList, here, later]

theorem map_display_eq
    (each : ∀ ty ∈ tys, ∀ other : Ty, ty.outline = other.outline →
      ty.display interner = other.display interner)
    (same : tys.map outline = others.map outline) :
    tys.map (display interner) = others.map (display interner) := by
  induction tys generalizing others with
  | nil => rw [List.map_eq_nil_iff.mp same.symm]
  | cons first rest ih =>
      obtain ⟨second, more, rfl, here, tails⟩ := List.map_eq_cons_iff.mp same.symm
      obtain ⟨eachFirst, eachRest⟩ := List.forall_mem_cons.mp each
      rw [List.map_cons, List.map_cons, eachFirst second here.symm, ih eachRest tails.symm]

theorem display_eq_of_outline {first second : Ty} (same : first.outline = second.outline) :
    first.display interner = second.display interner := by
  induction first using Ty.induction generalizing second with
  | app node tycon args nullness ih =>
      cases second with
      | app other tyconOther others nullnessOther =>
          simp only [outline, outlines_eq_map, Outline.app.injEq, decide_eq_decide] at same
          obtain ⟨names, parts, nulls⟩ := same
          have list := displayList_congr ", " (map_display_eq ih parts)
          have empty : args.isEmpty = others.isEmpty := by
            simpa using congrArg List.isEmpty parts
          simp only [display, names, list, empty, nulls]
      | _ => cases same
  | fn node domain range nullness ihDomain ihRange =>
      cases second with
      | fn other left right nullnessOther =>
          simp only [outline, Outline.fn.injEq] at same
          obtain ⟨domains, ranges⟩ := same
          have arrows : domain.isFn = left.isFn := by
            cases domain <;> cases left <;> first | rfl | cases domains
          simp only [display, arrows, ihDomain domains, ihRange ranges]
      | _ => cases same
  | tuple node kind elems ih =>
      cases second with
      | tuple other kindOther others =>
          simp only [outline, outlines_eq_map, Outline.tuple.injEq] at same
          obtain ⟨kinds, parts⟩ := same
          have list := displayList_congr " * " (map_display_eq ih parts)
          simp only [display, kinds, list]
      | _ => cases same
  | var node param =>
      cases second with
      | var other paramOther =>
          simp only [outline, Outline.var.injEq] at same
          simp only [display, same]
      | _ => cases same

end Shown

/-- Legible types have one text exactly if they have one tree of nodes with one name, one number of
parts, one kind of tuple and one mark of null at each. -/
theorem display_eq_iff {interner : Interner} {first second : Ty} (reachable : interner.Reachable)
    (legible : first.Legible interner) (legibleSecond : second.Legible interner) :
    first.display interner = second.display interner ↔ first.outline = second.outline := by
  constructor
  · intro same
    have texts : first.chars interner ++ [] = second.chars interner ++ [] := by
      rw [chars, chars, same]
    have nothing : Begins ends [] := Or.inl rfl
    exact ((legible.reads reachable.wellFormed).2 legibleSecond nothing nothing texts).1
  · exact display_eq_of_outline

/-- Functions from a struct, with constructors of different units, type parameters at different
positions and null admitted or not: one text, and one outline. -/
theorem display_eq_iff_function :
    ∃ (interner : Interner) (first second : Ty), interner.Reachable ∧ first.Legible interner ∧
      second.Legible interner ∧ ¬ first.Alike second ∧
      first.display interner = "struct ('Int32 * String | null) -> String" ∧
      second.display interner = "struct ('Int32 * String | null) -> String" ∧
      first.outline = second.outline := by
  have reachable : Interner.new.Reachable := .fresh _
  have named (text : String) (listed : text ∈ "" :: Interner.prelude) :
      ∃ name, Interner.new.text name = text := by
    obtain ⟨name, found⟩ :=
      Option.isSome_iff_exists.mp (((Interner.records_fresh _).known text).mpr listed)
    exact ⟨name, reachable.wellFormed.text_of_get? found⟩
  obtain ⟨int32, int32Text⟩ := named "Int32" (by decide)
  obtain ⟨string, stringText⟩ := named "String" (by decide)
  have legibleInt32 : LegibleName (Interner.new.text int32) := by
    rw [int32Text]
    exact ⟨by decide, by simp [marks], by decide⟩
  have legibleString : LegibleName (Interner.new.text string) := by
    rw [stringText]
    exact ⟨by decide, by simp [marks], by decide⟩
  let type (unit index : Nat) (nullness : Nullness) : Ty :=
    let tycon : TyconRef := .inUnit ⟨⟨unit⟩, .empty, .referenced⟩ .root string
    .fn unit (.tuple unit .value [.var unit ⟨int32, index⟩, .app unit tycon [] .withNull])
      (.app unit tycon [] nullness) nullness
  have legible (unit index : Nat) (nullness : Nullness) :
      (type unit index nullness).Legible Interner.new := by
    refine .fn (.tuple (Nat.le_refl 2) ?_) (.app legibleString nofun)
    refine List.forall_mem_cons.mpr ⟨.var legibleInt32, List.forall_mem_singleton.mpr ?_⟩
    exact .app legibleString nofun
  have shown (unit index : Nat) (nullness : Nullness) (some : nullness ≠ .withNull) :
      (type unit index nullness).display Interner.new =
        "struct ('Int32 * String | null) -> String" := by
    simp [type, display, displayList, TyconRef.inUnit, TyconRef.name, isFn, int32Text, stringText,
      some]
  have one := shown 1 0 .ambivalent (by decide)
  have two := shown 2 1 .withoutNull (by decide)
  refine ⟨Interner.new, type 1 0 .ambivalent, type 2 1 .withoutNull, reachable, legible _ _ _,
    legible _ _ _, ?_, one, two, ?_⟩
  · simp [type, Alike, shape]
  · exact (display_eq_iff reachable (legible _ _ _) (legible _ _ _)).mp (one.trans two.symm)

end Ty

end TypeEnv
