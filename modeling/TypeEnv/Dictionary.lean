/-!
Finite maps: a list of entries in which no key comes twice. The order of the entries means nothing.
-/

namespace TypeEnv

structure Dictionary (κ α : Type) where
  entries : List (κ × α) := []
  distinct : (entries.map Prod.fst).Nodup := by exact List.nodup_nil
  deriving DecidableEq

namespace Dictionary

variable {κ α : Type}

def values (dictionary : Dictionary κ α) : List α := dictionary.entries.map Prod.snd

variable [DecidableEq κ]

def get? (dictionary : Dictionary κ α) (key : κ) : Option α := dictionary.entries.lookup key

theorem nodup_replaced (dictionary : Dictionary κ α) (key : κ) (value : α) :
    (((key, value) :: dictionary.entries.filter (·.1 ≠ key)).map Prod.fst).Nodup := by
  rw [List.map_cons, List.nodup_cons]
  constructor
  · intro present
    rcases List.mem_map.mp present with ⟨entry, kept, same⟩
    exact of_decide_eq_true (List.mem_filter.mp kept).2 same
  · exact dictionary.distinct.sublist (List.filter_sublist.map Prod.fst)

def set (dictionary : Dictionary κ α) (key : κ) (value : α) : Dictionary κ α where
  entries := (key, value) :: dictionary.entries.filter (·.1 ≠ key)
  distinct := dictionary.nodup_replaced key value

variable {dictionary : Dictionary κ α} {key : κ} {value : α}

theorem lookup_filter_ne {key other : κ} (apart : other ≠ key) (entries : List (κ × α)) :
    (entries.filter (·.1 ≠ key)).lookup other = entries.lookup other := by
  induction entries with
  | nil => rfl
  | cons entry rest ih =>
      rcases entry with ⟨held, value⟩
      by_cases here : held = key
      · have passed : (other == held) = false := beq_false_of_ne (here ▸ apart)
        rw [List.filter_cons_of_neg (by simp [here]), List.lookup_cons, passed, ih]
      · rw [List.filter_cons_of_pos (by simp [here]), List.lookup_cons, List.lookup_cons, ih]

theorem get?_set (dictionary : Dictionary κ α) (key other : κ) (value : α) :
    (dictionary.set key value).get? other =
      if other = key then some value else dictionary.get? other := by
  simp only [get?, set, List.lookup_cons]
  split
  case h_1 same => rw [if_pos (eq_of_beq same)]
  case h_2 different =>
    have apart : other ≠ key := ne_of_beq_false different
    rw [if_neg apart, lookup_filter_ne apart]

theorem get?_eq_some_iff : dictionary.get? key = some value ↔ (key, value) ∈ dictionary.entries := by
  rcases dictionary with ⟨entries, distinct⟩
  simp only [get?]
  induction entries with
  | nil => simp
  | cons entry rest ih =>
      rw [List.map_cons, List.nodup_cons] at distinct
      rw [List.lookup_cons, List.mem_cons]
      split
      case h_1 same =>
        have here : key = entry.1 := eq_of_beq same
        constructor
        · intro found
          exact Or.inl (Prod.ext here (Option.some.inj found).symm)
        · rintro (first | later)
          · rw [← first]
          · exact absurd (List.mem_map_of_mem later) (here ▸ distinct.1)
      case h_2 different =>
        have apart : key ≠ entry.1 := ne_of_beq_false different
        rw [ih distinct.2]
        constructor
        · exact Or.inr
        · rintro (first | later)
          · exact absurd (congrArg Prod.fst first) apart
          · exact later

theorem mem_values_iff : value ∈ dictionary.values ↔ ∃ key, dictionary.get? key = some value := by
  simp only [values, List.mem_map, get?_eq_some_iff, Prod.exists, exists_eq_right]

end Dictionary

end TypeEnv
