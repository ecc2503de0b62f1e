namespace TypeEnv

/-- A type with a list of all its values; `index` is the position of a value in that list. -/
class Enumerated (κ : Type) where
  all : List κ
  index : κ → Fin all.length
  get_index : ∀ key, all.get (index key) = key

instance (n : Nat) : Enumerated (Fin n) where
  all := List.finRange n
  index key := key.cast (List.length_finRange).symm
  get_index key := by simp

theorem Enumerated.mem_all {κ : Type} [Enumerated κ] (key : κ) : key ∈ (Enumerated.all : List κ) := by
  have member := List.get_mem (Enumerated.all : List κ) (Enumerated.index key)
  rwa [Enumerated.get_index] at member

theorem Enumerated.index_injective {κ : Type} [Enumerated κ] {first second : κ}
    (same : Enumerated.index first = Enumerated.index second) : first = second := by
  rw [← Enumerated.get_index first, ← Enumerated.get_index second, same]

structure Table (κ : Type) [Enumerated κ] (α : Type) where
  entries : List α
  length_entries : entries.length = (Enumerated.all : List κ).length

namespace Table

variable {κ : Type} [Enumerated κ] {α β : Type}

def get (table : Table κ α) (key : κ) : α :=
  table.entries.get ((Enumerated.index key).cast table.length_entries.symm)

def ofFn (entry : κ → α) : Table κ α where
  entries := (Enumerated.all : List κ).map entry
  length_entries := by simp

/-- Entries in the order of their keys, each computed after the ones before it. -/
def collect {m : Type → Type} [Monad m] (entry : κ → m α) :
    (keys : List κ) → m { entries : List α // entries.length = keys.length }
  | [] => pure ⟨[], rfl⟩
  | key :: keys => do
    let first ← entry key
    let rest ← collect entry keys
    return ⟨first :: rest.val, by simp [rest.property]⟩

def ofFnM {m : Type → Type} [Monad m] (entry : κ → m α) : m (Table κ α) := do
  let entries ← collect entry Enumerated.all
  return ⟨entries.val, entries.property⟩

@[simp] theorem get_ofFn (entry : κ → α) (key : κ) : (ofFn entry).get key = entry key := by
  simp only [ofFn, get, List.get_eq_getElem, List.getElem_map]
  exact congrArg entry (Enumerated.get_index key)

end Table

end TypeEnv
