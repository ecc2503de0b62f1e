namespace TypeEnv.Dotted

def cut : List Char → List (List Char)
  | [] => [[]]
  | c :: rest =>
    if c = '.' then
      [] :: cut rest
    else
      match cut rest with
      | [] => [[c]]
      | run :: runs => (c :: run) :: runs

def cutLast : List Char → Option (List Char × List Char)
  | [] => none
  | c :: rest =>
    match cutLast rest with
    | some (before, after) => some (c :: before, after)
    | none => if c = '.' then some ([], rest) else none

def segments (text : String) : List String :=
  (cut text.toList).map String.ofList

def join : List String → String
  | [] => ""
  | [segment] => segment
  | segment :: rest => segment ++ "." ++ join rest

/-- The namespace part and the last part of a full name. A name without a dot has no namespace part. -/
def splitLast (full : String) : String × String :=
  match cutLast full.toList with
  | some (before, after) => (String.ofList before, String.ofList after)
  | none => ("", full)

theorem cut_ne_nil (text : List Char) : cut text ≠ [] := by
  cases text with
  | nil => simp [cut]
  | cons c rest =>
    simp only [cut]
    split
    · simp
    · split <;> simp

end TypeEnv.Dotted
