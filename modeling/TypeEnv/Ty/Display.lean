import TypeEnv.Ty.Basic

namespace TypeEnv.Ty

mutual

/-- A function that is the domain of a function stands in parentheses, so that arrows group to the
right. -/
def display (interner : Interner) : Ty → String
  | .app _ tycon args nullness =>
    let applied :=
      if args.isEmpty then "" else "<" ++ displayList interner ", " args ++ ">"
    let mark := if nullness = .withNull then " | null" else ""
    interner.text tycon.name ++ applied ++ mark
  | .fn _ domain range _ =>
    let left :=
      if domain.isFn then "(" ++ domain.display interner ++ ")" else domain.display interner
    left ++ " -> " ++ range.display interner
  | .tuple _ kind elems =>
    let mark := if kind = .value then "struct " else ""
    mark ++ "(" ++ displayList interner " * " elems ++ ")"
  | .var _ param => "'" ++ interner.text param.name
termination_by structural ty => ty

def displayList (interner : Interner) (separator : String) : List Ty → String
  | [] => ""
  | [ty] => ty.display interner
  | first :: second :: rest =>
    first.display interner ++ separator ++ displayList interner separator (second :: rest)
termination_by structural tys => tys

end

end TypeEnv.Ty
