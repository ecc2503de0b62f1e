import TypeEnv.Enumerated

namespace TypeEnv

inductive Origin where
  /-- the host runtime; the type is found through the resolver -/
  | host
  /-- the standard library -/
  | core
  deriving DecidableEq

def Origin.label : Origin → String
  | .host => "Host"
  | .core => "Core"

def systemNamespace : String := "System"

def coreNamespace : String := "Lumen.Core"

inductive NamedTycon where
  | func
  | option
  | valueOption
  | list
  | seq
  | refCell
  | format
  | expr
  | rawExpr
  | byRef
  | nativePtr
  | queryBuilder
  | querySource
  | lazy
  | nullable
  | enumerable
  | enumerator
  | equalityComparer
  | comparer
  | disposable
  | void
  | systemArray
  | attribute
  | valueType
  | enum
  | delegate
  deriving DecidableEq

structure TyconLocation where
  origin : Origin
  space : String
  name : String
  deriving DecidableEq

namespace NamedTycon

def all : List NamedTycon :=
  [.func, .option, .valueOption, .list, .seq, .refCell, .format, .expr, .rawExpr, .byRef,
   .nativePtr, .queryBuilder, .querySource, .lazy, .nullable, .enumerable, .enumerator,
   .equalityComparer, .comparer, .disposable, .void, .systemArray, .attribute, .valueType, .enum,
   .delegate]

instance : Enumerated NamedTycon where
  all := all
  index tycon := ⟨tycon.ctorIdx, by cases tycon <;> decide⟩
  get_index tycon := by cases tycon <;> rfl

def label : NamedTycon → String
  | .func => "Func"
  | .option => "Option"
  | .valueOption => "ValueOption"
  | .list => "List"
  | .seq => "Seq"
  | .refCell => "RefCell"
  | .format => "Format"
  | .expr => "Expr"
  | .rawExpr => "RawExpr"
  | .byRef => "ByRef"
  | .nativePtr => "NativePtr"
  | .queryBuilder => "QueryBuilder"
  | .querySource => "QuerySource"
  | .lazy => "Lazy"
  | .nullable => "Nullable"
  | .enumerable => "IEnumerable"
  | .enumerator => "IEnumerator"
  | .equalityComparer => "EqualityComparer"
  | .comparer => "Comparer"
  | .disposable => "Disposable"
  | .void => "Void"
  | .systemArray => "SystemArray"
  | .attribute => "Attribute"
  | .valueType => "ValueType"
  | .enum => "Enum"
  | .delegate => "Delegate"

/-- Compiled names carry the number of type parameters after a backquote. -/
def location : NamedTycon → TyconLocation
  | .func => ⟨.core, coreNamespace, "Function`2"⟩
  | .option => ⟨.core, coreNamespace, "Option`1"⟩
  | .valueOption => ⟨.core, coreNamespace, "ValueOption`1"⟩
  | .list => ⟨.core, coreNamespace, "List`1"⟩
  | .seq => ⟨.core, coreNamespace, "seq`1"⟩
  | .refCell => ⟨.core, coreNamespace, "Ref`1"⟩
  | .format => ⟨.core, coreNamespace, "PrintfFormat`5"⟩
  | .expr => ⟨.core, "Lumen.Core.Quotations", "Expr`1"⟩
  | .rawExpr => ⟨.core, "Lumen.Core.Quotations", "Expr"⟩
  | .byRef => ⟨.core, coreNamespace, "byref`1"⟩
  | .nativePtr => ⟨.core, coreNamespace, "nativeptr`1"⟩
  | .queryBuilder => ⟨.core, "Lumen.Core.Linq", "QueryBuilder"⟩
  | .querySource => ⟨.core, "Lumen.Core.Linq", "QuerySource`2"⟩
  | .lazy => ⟨.host, systemNamespace, "Lazy`1"⟩
  | .nullable => ⟨.host, systemNamespace, "Nullable`1"⟩
  | .enumerable => ⟨.host, "System.Collections.Generic", "IEnumerable`1"⟩
  | .enumerator => ⟨.host, "System.Collections.Generic", "IEnumerator`1"⟩
  | .equalityComparer => ⟨.host, "System.Collections", "IEqualityComparer"⟩
  | .comparer => ⟨.host, "System.Collections", "IComparer"⟩
  | .disposable => ⟨.host, systemNamespace, "IDisposable"⟩
  | .void => ⟨.host, systemNamespace, "Void"⟩
  | .systemArray => ⟨.host, systemNamespace, "Array"⟩
  | .attribute => ⟨.host, systemNamespace, "Attribute"⟩
  | .valueType => ⟨.host, systemNamespace, "ValueType"⟩
  | .enum => ⟨.host, systemNamespace, "Enum"⟩
  | .delegate => ⟨.host, systemNamespace, "Delegate"⟩

end NamedTycon

abbrev maxArrayRank : Nat := 32

/-- The compiled name of the array constructor: one comma less than the rank, in brackets. -/
def arrayTyconName (rank : Nat) : String :=
  "[" ++ String.ofList (List.replicate (rank - 1) ',') ++ "]`1"

abbrev maxTuple : Nat := 8

def tupleTyconName (family : String) (arity : Nat) : String := s!"{family}`{arity}"

end TypeEnv
