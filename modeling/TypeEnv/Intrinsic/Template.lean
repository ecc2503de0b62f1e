import TypeEnv.Primitive.Kind
import TypeEnv.Tycon.Named

namespace TypeEnv

inductive Template where
  | prim (kind : PrimitiveKind)
  /-- the type parameter at this position -/
  | param (index : Nat)
  | app (tycon : NamedTycon) (args : List Template)
  | array (rank : Nat) (elem : Template)
  | fn (domain range : Template)
  | tuple (elems : List Template)

namespace Template

def t : Template := .param 0
def u : Template := .param 1
def v : Template := .param 2
def w : Template := .param 3
def x : Template := .param 4

def int : Template := .prim .int32
def int64 : Template := .prim .int64
def uint64 : Template := .prim .uint64
def byte : Template := .prim .uint8
def float : Template := .prim .float
def decimal : Template := .prim .decimal
def bool : Template := .prim .bool
def char : Template := .prim .char
def string : Template := .prim .string
def obj : Template := .prim .obj
def exn : Template := .prim .exn
def unit : Template := .prim .unit
def systemType : Template := .prim .systemType

def seq (elem : Template) : Template := .app .seq [elem]
def refCell (content : Template) : Template := .app .refCell [content]
def vector (elem : Template) : Template := .array 1 elem
def expr (quoted : Template) : Template := .app .expr [quoted]
def rawExpr : Template := .app .rawExpr []
def lazy (value : Template) : Template := .app .lazy [value]
def queryBuilder : Template := .app .queryBuilder []
def querySource (elem query : Template) : Template := .app .querySource [elem, query]
def equalityComparer : Template := .app .equalityComparer []
def comparer : Template := .app .comparer []

end Template

/-- Curried argument groups and a result. A group of several templates is one tupled argument; an
empty group takes the unit value. -/
structure Signature where
  args : List (List Template)
  ret : Template

namespace Signature

def argCount (signature : Signature) : Nat := signature.args.flatten.length

def value (ret : Template) : Signature := ⟨[], ret⟩

def curried (args : List Template) (ret : Template) : Signature := ⟨args.map ([·]), ret⟩

def binary : Signature := curried [.t, .u] .v
def homogeneousBinary : Signature := curried [.t, .t] .t
def unary : Signature := curried [.t] .u
def endo : Signature := curried [.t] .t
def shift : Signature := curried [.t, .int] .t
def predicate2 : Signature := curried [.t, .t] .bool
def relation : Signature := curried [.t, .u] .bool
def order : Signature := curried [.t, .t] .int
def hash : Signature := curried [.t] .int
def fail : Signature := curried [.string] .t

def nullary : Signature := ⟨[[]], .t⟩

end Signature

end TypeEnv
