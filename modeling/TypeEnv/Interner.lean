import TypeEnv.Name

/-!
String interners. An interner gives equal strings equal names and different strings different
names, and reads a name back. Strings are spread over sixteen shards; which shard a string falls in
is a parameter, fixed only for the empty string.
-/

namespace TypeEnv

/-- A choice of shard for every string, with the empty string in shard zero. -/
structure ShardSelector where
  pick : String → Fin Name.shardCount
  pick_empty : pick "" = 0

def ShardSelector.codePointSum : ShardSelector where
  pick text := Fin.ofNat Name.shardCount (text.toList.foldl (fun sum c => sum + c.toNat) 0)
  pick_empty := by decide

structure ShardFull where
  shard : Nat
  deriving DecidableEq

def ShardFull.message (full : ShardFull) : String :=
  s!"interner shard {full.shard} exceeded {Name.maxIndex} strings"

/-- The strings of one shard, each at its index, and the index of every string. -/
structure Shard where
  indices : List (String × Nat) := []
  strings : List String := []

def Shard.push (shard : Shard) (text : String) : Shard where
  indices := (text, shard.strings.length) :: shard.indices
  strings := shard.strings ++ [text]

structure Interner where
  selector : ShardSelector
  shards : Vector Shard Name.shardCount
  /-- how many strings were interned -/
  count : Nat

/-- Interning computations: they extend an interner, and keep what was interned when they fail. -/
abbrev Interning := EStateM ShardFull Interner

namespace Interner

def shardOf (interner : Interner) (text : String) : Shard :=
  interner.shards[interner.selector.pick text]

def get? (interner : Interner) (text : String) : Option Name :=
  ((interner.shardOf text).indices.lookup text).map (Name.ofParts (interner.selector.pick text))

def lookup? (interner : Interner) (name : Name) : Option String :=
  interner.shards[name.shard].strings[name.index]?

/-- The string a name stands for; a name that was never handed out reads as the empty string. -/
def text (interner : Interner) (name : Name) : String :=
  (interner.lookup? name).getD ""

/-- The interned strings, the empty string included, shard by shard. -/
def strings (interner : Interner) : List String :=
  (interner.shards.toList.map Shard.strings).flatten

def size (interner : Interner) : Nat := interner.count

def isEmpty (interner : Interner) : Bool := interner.size ≤ 1

def push (interner : Interner) (text : String) : Interner :=
  { interner with
    shards := interner.shards.set (interner.selector.pick text)
      ((interner.shardOf text).push text)
    count := interner.count + 1 }

/-- The name of `text` and the interner that holds it. A new string takes the next index of its
shard; a shard that holds `Name.shardCapacity` strings accepts no new one. -/
def tryIntern (interner : Interner) (text : String) : Except ShardFull (Name × Interner) :=
  let shard := interner.selector.pick text
  match interner.get? text with
  | some name => .ok (name, interner)
  | none =>
    let held := interner.shardOf text
    if held.strings.length < Name.shardCapacity then
      .ok (Name.ofParts shard held.strings.length, interner.push text)
    else
      .error ⟨shard.val⟩

def intern (text : String) : Interning Name := fun interner =>
  match interner.tryIntern text with
  | .ok (name, grown) => .ok name grown
  | .error full => .error full interner

/-- The interner after one more string; unchanged when the string does not fit. -/
def insert (interner : Interner) (text : String) : Interner :=
  match interner.tryIntern text with
  | .ok (_, grown) => grown
  | .error _ => interner

def prelude : List String :=
  ["System", "Runtime", "CompilerServices", "Diagnostics", "CodeAnalysis", "InteropServices",
   "Collections", "Generic", "Object", "String", "Int32", "Int64", "Boolean", "Char", "Double",
   "Single", "Attribute", "Lumen", "Core", "Operators", "LanguagePrimitives",
   "IntrinsicFunctions"]

def blank (selector : ShardSelector) : Interner where
  selector := selector
  shards := (Vector.replicate Name.shardCount {}).set 0 (({} : Shard).push "")
  count := 1

def fresh (selector : ShardSelector) : Interner :=
  prelude.foldl insert (blank selector)

def new : Interner := fresh .codePointSum

end Interner

end TypeEnv
