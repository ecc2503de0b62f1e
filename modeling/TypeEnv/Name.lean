/-!
Names of interned strings. A name packs a shard (top four bits) and an index inside that
shard (low 28 bits) into one 32-bit word.
-/

namespace TypeEnv

/-- A compact stand-in for a string held by an interner. -/
structure Name where
  raw : UInt32
  deriving DecidableEq

namespace Name

abbrev shardCount : Nat := 16

/-- How many strings one shard can hold: as many as there are 28-bit indices. -/
abbrev shardCapacity : Nat := 268435456

def maxIndex : Nat := shardCapacity - 1

def empty : Name := ⟨0⟩

def isEmpty (name : Name) : Bool := name.raw == 0

def ofParts (shard : Fin shardCount) (index : Nat) : Name :=
  ⟨UInt32.ofNat (shard.val * shardCapacity + index)⟩

def shard (name : Name) : Fin shardCount :=
  ⟨name.raw.toNat / shardCapacity, by
    have below := name.raw.toNat_lt
    simp only [shardCapacity, shardCount]
    omega⟩

def index (name : Name) : Nat := name.raw.toNat % shardCapacity

/-- The packed parts, written out for messages about names that stand for no string. -/
def describe (name : Name) : String :=
  s!"Name({name.shard.val}:{name.index})"

theorem toNat_ofParts (shard : Fin shardCount) (index : Nat) (fits : index < shardCapacity) :
    (ofParts shard index).raw.toNat = shard.val * shardCapacity + index := by
  have below := shard.isLt
  simp only [shardCount, shardCapacity] at *
  simp only [ofParts, UInt32.toNat_ofNat', shardCapacity]
  omega

theorem shard_ofParts (shard : Fin shardCount) (index : Nat) (fits : index < shardCapacity) :
    (ofParts shard index).shard = shard := by
  apply Fin.ext
  simp only [Name.shard, toNat_ofParts shard index fits]
  simp only [shardCapacity] at *
  omega

theorem index_ofParts (shard : Fin shardCount) (index : Nat) (fits : index < shardCapacity) :
    (ofParts shard index).index = index := by
  simp only [Name.index, toNat_ofParts shard index fits]
  simp only [shardCapacity] at *
  omega

theorem raw_ofParts (shard : Fin shardCount) (index : Nat) (fits : index < shardCapacity) :
    (ofParts shard index).raw = UInt32.ofNat shard.val <<< 28 ||| UInt32.ofNat index := by
  have below := shard.isLt
  have low : index < 2 ^ 28 := fits
  have width : (28 : UInt32).toNat % 32 = 28 := rfl
  have top : (UInt32.ofNat shard.val <<< 28).toNat = shard.val <<< 28 := by
    simp only [shardCount] at below
    simp only [UInt32.toNat_shiftLeft, UInt32.toNat_ofNat', Nat.shiftLeft_eq, width]
    omega
  have bottom : (UInt32.ofNat index).toNat = index := by
    simp only [UInt32.toNat_ofNat']
    omega
  apply UInt32.toNat_inj.mp
  rw [toNat_ofParts shard index fits, UInt32.toNat_or, top, bottom,
    ← Nat.shiftLeft_add_eq_or_of_lt low, Nat.shiftLeft_eq]

theorem ofParts_injective {first second : Fin shardCount} {left right : Nat}
    (fitsLeft : left < shardCapacity) (fitsRight : right < shardCapacity)
    (same : (ofParts first left).raw = (ofParts second right).raw) :
    first = second ∧ left = right := by
  have names : ofParts first left = ofParts second right := congrArg Name.mk same
  constructor
  · rw [← shard_ofParts first left fitsLeft, names, shard_ofParts second right fitsRight]
  · rw [← index_ofParts first left fitsLeft, names, index_ofParts second right fitsRight]

theorem ofParts_shard_index (name : Name) : ofParts name.shard name.index = name := by
  cases name with
  | mk raw =>
    have below := raw.toNat_lt
    have whole : raw.toNat / shardCapacity * shardCapacity + raw.toNat % shardCapacity = raw.toNat :=
      Nat.div_add_mod' raw.toNat shardCapacity
    simp only [ofParts, Name.shard, Name.index, whole, UInt32.ofNat_toNat]

end Name

end TypeEnv
