import Mathlib.Data.List.Basic

/-!
# FNV-1a, 32 bits

`hash/fnv`'s `New32a`: the state starts at the offset basis, and each byte is xored into it before
the state is multiplied by the FNV prime, wrapping on `UInt32`.  `Write` feeds bytes and `Sum32`
reads the state, so writing `a` then `b` hashes `a ++ b`.
-/

namespace ProtoActor.Hash.Fnv

def offset32 : UInt32 := 2166136261

def prime32 : UInt32 := 16777619

/-- One byte of FNV-1a. -/
def step (h : UInt32) (b : UInt8) : UInt32 :=
  (h ^^^ b.toUInt32) * prime32

/-- `Sum32` of a fresh `New32a` after writing `data`. -/
def sum32a (data : List UInt8) : UInt32 :=
  data.foldl step offset32

example : sum32a [] = offset32 := rfl

/-- The published test vector: FNV-1a 32 of `"a"` is `0xe40c292c`. -/
example : sum32a [0x61] = 0xe40c292c := by decide

end ProtoActor.Hash.Fnv
