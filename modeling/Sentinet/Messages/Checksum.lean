import Mathlib.Data.List.Basic
import Sentinet.Data.Memory

namespace Sentinet.Messages

open Sentinet.Data

/-! `checksum.c`: the checksum of some bytes is how many of their bits are set,
counted in an `int` and returned in 16 bits. -/

theorem halved_toNat (value : UInt8) : (value >>> 1).toNat = value.toNat / 2 := by
  rw [UInt8.toNat_shiftRight]
  rfl

/-- The inner loop, which ends with the last bit that is set. -/
def countBits (ret : BitVec 32) (value : UInt8) : BitVec 32 :=
  if value = 0 then ret
  else countBits (if value &&& 1 ≠ 0 then ret + 1 else ret) (value >>> 1)
termination_by value.toNat
decreasing_by
  have positive : value.toNat ≠ 0 := fun zero => ‹¬value = 0› (UInt8.toNat_inj.mp zero)
  rw [halved_toNat]
  omega

/-- The outer loop, from one index on. -/
def countBytes (data : Memory) : (index remaining : Nat) → BitVec 32 → BitVec 32
  | _, 0, ret => ret
  | index, remaining + 1, ret => countBytes data (index + 1) remaining (countBits ret (data index))

def createChecksum (data : Memory) (byteSize : Nat) : UInt16 :=
  UInt16.ofNat (countBytes data 0 byteSize 0).toNat

def validateChecksum (data : Memory) (byteSize : Nat) (checksum : UInt16) : Int :=
  if checksum = createChecksum data byteSize then 1 else 0

/-- The set bits among the lowest ones. -/
def setBits (width value : Nat) : Nat := (List.range width).countP value.testBit

def bitCount : List UInt8 → Nat
  | [] => 0
  | byte :: rest => setBits 8 byte.toNat + bitCount rest

/-- Flips the bits that are set in the mask. -/
def flipBits (data mask : Memory) : Memory := fun position => data position ^^^ mask position

/-- The checksum of some bytes counts their set bits, adds up over parts, and tells
the bytes from all that differ in an odd number of bits. -/
structure DetectsErrors (data : Memory) (byteSize : Nat) : Prop where
  counts : createChecksum data byteSize = UInt16.ofNat (bitCount (data.load 0 byteSize))
  adds : ∀ first second, byteSize = first + second →
    createChecksum data byteSize =
      createChecksum data first + createChecksum (fun position => data (first + position)) second
  rejects : ∀ mask : Memory, bitCount (mask.load 0 byteSize) % 2 = 1 →
    validateChecksum (flipBits data mask) byteSize (createChecksum data byteSize) = 0

section Count

variable {data mask : Memory} {width value other : Nat} {ret : BitVec 32}

theorem setBits_succ (width value : Nat) :
    setBits (width + 1) value = setBits width (value / 2) + value % 2 := by
  have shifted : value.testBit ∘ Nat.succ = (value / 2).testBit :=
    funext fun i => Nat.testBit_succ value i
  rw [setBits, List.range_succ_eq_map, List.countP_cons, List.countP_map, shifted, Nat.testBit_zero]
  have bit := Nat.mod_two_eq_zero_or_one value
  rcases bit with even | odd
  · simp [setBits, even]
  · simp [setBits, odd]

theorem setBits_zero (width : Nat) : setBits width 0 = 0 := by simp [setBits]

theorem countBits_eq (width : Nat) (value : UInt8) (small : value.toNat < 2 ^ width) :
    countBits ret value = ret + BitVec.ofNat 32 (setBits width value.toNat) := by
  induction width generalizing ret value with
  | zero =>
      have zero : value = 0 := UInt8.toNat_inj.mp (by simpa using small)
      rw [countBits, if_pos zero]
      simp [setBits]
  | succ width ih =>
      by_cases zero : value = 0
      · rw [countBits, if_pos zero, zero]
        simp [setBits_zero]
      · have bit : (value &&& 1).toNat = value.toNat % 2 := by
          rw [UInt8.toNat_and]
          exact Nat.and_one_is_mod _
        have odd : value &&& 1 ≠ 0 ↔ value.toNat % 2 = 1 := by
          rw [Ne, ← UInt8.toNat_inj, bit]
          change ¬value.toNat % 2 = 0 ↔ _
          omega
        rw [countBits, if_neg zero, ih (value >>> 1) (by rw [halved_toNat]; omega), halved_toNat,
          setBits_succ, BitVec.ofNat_add]
        by_cases set : value.toNat % 2 = 1
        · rw [if_pos (odd.mpr set), set, BitVec.add_assoc, BitVec.add_comm 1]
          rfl
        · rw [if_neg (fun bit => set (odd.mp bit)), Nat.mod_two_ne_one.mp set]
          simp

theorem bitCount_append (first second : List UInt8) :
    bitCount (first ++ second) = bitCount first + bitCount second := by
  induction first with
  | nil => exact (Nat.zero_add _).symm
  | cons byte rest ih => rw [List.cons_append, bitCount, bitCount, ih, Nat.add_assoc]

theorem countBytes_eq (index remaining : Nat) :
    countBytes data index remaining ret =
      ret + BitVec.ofNat 32 (bitCount (data.load index remaining)) := by
  induction remaining generalizing index ret with
  | zero => simp [countBytes, bitCount]
  | succ remaining ih =>
      rw [countBytes, ih, countBits_eq 8 _ (data index).toNat_lt, Memory.load_succ, bitCount,
        BitVec.ofNat_add, BitVec.add_assoc]

theorem createChecksum_eq (data : Memory) (byteSize : Nat) :
    createChecksum data byteSize = UInt16.ofNat (bitCount (data.load 0 byteSize)) := by
  have start : (0 : BitVec 32) + BitVec.ofNat 32 (bitCount (data.load 0 byteSize)) =
      BitVec.ofNat 32 (bitCount (data.load 0 byteSize)) := BitVec.zero_add _
  rw [createChecksum, countBytes_eq, start, BitVec.toNat_ofNat]
  apply UInt16.toNat_inj.mp
  rw [UInt16.toNat_ofNat', UInt16.toNat_ofNat']
  omega

/-- Where both are set, flipping takes one bit away instead of adding one. -/
theorem countP_xor {α : Type} (first second : α → Bool) (items : List α) :
    items.countP (fun item => first item ^^ second item) % 2 =
      (items.countP first + items.countP second) % 2 := by
  induction items with
  | nil => rfl
  | cons item rest ih =>
      simp only [List.countP_cons]
      cases first item <;> cases second item <;> simp <;> omega

theorem setBits_xor (width value other : Nat) :
    setBits width (value ^^^ other) % 2 = (setBits width value + setBits width other) % 2 := by
  have bits : (value ^^^ other).testBit = fun i => value.testBit i ^^ other.testBit i :=
    funext fun i => Nat.testBit_xor value other i
  rw [setBits, bits]
  exact countP_xor value.testBit other.testBit (List.range width)

theorem bitCount_flip (data mask : Memory) (index count : Nat) :
    bitCount ((flipBits data mask).load index count) % 2 =
      (bitCount (data.load index count) + bitCount (mask.load index count)) % 2 := by
  induction count generalizing index with
  | zero => rfl
  | succ count ih =>
      have head := setBits_xor 8 (data index).toNat (mask index).toNat
      have tail := ih (index + 1)
      rw [Memory.load_succ, Memory.load_succ, Memory.load_succ, bitCount, bitCount, bitCount, flipBits,
        UInt8.toNat_xor]
      omega

end Count

/-- The checksum detects every odd number of flipped bits, at any length. -/
theorem checksum_detectsErrors (data : Memory) (byteSize : Nat) : DetectsErrors data byteSize where
  counts := createChecksum_eq data byteSize
  adds := by
    rintro first second rfl
    have second_part : Memory.load (fun position => data (first + position)) 0 second =
        data.load (0 + first) second := by simp [Memory.load]
    rw [createChecksum_eq, createChecksum_eq, createChecksum_eq, Memory.load_add, bitCount_append,
      second_part, UInt16.ofNat_add]
  rejects := by
    intro mask odd
    refine if_neg fun accepted => ?_
    have parity := bitCount_flip data mask 0 byteSize
    rw [createChecksum_eq, createChecksum_eq] at accepted
    have same := congrArg UInt16.toNat accepted
    rw [UInt16.toNat_ofNat', UInt16.toNat_ofNat'] at same
    omega

end Sentinet.Messages
