import Sentinet.Data.BitMasks
import Sentinet.Messages.Keys

namespace Sentinet.Messages

open Sentinet.Data BitMasks

/-! The sizes in which `data.c` would store an integer.  An `int` has 32 bits and a
`long` 64; shifting into the sign bit gives the least value. -/

def smallest64Size (data : BitVec 64) : Nat :=
  if data = data &&& (0xFF ||| data >>> 62) ∧
      data = data ||| ((1 : BitVec 64) <<< 63).sshiftRight 55 then 8
  else if data = data &&& (0xFFFF ||| data >>> 62) ∧
      data = data ||| ((1 : BitVec 64) <<< 63).sshiftRight 47 then 16
  else if data = data &&& (0xFFFFFFFF ||| data >>> 62) ∧
      data = data ||| ((1 : BitVec 64) <<< 63).sshiftRight 31 then 32
  else 64

def smallest32Size (data : BitVec 32) : Nat :=
  if data = data &&& 0xFF then 8
  else if data = data &&& 0xFFFF then 16
  else 32

/-- The value is promoted to `int`. -/
def smallest16Size (data : BitVec 16) : Nat :=
  let data := data.setWidth 32
  if data = data &&& 0xFF then 8 else 16

def signedSmallest64Size (data : BitVec 64) : Nat :=
  if data = data ||| ((1 : BitVec 64) <<< 63).sshiftRight 55 then 8
  else if data = data ||| ((1 : BitVec 64) <<< 63).sshiftRight 47 then 16
  else if data = data ||| ((1 : BitVec 64) <<< 63).sshiftRight 31 then 32
  else 64

/-- The second literal is a `long`, and so is what it is compared with. -/
def signedSmallest32Size (data : BitVec 32) : Nat :=
  if data = data ||| ((1 : BitVec 32) <<< 31).sshiftRight 23 then 8
  else if data.signExtend 64 = data.signExtend 64 ||| ((1 : BitVec 64) <<< 31).sshiftRight 15 then 16
  else 32

def signedSmallest16Size (data : BitVec 16) : Nat :=
  let data := data.signExtend 32
  if data = data ||| (((1 : BitVec 32) <<< 31) &&& data).sshiftRight 23 then 8
  else if data = data ||| (((1 : BitVec 32) <<< 31) &&& data).sshiftRight 15 then 16
  else 32

/-- `*(intN_t*)data` -/
def bitsAt (data : Memory) (width : Nat) : BitVec width :=
  BitVec.ofNat width (LittleEndian.decode (data.load 0 (width / 8)))

/-- The result and the new `*num_bytes`; the arm for `INT64` reads 16 bits. -/
def optimizeInt (typeCode : TypeCode) (data : Memory) (numBytes : UInt8) : Int × UInt8 :=
  let stored :=
    if typeCode = .int16 then UInt8.ofNat (signedSmallest16Size (bitsAt data 16))
    else if typeCode = .uint16 then UInt8.ofNat (smallest16Size (bitsAt data 16))
    else if typeCode = .int32 then UInt8.ofNat (signedSmallest32Size (bitsAt data 32))
    else if typeCode = .uint32 then UInt8.ofNat (smallest32Size (bitsAt data 32))
    else if typeCode = .int64 then
      UInt8.ofNat (signedSmallest64Size ((bitsAt data 16).signExtend 64))
    else if typeCode = .uint64 then UInt8.ofNat (smallest64Size (bitsAt data 64))
    else numBytes
  (if stored = numBytes then 1 else 0, stored)

/-! What the sizes are for. -/

inductive IntType where
  | int16 | uint16 | int32 | uint32 | int64 | uint64
deriving DecidableEq, Repr

namespace IntType

def code : IntType → TypeCode
  | .int16 => .int16
  | .uint16 => .uint16
  | .int32 => .int32
  | .uint32 => .uint32
  | .int64 => .int64
  | .uint64 => .uint64

def width : IntType → Nat
  | .int16 | .uint16 => 16
  | .int32 | .uint32 => 32
  | .int64 | .uint64 => 64

def signed : IntType → Bool
  | .int16 | .int32 | .int64 => true
  | .uint16 | .uint32 | .uint64 => false

def reportedSize : (type : IntType) → BitVec type.width → Nat
  | .int16, data => signedSmallest16Size data
  | .uint16, data => smallest16Size data
  | .int32, data => signedSmallest32Size data
  | .uint32, data => smallest32Size data
  | .int64, data => signedSmallest64Size data
  | .uint64, data => smallest64Size data

end IntType

/-- Cut to its low bits and extended again, the value is the same. -/
def Fits (signed : Bool) {width : Nat} (data : BitVec width) (size : Nat) : Prop :=
  if signed then (data.setWidth size).signExtend width = data
  else (data.setWidth size).setWidth width = data

instance (signed : Bool) {width : Nat} (data : BitVec width) (size : Nat) :
    Decidable (Fits signed data size) :=
  inferInstanceAs (Decidable (if signed then (data.setWidth size).signExtend width = data
    else (data.setWidth size).setWidth width = data))

structure LeastSize (signed : Bool) {width : Nat} (data : BitVec width) (size : Nat) : Prop where
  byte_size : size ∈ [8, 16, 32, 64]
  bounded : size ≤ width
  fits : Fits signed data size
  least : ∀ smaller ∈ [8, 16, 32, 64], smaller < size → ¬Fits signed data smaller

/-- The law of `optimize_int` for one type, the value in memory and the size passed in. -/
structure SizeLaw (type : IntType) (data : Memory) (numBytes : UInt8) : Prop where
  reported : LeastSize type.signed (bitsAt data type.width)
    (type.reportedSize (bitsAt data type.width))
  stored : LeastSize type.signed (bitsAt data type.width)
    (optimizeInt type.code data numBytes).2.toNat
  tells : (optimizeInt type.code data numBytes).1 = 1 ↔
    (optimizeInt type.code data numBytes).2 = numBytes

section Sizes

/-- The first test keeps only values of few bits, the second only values with ones
in all the others. -/
theorem smallest64_tests_exclusive {data literal : BitVec 64} {k : Nat} (low_literal : literal.toNat < 2 ^ k)
    (narrow : 2 ≤ k ∧ k ≤ 32) :
    ¬(data = data &&& (literal ||| data >>> 62) ∧ data = data ||| ~~~low 64 k) := by
  rintro ⟨kept, filled⟩
  have high : (data >>> 62).toNat < 2 ^ k := by
    have range := data.isLt
    have four : 2 ^ 2 ≤ 2 ^ k := Nat.pow_le_pow_right (by decide) narrow.1
    rw [BitVec.toNat_ushiftRight, Nat.shiftRight_eq_div_pow]
    omega
  have small : data.toNat < 2 ^ k := by
    rw [kept, BitVec.toNat_and, BitVec.toNat_or]
    exact Nat.lt_of_le_of_lt Nat.and_le_right (Nat.or_lt_two_pow low_literal high)
  have large := (or_high_eq_iff (by omega)).mp filled.symm
  have half : 2 ^ k ≤ 2 ^ 32 := Nat.pow_le_pow_right (by decide) narrow.2
  omega

theorem smallest64Size_eq (data : BitVec 64) : smallest64Size data = 64 := by
  have byte : ((1 : BitVec 64) <<< 63).sshiftRight 55 = ~~~low 64 8 := by decide
  have half : ((1 : BitVec 64) <<< 63).sshiftRight 47 = ~~~low 64 16 := by decide
  have word : ((1 : BitVec 64) <<< 63).sshiftRight 31 = ~~~low 64 32 := by decide
  rw [smallest64Size, byte, half, word, if_neg, if_neg, if_neg]
  · exact smallest64_tests_exclusive (by decide) (by decide)
  · exact smallest64_tests_exclusive (by decide) (by decide)
  · exact smallest64_tests_exclusive (by decide) (by decide)

theorem smallest32Size_eq (data : BitVec 32) :
    smallest32Size data = if data.toNat < 256 then 8 else if data.toNat < 65536 then 16 else 32 := by
  have byte : data = data &&& 0xFF ↔ data.toNat < 256 := eq_comm.trans (and_low_eq_iff (k := 8) (by decide))
  have half : data = data &&& 0xFFFF ↔ data.toNat < 65536 :=
    eq_comm.trans (and_low_eq_iff (k := 16) (by decide))
  simp only [smallest32Size, byte, half]

theorem smallest16Size_eq (data : BitVec 16) :
    smallest16Size data = if data.toNat < 256 then 8 else 16 := by
  have byte : data.setWidth 32 = data.setWidth 32 &&& 0xFF ↔ (data.setWidth 32).toNat < 256 :=
    eq_comm.trans (and_low_eq_iff (k := 8) (by decide))
  have range := data.isLt
  rw [BitVec.toNat_setWidth, Nat.mod_eq_of_lt (by omega)] at byte
  simp only [smallest16Size, byte]

/-- The three masks test for small negative values and pass no other. -/
theorem signedSmallest64Size_eq (data : BitVec 64) :
    signedSmallest64Size data =
      if -256 ≤ data.toInt ∧ data.toInt < 0 then 8
      else if -65536 ≤ data.toInt ∧ data.toInt < 0 then 16
      else if -4294967296 ≤ data.toInt ∧ data.toInt < 0 then 32 else 64 := by
  have byte : data = data ||| ((1 : BitVec 64) <<< 63).sshiftRight 55 ↔
      -256 ≤ data.toInt ∧ data.toInt < 0 := eq_comm.trans (or_high_eq_iff_toInt (k := 8) (by decide))
  have half : data = data ||| ((1 : BitVec 64) <<< 63).sshiftRight 47 ↔
      -65536 ≤ data.toInt ∧ data.toInt < 0 := eq_comm.trans (or_high_eq_iff_toInt (k := 16) (by decide))
  have word : data = data ||| ((1 : BitVec 64) <<< 63).sshiftRight 31 ↔
      -4294967296 ≤ data.toInt ∧ data.toInt < 0 :=
    eq_comm.trans (or_high_eq_iff_toInt (k := 32) (by decide))
  simp only [signedSmallest64Size, byte, half, word]

/-- The literal of the second test is one bit, so that this bit decides. -/
theorem signedSmallest32Size_eq (data : BitVec 32) :
    signedSmallest32Size data =
      if -256 ≤ data.toInt ∧ data.toInt < 0 then 8 else if data.getLsbD 16 then 16 else 32 := by
  have byte : data = data ||| ((1 : BitVec 32) <<< 31).sshiftRight 23 ↔
      -256 ≤ data.toInt ∧ data.toInt < 0 := eq_comm.trans (or_high_eq_iff_toInt (k := 8) (by decide))
  have half : data.signExtend 64 = data.signExtend 64 ||| ((1 : BitVec 64) <<< 31).sshiftRight 15 ↔
      data.getLsbD 16 = true := by
    have bit : (data.signExtend 64).getLsbD 16 = data.getLsbD 16 := by
      rw [BitVec.getLsbD_signExtend]
      rfl
    rw [← bit]
    exact eq_comm.trans (or_twoPow_eq_iff (k := 16) (by decide))
  simp only [signedSmallest32Size, byte, half]

/-- What is or-ed in is nothing for a value that is not negative, and so the first
test passes every such value. -/
theorem signedSmallest16Size_eq (data : BitVec 16) :
    signedSmallest16Size data = if -256 ≤ data.toInt then 8 else 16 := by
  have value : (data.signExtend 32).toInt = data.toInt := BitVec.toInt_signExtend_of_le (by decide)
  have sign : ((1 : BitVec 32) <<< 31) &&& data.signExtend 32 =
      if (data.signExtend 32).getLsbD 31 then BitVec.twoPow 32 31 else 0 :=
    BitVec.twoPow_and _ 31
  have negative : (data.signExtend 32).getLsbD 31 = decide (data.toInt < 0) := by
    rw [← value, ← BitVec.msb_eq_toInt, BitVec.msb_eq_getLsbD_last]
  rw [signedSmallest16Size]
  simp only [sign, negative, decide_eq_true_eq]
  by_cases below : data.toInt < 0
  · have byte : data.signExtend 32 = data.signExtend 32 ||| (BitVec.twoPow 32 31).sshiftRight 23 ↔
        -256 ≤ (data.signExtend 32).toInt ∧ (data.signExtend 32).toInt < 0 :=
      eq_comm.trans (or_high_eq_iff_toInt (k := 8) (by decide))
    have half : data.signExtend 32 = data.signExtend 32 ||| (BitVec.twoPow 32 31).sshiftRight 15 ↔
        -65536 ≤ (data.signExtend 32).toInt ∧ (data.signExtend 32).toInt < 0 :=
      eq_comm.trans (or_high_eq_iff_toInt (k := 16) (by decide))
    have range := BitVec.le_toInt data
    simp only [below, if_true, byte, half, value, and_true]
    rw [if_pos (show -65536 ≤ data.toInt by omega)]
  · rw [if_neg below, if_pos (by simp), if_pos (by omega)]

end Sizes

section Least

variable {signed : Bool} {width size : Nat} {data : BitVec width}

theorem fits_unsigned (bound : size ≤ width) : Fits false data size ↔ data.toNat < 2 ^ size := by
  rw [Fits, if_neg (by simp)]
  exact setWidth_eq_iff bound

theorem fits_signed (bound : size + 1 ≤ width) :
    Fits true data (size + 1) ↔ -2 ^ size ≤ data.toInt ∧ data.toInt < 2 ^ size := by
  rw [Fits, if_pos rfl]
  exact signExtend_eq_iff bound

theorem unsigned_fits_iff (data : BitVec width) (bound : 32 ≤ width) :
    (Fits false data 8 ↔ data.toNat < 256) ∧ (Fits false data 16 ↔ data.toNat < 65536) ∧
      (Fits false data 32 ↔ data.toNat < 4294967296) :=
  ⟨fits_unsigned (by omega), fits_unsigned (by omega), fits_unsigned bound⟩

theorem signed_fits_iff (data : BitVec width) (bound : 32 ≤ width) :
    (Fits true data 8 ↔ -128 ≤ data.toInt ∧ data.toInt < 128) ∧
      (Fits true data 16 ↔ -32768 ≤ data.toInt ∧ data.toInt < 32768) ∧
      (Fits true data 32 ↔ -2147483648 ≤ data.toInt ∧ data.toInt < 2147483648) :=
  ⟨fits_signed (by omega), fits_signed (by omega), fits_signed bound⟩

theorem leastSize_iff (byte_size : size ∈ [8, 16, 32, 64]) (bounded : size ≤ width) :
    LeastSize signed data size ↔
      Fits signed data size ∧ (8 < size → ¬Fits signed data 8) ∧
        (16 < size → ¬Fits signed data 16) ∧ (32 < size → ¬Fits signed data 32) := by
  constructor
  · intro law
    exact ⟨law.fits, law.least 8 (by simp), law.least 16 (by simp), law.least 32 (by simp)⟩
  · rintro ⟨fits, byte, half, word⟩
    refine ⟨byte_size, bounded, fits, ?_⟩
    intro smaller member less
    simp only [List.mem_cons, List.not_mem_nil, or_false] at member byte_size
    rcases member with rfl | rfl | rfl | rfl
    · exact byte less
    · exact half less
    · exact word less
    · omega

end Least

section Types

theorem signed16_least_iff (data : BitVec 16) :
    LeastSize true data (signedSmallest16Size data) ↔
      -128 ≤ data.toInt ∧ data.toInt < 128 ∨ data.toInt < -256 := by
  have byte : Fits true data 8 ↔ -128 ≤ data.toInt ∧ data.toInt < 128 := fits_signed (by decide)
  have half : Fits true data 16 ↔ -32768 ≤ data.toInt ∧ data.toInt < 32768 :=
    fits_signed (by decide)
  have lower := BitVec.le_toInt data
  have upper := BitVec.toInt_lt (x := data)
  rw [signedSmallest16Size_eq]
  split
  · rw [leastSize_iff (by simp) (by decide)]
    simp only [byte]
    omega
  · rw [leastSize_iff (by simp) (by decide)]
    simp only [byte, half]
    omega

theorem unsigned16_least (data : BitVec 16) : LeastSize false data (smallest16Size data) := by
  have byte : Fits false data 8 ↔ data.toNat < 256 := fits_unsigned (by decide)
  have half : Fits false data 16 ↔ data.toNat < 65536 := fits_unsigned (by decide)
  have range := data.isLt
  rw [smallest16Size_eq]
  split
  · rw [leastSize_iff (by simp) (by decide), byte]
    omega
  · rw [leastSize_iff (by simp) (by decide), byte, half]
    omega

theorem signed32_least_iff (data : BitVec 32) :
    LeastSize true data (signedSmallest32Size data) ↔
      -128 ≤ data.toInt ∧ data.toInt < 0 ∨ -32768 ≤ data.toInt ∧ data.toInt < -256 ∨
        (data.toInt < -32768 ∨ 32768 ≤ data.toInt) ∧ data.getLsbD 16 = false := by
  obtain ⟨byte, half, word⟩ := signed_fits_iff data (by decide)
  have range := data.isLt
  have value := BitVec.toInt_eq_toNat_cond data
  have bit : data.getLsbD 16 = decide (data.toNat / 65536 % 2 = 1) :=
    Nat.testBit_eq_decide_div_mod_eq
  have set : data.getLsbD 16 = true ↔ data.toNat / 65536 % 2 = 1 := by
    rw [bit, decide_eq_true_eq]
  have clear : data.getLsbD 16 = false ↔ ¬data.toNat / 65536 % 2 = 1 := by
    rw [bit, decide_eq_false_iff_not]
  rw [signedSmallest32Size_eq]
  simp only [set, clear]
  split at value
  · split
    · omega
    · split
      · rw [leastSize_iff (by simp) (by decide), byte, half]
        omega
      · rw [leastSize_iff (by simp) (by decide), byte, half, word]
        omega
  · split
    · rw [leastSize_iff (by simp) (by decide), byte]
      omega
    · split
      · rw [leastSize_iff (by simp) (by decide), byte, half]
        omega
      · rw [leastSize_iff (by simp) (by decide), byte, half, word]
        omega

theorem unsigned32_least (data : BitVec 32) : LeastSize false data (smallest32Size data) := by
  obtain ⟨byte, half, word⟩ := unsigned_fits_iff data (by decide)
  have range := data.isLt
  rw [smallest32Size_eq]
  split
  · rw [leastSize_iff (by simp) (by decide), byte]
    omega
  · split
    · rw [leastSize_iff (by simp) (by decide), byte, half]
      omega
    · rw [leastSize_iff (by simp) (by decide), byte, half, word]
      omega

/-- The sizes that `signed_smallest_64_size` reports for another value than the one
to be stored; for the value itself they are these too. -/
theorem signed64_least_iff (data other : BitVec 64) :
    LeastSize true data (signedSmallest64Size other) ↔
      -128 ≤ data.toInt ∧ data.toInt < 128 ∧ -256 ≤ other.toInt ∧ other.toInt < 0 ∨
        -32768 ≤ data.toInt ∧ data.toInt < 32768 ∧ (data.toInt < -128 ∨ 128 ≤ data.toInt) ∧
          -65536 ≤ other.toInt ∧ other.toInt < -256 ∨
        -2147483648 ≤ data.toInt ∧ data.toInt < 2147483648 ∧
          (data.toInt < -32768 ∨ 32768 ≤ data.toInt) ∧
          -4294967296 ≤ other.toInt ∧ other.toInt < -65536 ∨
        (data.toInt < -2147483648 ∨ 2147483648 ≤ data.toInt) ∧
          (other.toInt < -4294967296 ∨ 0 ≤ other.toInt) := by
  obtain ⟨byte, half, word⟩ := signed_fits_iff data (by decide)
  have whole : Fits true data 64 ↔ -2 ^ 63 ≤ data.toInt ∧ data.toInt < 2 ^ 63 :=
    fits_signed (by decide)
  have lower := BitVec.le_toInt data
  have upper := BitVec.toInt_lt (x := data)
  rw [signedSmallest64Size_eq]
  split
  · rw [leastSize_iff (by simp) (by decide), byte]
    omega
  · split
    · rw [leastSize_iff (by simp) (by decide), byte, half]
      omega
    · split
      · rw [leastSize_iff (by simp) (by decide), byte, half, word]
        omega
      · rw [leastSize_iff (by simp) (by decide), byte, half, word, whole]
        omega

theorem unsigned64_least_iff (data : BitVec 64) :
    LeastSize false data (smallest64Size data) ↔ 4294967296 ≤ data.toNat := by
  obtain ⟨byte, half, word⟩ := unsigned_fits_iff data (by decide)
  have whole : Fits false data 64 ↔ data.toNat < 2 ^ 64 := fits_unsigned (by decide)
  have range := data.isLt
  rw [smallest64Size_eq, leastSize_iff (by simp) (by decide), byte, half, word, whole]
  omega

end Types

section Optimize

variable {data : Memory} {numBytes : UInt8}

theorem bitsAt_setWidth : (bitsAt data 64).setWidth 16 = bitsAt data 16 := by
  have split : LittleEndian.decode (data.load 0 8) =
      LittleEndian.decode (data.load 0 2) + 65536 * LittleEndian.decode (data.load 2 6) := by
    rw [Memory.load_add data 0 2 6, LittleEndian.decode_append, Memory.load_length]
    rfl
  apply BitVec.eq_of_toNat_eq
  simp only [bitsAt, BitVec.toNat_setWidth, BitVec.toNat_ofNat, Nat.reduceDiv, split]
  omega

theorem bit15_eq (data : BitVec 64) : data.getLsbD 15 = decide (32768 ≤ data.toNat % 65536) := by
  have parts : data.toNat / 32768 = 2 * (data.toNat / 65536) + data.toNat % 65536 / 32768 := by omega
  have bit : data.getLsbD 15 = decide (data.toNat / 32768 % 2 = 1) :=
    Nat.testBit_eq_decide_div_mod_eq
  rw [bit, decide_eq_decide]
  omega

/-- What the arm for `INT64` reads is the value cut to 16 bits. -/
theorem bitsAt_arm_toInt :
    ((bitsAt data 16).signExtend 64).toInt =
      if (bitsAt data 64).getLsbD 15 then (((bitsAt data 64).toNat % 65536 : Nat) : Int) - 65536
      else (((bitsAt data 64).toNat % 65536 : Nat) : Int) := by
  rw [BitVec.toInt_signExtend_of_le (by decide), ← bitsAt_setWidth, BitVec.toInt_eq_toNat_cond,
    BitVec.toNat_setWidth, bit15_eq]
  simp only [decide_eq_true_eq]
  split <;> split <;> omega

end Optimize

/-- When the sizes for a type are right: for 16 and 32 unsigned bits always, else only
where the masks happen to test for the right values. -/
def IntType.SizedRight : (type : IntType) → BitVec type.width → Prop
  | .uint16, _ | .uint32, _ => True
  | .uint64, data => 4294967296 ≤ data.toNat
  | .int16, data => -128 ≤ data.toInt ∧ data.toInt < 128 ∨ data.toInt < -256
  | .int32, data =>
      -128 ≤ data.toInt ∧ data.toInt < 0 ∨ -32768 ≤ data.toInt ∧ data.toInt < -256 ∨
        (data.toInt < -32768 ∨ 32768 ≤ data.toInt) ∧ data.getLsbD 16 = false
  | .int64, data =>
      -128 ≤ data.toInt ∧ data.toInt < 0 ∨ -32768 ≤ data.toInt ∧ data.toInt < -256 ∨
        (data.toInt < -4294967296 ∨ 2147483648 ≤ data.toInt) ∧ data.getLsbD 15 = false

section Law

variable {data : Memory} {numBytes : UInt8}

/-- The size that the arm for a type stores. -/
def IntType.storedSize (data : Memory) : IntType → Nat
  | .int64 => signedSmallest64Size ((bitsAt data 16).signExtend 64)
  | .int16 => signedSmallest16Size (bitsAt data 16)
  | .uint16 => smallest16Size (bitsAt data 16)
  | .int32 => signedSmallest32Size (bitsAt data 32)
  | .uint32 => smallest32Size (bitsAt data 32)
  | .uint64 => smallest64Size (bitsAt data 64)

theorem optimizeInt_eq (type : IntType) :
    optimizeInt type.code data numBytes =
      (if UInt8.ofNat (type.storedSize data) = numBytes then 1 else 0,
        UInt8.ofNat (type.storedSize data)) := by
  cases type <;> rfl

theorem storedSize_lt (type : IntType) : type.storedSize data < 256 := by
  cases type with
  | int16 => simp only [IntType.storedSize, signedSmallest16Size_eq]; split <;> decide
  | uint16 => simp only [IntType.storedSize, smallest16Size_eq]; split <;> decide
  | uint64 => simp only [IntType.storedSize, smallest64Size_eq]; decide
  | int32 =>
      simp only [IntType.storedSize, signedSmallest32Size_eq]
      split
      · decide
      · split <;> decide
  | uint32 =>
      simp only [IntType.storedSize, smallest32Size_eq]
      split
      · decide
      · split <;> decide
  | int64 =>
      simp only [IntType.storedSize, signedSmallest64Size_eq]
      split
      · decide
      · split
        · decide
        · split <;> decide

theorem sizeLaw_iff_stored (type : IntType) :
    SizeLaw type data numBytes ↔
      LeastSize type.signed (bitsAt data type.width) (type.reportedSize (bitsAt data type.width)) ∧
        LeastSize type.signed (bitsAt data type.width) (type.storedSize data) := by
  have stored : (optimizeInt type.code data numBytes).2.toNat = type.storedSize data := by
    rw [optimizeInt_eq]
    exact UInt8.toNat_ofNat_of_lt' (storedSize_lt type)
  constructor
  · intro law
    exact ⟨law.reported, stored ▸ law.stored⟩
  · rintro ⟨reported, least⟩
    refine ⟨reported, stored.symm ▸ least, ?_⟩
    rw [optimizeInt_eq]
    split <;> simp [*]

/-- Both sizes for an `INT64` are right: that for the value and that for its low bits. -/
theorem int64_least_iff :
    LeastSize true (bitsAt data 64) (signedSmallest64Size (bitsAt data 64)) ∧
        LeastSize true (bitsAt data 64) (signedSmallest64Size ((bitsAt data 16).signExtend 64)) ↔
      -128 ≤ (bitsAt data 64).toInt ∧ (bitsAt data 64).toInt < 0 ∨
        -32768 ≤ (bitsAt data 64).toInt ∧ (bitsAt data 64).toInt < -256 ∨
        ((bitsAt data 64).toInt < -4294967296 ∨ 2147483648 ≤ (bitsAt data 64).toInt) ∧
          (bitsAt data 64).getLsbD 15 = false := by
  have arm := @bitsAt_arm_toInt data
  have value := BitVec.toInt_eq_toNat_cond (bitsAt data 64)
  have range := (bitsAt data 64).isLt
  have bit := bit15_eq (bitsAt data 64)
  rw [signed64_least_iff, signed64_least_iff]
  cases set : (bitsAt data 64).getLsbD 15 with
  | true =>
      rw [set] at arm bit
      have odd := of_decide_eq_true bit.symm
      simp only [if_true] at arm
      simp only [Bool.true_eq_false, and_false, or_false]
      split at value <;> omega
  | false =>
      rw [set] at arm bit
      have even := of_decide_eq_false bit.symm
      simp only [Bool.false_eq_true, if_false] at arm
      simp only [and_true]
      split at value <;> omega

end Law

/-- `optimize_int` and the size functions are right exactly for the values that the
masks happen to classify. -/
theorem optimizeInt_sizeLaw_iff (type : IntType) (data : Memory) (numBytes : UInt8) :
    SizeLaw type data numBytes ↔ type.SizedRight (bitsAt data type.width) := by
  rw [sizeLaw_iff_stored]
  cases type with
  | int16 => exact and_self_iff.trans (signed16_least_iff _)
  | uint16 => exact and_self_iff.trans (iff_true_intro (unsigned16_least _))
  | int32 => exact and_self_iff.trans (signed32_least_iff _)
  | uint32 => exact and_self_iff.trans (iff_true_intro (unsigned32_least _))
  | uint64 => exact and_self_iff.trans (unsigned64_least_iff _)
  | int64 => exact int64_least_iff

/-- The value 1000 is reported to fit in 8 bits, and so are all of `int16_t` from 128 on. -/
theorem optimizeInt_loses_data :
    ¬SizeLaw .int16 (Memory.store16 (fun _ => 0) 0 1000) 16 := by
  intro law
  exact absurd law.reported.fits (by decide)

end Sentinet.Messages
