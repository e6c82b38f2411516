import Sentinet.Messages.DataMessage

namespace Sentinet.Messages

open Sentinet.Data

/-! What the two switches over the type code move: in every case a prefix of the
source, whose length is the only thing that depends on the case. -/

variable {source destination data memory : Memory} {head position width : Nat}
  {typeCode : TypeCode}

theorem copyBytes_run (destination : Memory) (head position numBytes : Nat) :
    (copyBytes destination head position numBytes).run source =
      (destination.store head (source.load position numBytes), head + numBytes) := by
  induction numBytes generalizing destination head position with
  | zero => simp [copyBytes]
  | succ numBytes ih =>
      rw [Memory.load_succ, ← List.singleton_append, Memory.store_append]
      simp only [copyBytes, Reading.run_bind, Reading.run_byte, ih, Memory.store8,
        List.length_singleton, Nat.add_assoc, Nat.add_comm 1]

/-- The long loop counts down in fours and moves eight bytes each time. -/
theorem copyLongs_run (destination : Memory) (head position numBytes : Nat) :
    (copyLongs destination head position numBytes).run source =
      (destination.store head (source.load position (8 * (numBytes / 4))),
        head + 8 * (numBytes / 4), position + 8 * (numBytes / 4), numBytes % 4) := by
  induction numBytes using Nat.strongRecOn generalizing destination head position with
  | ind numBytes ih =>
      by_cases more : 4 ≤ numBytes
      · obtain ⟨rest, rfl⟩ := Nat.exists_eq_add_of_le' more
        have rounds : 8 * ((rest + 4) / 4) = 8 + 8 * (rest / 4) := by omega
        have remainder : (rest + 4) % 4 = rest % 4 := by omega
        rw [rounds, remainder, Memory.load_add, Memory.store_append, Memory.load_length]
        simp only [copyLongs, Reading.run_bind, Reading.run_word64, Memory.store64_load64,
          ih rest (by omega), Nat.add_assoc]
      · have last : numBytes = 0 ∨ numBytes = 1 ∨ numBytes = 2 ∨ numBytes = 3 := by omega
        rcases last with rfl | rfl | rfl | rfl <;> simp [copyLongs]

def takesLongs (source : Memory) (position : Nat) (destination : Memory) (head : Nat) : Bool :=
  smallLong (source.load64 position) && smallLong (destination.load64 head)

def copyCount (longs : Bool) (numBytes : Nat) : Nat :=
  if longs then 8 * (numBytes / 4) + numBytes % 4 else numBytes

theorem copyDefault_run (numBytes : Nat) :
    (copyDefault destination head position numBytes).run source =
      (destination.store head
          (source.load position (copyCount (takesLongs source position destination head) numBytes)),
        head + copyCount (takesLongs source position destination head) numBytes) := by
  cases longs : takesLongs source position destination head with
  | true =>
      have guard : (smallLong (source.load64 position) &&
        smallLong (destination.load64 head)) = true := longs
      simp only [copyDefault, Reading.run_bind, Reading.run_word64, guard, if_true, copyLongs_run,
        copyBytes_run, copyCount, Memory.load_add, Memory.store_append, Memory.load_length,
        Nat.add_assoc]
  | false =>
      have guard : (smallLong (source.load64 position) &&
        smallLong (destination.load64 head)) = false := longs
      simp only [copyDefault, Reading.run_bind, Reading.run_word64, guard, Bool.false_eq_true, if_false,
        copyBytes_run, copyCount]

/-- The width of the type codes with a case of their own in both switches. -/
def fixedWidth (typeCode : TypeCode) : Option Nat :=
  if typeCode ∈ [TypeCode.int32, TypeCode.uint32, TypeCode.float] then some 4
  else if typeCode ∈ [TypeCode.char, TypeCode.uint8, TypeCode.int8, TypeCode.byteType] then some 1
  else if typeCode ∈ [TypeCode.int16, TypeCode.bool] then some 2
  else none

def movedCount (typeCode : TypeCode) (longs : Bool) (numBytes : Nat) : Nat :=
  (fixedWidth typeCode).getD (copyCount longs numBytes)

theorem movedCount_fixed {longs : Bool} {numBytes : Nat} (fixed : fixedWidth typeCode = some width) :
    movedCount typeCode longs numBytes = width := by
  simp [movedCount, fixed]

theorem movedCount_default {longs : Bool} {numBytes : Nat} (default : fixedWidth typeCode = none) :
    movedCount typeCode longs numBytes = copyCount longs numBytes := by
  simp [movedCount, default]

theorem getPayload_run (size : UInt8) :
    (getPayload destination position size typeCode).run source =
      destination.store 0 (source.load position
        (movedCount typeCode (takesLongs source position destination 0) size.toNat)) := by
  unfold getPayload movedCount fixedWidth
  by_cases word : typeCode ∈ [TypeCode.int32, TypeCode.uint32, TypeCode.float]
  · simp [word, Memory.store32_load32]
  by_cases byte : typeCode ∈ [TypeCode.char, TypeCode.uint8, TypeCode.int8, TypeCode.byteType]
  · simp [word, byte, Memory.store8, Memory.load]
  by_cases half : typeCode ∈ [TypeCode.int16, TypeCode.bool]
  · simp [word, byte, half, Memory.store16_load16]
  · simp only [word, byte, half, if_false, Reading.run_bind, copyDefault_run, Reading.run_pure,
      Option.getD_none]

theorem serializePayload_eq (numBytes : UInt8) :
    serializePayload source numBytes typeCode data head =
      (data.store head (source.load 0
          (movedCount typeCode (takesLongs source 0 data head) numBytes.toNat)),
        head + movedCount typeCode (takesLongs source 0 data head) numBytes.toNat) := by
  unfold serializePayload movedCount fixedWidth
  by_cases word : typeCode ∈ [TypeCode.int32, TypeCode.uint32, TypeCode.float]
  · simp [word, Memory.store32_load32]
  by_cases byte : typeCode ∈ [TypeCode.char, TypeCode.uint8, TypeCode.int8, TypeCode.byteType]
  · simp [word, byte, Memory.store8, Memory.load]
  by_cases half : typeCode ∈ [TypeCode.int16, TypeCode.bool]
  · simp [word, byte, half, Memory.store16_load16]
  · simp only [word, byte, half, if_false, copyDefault_run, Option.getD_none]

/-- The bytes an accepted `serialize_data` stores in one stretch, starting at
the old byte length: size, type code, the moved bytes and the terminator. -/
def appendedBytes (buffer : DataBuffer) (source : Memory) (numBytes : UInt8) (typeCode : TypeCode) :
    List UInt8 :=
  numBytes :: typeCode :: (source.load 0 (movedCount typeCode
    (takesLongs source 0 buffer.data (buffer.byteLength.toNat + 2)) numBytes.toNat) ++ [0])

theorem takesLongs_store_below {start : Nat} {value : UInt8} (below : start < head) :
    takesLongs source position (destination.store8 start value) head =
      takesLongs source position destination head := by
  have same : (destination.store8 start value).load64 head = destination.load64 head :=
    Memory.load64_congr fun address lower _ => Memory.store8_outside (by omega)
  rw [takesLongs, same, takesLongs]

theorem serializeData_accepted {buffer : DataBuffer} {numBytes : UInt8}
    (room : buffer.hasRoom numBytes = true) :
    serializeData buffer (some source) numBytes typeCode =
      { buffer with
        byteLength := buffer.byteLength + (3 + numBytes.toUInt32)
        fields := buffer.fields + 1
        data := buffer.data.store buffer.byteLength.toNat
          (appendedBytes buffer source numBytes typeCode) } := by
  simp only [serializeData, room, if_true, serializePayload_eq]
  rw [takesLongs_store_below (by omega), takesLongs_store_below (by omega)]
  congr 1
  have stretch (moved : List UInt8) : numBytes :: typeCode :: (moved ++ [0]) =
      [numBytes] ++ ([typeCode] ++ (moved ++ [0])) := rfl
  rw [appendedBytes, stretch, Memory.store_append, Memory.store_append, Memory.store_append,
    Memory.load_length]
  rfl

theorem serializeData_rejected {buffer : DataBuffer} {source : Option Memory} {numBytes : UInt8}
    (full : buffer.hasRoom numBytes = false) :
    serializeData buffer source numBytes typeCode = buffer := by
  cases source <;> simp [serializeData, full]

end Sentinet.Messages
