import Sentinet.Data.Reading
import Sentinet.Messages.Keys

namespace Sentinet.Messages

open Sentinet.Data

/-! `ping_message_keys.h` and `ping_message.c`: messages of one fixed layout. -/

def pingHeaderSize : Nat := 11

namespace PingType

def undef : UInt8 := 0
def ack : UInt8 := 1
def invalidRequest : UInt8 := 3
def stateRequest : UInt8 := 8

end PingType

def maxPingType : UInt8 := PingType.stateRequest

/-! The fields have the widths 1, 1, 1, 2, 2 and 8. -/

def protoPosPing : Nat := 0
def opPosPing : Nat := protoPosPing + 1
def typePosPing : Nat := opPosPing + 1
def codePosPing : Nat := typePosPing + 1
def checkPosPing : Nat := codePosPing + 2
def excessPosPing : Nat := checkPosPing + 2
def pingMessageSize : Nat := excessPosPing + 8

structure PingBuffer where
  prot : UInt8
  op : UInt8
  type : UInt8
  code : UInt16
  check : UInt16
  excess : UInt64
  data : Memory

def createBufferPing : PingBuffer :=
  { prot := protocolVersion, op := ping, type := 0, code := 0, check := 0, excess := 0,
    data := fun _ => 0 }

/-! The getters.  Each reads the protocol version again, and only version 1 has
a layout; the two type fields are cut to zero above the largest ping type. -/

def getProtocolVersionPing : Reading UInt8 := Reading.byte 0

def limitedByte (position : Nat) : Reading UInt8 := do
  let ret ← Reading.byte position
  return if ret ≤ maxPingType then ret else 0

def getOpcodeImplPing (protocolVersion : UInt8) : Reading UInt8 :=
  if protocolVersion = 1 then limitedByte opPosPing else return 0

def getTypeImplPing (protocolVersion : UInt8) : Reading UInt8 :=
  if protocolVersion = 1 then limitedByte typePosPing else return 0

def getCodeImplPing (protocolVersion : UInt8) : Reading UInt16 :=
  if protocolVersion = 1 then Reading.word16 codePosPing else return 0

def getChecksumImplPing (protocolVersion : UInt8) : Reading UInt16 :=
  if protocolVersion = 1 then Reading.word16 checkPosPing else return 0

def getExcessImplPing (protocolVersion : UInt8) : Reading UInt64 :=
  if protocolVersion = 1 then Reading.word64 excessPosPing else return 0

def pingData (buffer : PingBuffer) : Memory :=
  let data := buffer.data.store8 protoPosPing buffer.prot
  let data := data.store8 opPosPing buffer.op
  let data := data.store8 typePosPing buffer.type
  let data := data.store16 codePosPing buffer.code
  let data := data.store16 checkPosPing buffer.check
  data.store64 excessPosPing buffer.excess

/-- `to_wire_ping` on a buffer that exists. -/
def toWirePing (buffer : PingBuffer) : PingBuffer :=
  { buffer with data := pingData buffer }

/-- The reads that `serialize_from_ping` makes through its source. -/
def readPing (destination : PingBuffer) : Reading PingBuffer := do
  let prot ← getProtocolVersionPing
  let op ← getProtocolVersionPing >>= getOpcodeImplPing
  let type ← getProtocolVersionPing >>= getTypeImplPing
  let code ← getProtocolVersionPing >>= getCodeImplPing
  let check ← getProtocolVersionPing >>= getChecksumImplPing
  let excess ← getProtocolVersionPing >>= getExcessImplPing
  return { destination with prot, op, type, code, check, excess }

/-- `serialize_from_ping` into a buffer that exists; `none` is a null source. -/
def serializeFromPing (destination : PingBuffer) (source : Option Memory) : Errno × PingBuffer :=
  match source with
  | some source => (.ok, (readPing destination).run source)
  | none => (.einval, destination)

/-- `std::string(data, PING_HEADER_SIZE)` -/
def pingString (data : Memory) : List UInt8 := data.load 0 pingHeaderSize

/-! What reaches the other end.  The string stops inside the excess word, so its
upper half comes from the terminator and the memory behind the string. -/

section Wire

variable {buffer destination : PingBuffer} {memory behind : Memory}

@[simp] theorem pingString_length : (pingString memory).length = 11 := by
  simp [pingString, pingHeaderSize]

theorem pingData_prot : pingData buffer 0 = buffer.prot := by
  simp (disch := decide) [pingData, protoPosPing, opPosPing, typePosPing, codePosPing, checkPosPing,
    excessPosPing, Memory.store64_outside, Memory.store16_outside, Memory.store8_outside]

theorem pingData_type : pingData buffer 2 = buffer.type := by
  simp (disch := decide) [pingData, protoPosPing, opPosPing, typePosPing, codePosPing, checkPosPing,
    excessPosPing, Memory.store64_outside, Memory.store16_outside]

theorem pingData_code : (pingData buffer).load16 3 = buffer.code := by
  have untouched : (pingData buffer).load16 3 =
      (((((buffer.data.store8 0 buffer.prot).store8 1 buffer.op).store8 2 buffer.type).store16 3
        buffer.code).load16 3) := by
    apply Memory.load16_congr
    intro address lower upper
    exact (Memory.store64_outside (Or.inl (by change address < 7; omega))).trans
      (Memory.store16_outside (Or.inl (by change address < 5; omega)))
  rw [untouched, Memory.load16_store16]

theorem pingData_excess : (pingData buffer).load64 7 = buffer.excess :=
  Memory.load64_store64 buffer.excess

theorem readPing_run (destination : PingBuffer) (version : memory 0 = 1)
    (limited : memory 2 ≤ maxPingType) :
    ((readPing destination).run memory).type = memory 2 ∧
      ((readPing destination).run memory).code = memory.load16 3 ∧
      ((readPing destination).run memory).excess = memory.load64 7 := by
  simp [readPing, getProtocolVersionPing, getOpcodeImplPing, getTypeImplPing, getCodeImplPing,
    getChecksumImplPing, getExcessImplPing, limitedByte, version, limited, protoPosPing, opPosPing,
    typePosPing, codePosPing, checkPosPing, excessPosPing]

/-- Decoding any version 1 message reads up to the end of the excess word. -/
theorem readPing_touched (version : memory 0 = 1) :
    14 ∈ (readPing destination).touched memory := by
  simp [readPing, getProtocolVersionPing, getOpcodeImplPing, getTypeImplPing, getCodeImplPing,
    getChecksumImplPing, getExcessImplPing, version, protoPosPing, opPosPing,
    typePosPing, codePosPing, checkPosPing, excessPosPing]

/-- Only the version decides how far decoding reads. -/
theorem readPing_staysBelow {bound : Nat} :
    (readPing destination).StaysBelow bound memory ↔
      1 ≤ bound ∧ (memory 0 = 1 → pingMessageSize ≤ bound) := by
  have size : pingMessageSize = 15 := rfl
  by_cases version : memory 0 = 1
  · simp [readPing, getProtocolVersionPing, getOpcodeImplPing, getTypeImplPing, getCodeImplPing,
      getChecksumImplPing, getExcessImplPing, limitedByte, version, opPosPing, typePosPing,
      codePosPing, checkPosPing, excessPosPing, protoPosPing, Reading.staysBelow_bind,
      Reading.staysBelow_pure, Reading.staysBelow_byte, Reading.staysBelow_word16,
      Reading.staysBelow_word64, size]
    omega
  · simp [readPing, getProtocolVersionPing, getOpcodeImplPing, getTypeImplPing, getCodeImplPing,
      getChecksumImplPing, getExcessImplPing, version, Reading.staysBelow_bind,
      Reading.staysBelow_pure, Reading.staysBelow_byte]

/-- The word that the bytes behind the string make of the excess's upper half. -/
def excessBehind (behind : Memory) : Nat :=
  LittleEndian.decode [0, behind 12, behind 13, behind 14]

theorem ofString_pingString {address : Nat} (inside : address < 11) :
    Memory.ofString (pingString memory) behind address = memory address := by
  rw [Memory.ofString_inside (by simpa using inside)]
  simp [pingString, Memory.load]

/-- The lower half of the excess travels in the string, the upper half does not. -/
theorem pingString_excess :
    ((Memory.ofString (pingString memory) behind).load64 7).toNat =
      (memory.load64 7).toNat % 2 ^ 32 + 2 ^ 32 * excessBehind behind := by
  have lower : (Memory.ofString (pingString memory) behind).load 7 4 = memory.load 7 4 :=
    Memory.load_ofString_load (by decide)
  have terminator : Memory.ofString (pingString memory) behind 11 = 0 := by
    have stored : Memory.ofString (pingString memory) behind (pingString memory).length = 0 :=
      Memory.ofString_terminator
    rwa [pingString_length] at stored
  have beyond : ∀ address, 11 < address →
      Memory.ofString (pingString memory) behind address = behind address := fun address outside =>
    Memory.ofString_behind (by simpa using outside)
  have upper : (Memory.ofString (pingString memory) behind).load 11 4 =
      [0, behind 12, behind 13, behind 14] := by
    rw [← terminator, ← beyond 12 (by decide), ← beyond 13 (by decide), ← beyond 14 (by decide)]
    rfl
  have bound := Memory.decode_load_lt memory 7 4
  rw [Memory.load64_split, lower, upper, Memory.load64_split memory, excessBehind]
  omega

theorem pingString_excess_iff (memory behind : Memory) :
    (Memory.ofString (pingString memory) behind).load64 7 = memory.load64 7 ↔
      excessBehind behind = (memory.load64 7).toNat / 2 ^ 32 := by
  rw [← UInt64.toNat_inj, pingString_excess]
  omega

end Wire

end Sentinet.Messages
