import Sentinet.Data.Reading
import Sentinet.Messages.Keys

namespace Sentinet.Messages

open Sentinet.Data

/-- `data_buffer`.  Position 0 of `data` is the first byte of the storage array;
positions from `messageSize` on are the memory behind that array. -/
structure DataBuffer where
  protocolVersion : UInt8
  opcode : UInt8
  functionalFlags : UInt16
  checksum : UInt16
  byteLength : UInt32
  fields : UInt16
  data : Memory

/-- `to_wire` on a buffer, which is never null here; it returns 0. -/
def toWire (buffer : DataBuffer) : DataBuffer :=
  let data := buffer.data.store8 protPos buffer.protocolVersion
  let data := data.store8 opPos buffer.opcode
  let data := data.store16 funcPos (host16 buffer.functionalFlags)
  let data := data.store16 magPos (host16 buffer.checksum)
  let data := data.store32 bytePos (host32 buffer.byteLength)
  let data := data.store16 fldPos (host16 buffer.fields)
  { buffer with data }

/-- `create_buffer`.  The `memset` clears the whole structure. -/
def createBuffer : DataBuffer :=
  toWire
    { protocolVersion := protocolVersion
      opcode := dataPacket
      functionalFlags := 0
      checksum := 0
      byteLength := UInt32.ofNat dataHeaderSize
      fields := 0
      data := fun _ => 0 }

/-! The copy loops of the default branches.  A `Reading` walks the source; the
destination is the memory written so far. -/

/-- `while (num_bytes >= 4) { *destl++ = *sourcel++; num_bytes -= 4; }`: each
round moves eight bytes. -/
def copyLongs (destination : Memory) (destl sourcel : Nat) :
    (numBytes : Nat) → Reading (Memory × Nat × Nat × Nat)
  | numBytes + 4 => do
      let long ← Reading.word64 sourcel
      copyLongs (destination.store64 destl long) (destl + 8) (sourcel + 8) numBytes
  | numBytes => return (destination, destl, sourcel, numBytes)

/-- `while (num_bytes--) *head++ = *source++;` -/
def copyBytes (destination : Memory) (head source : Nat) :
    (numBytes : Nat) → Reading (Memory × Nat)
  | numBytes + 1 => do
      let byte ← Reading.byte source
      copyBytes (destination.store8 head byte) (head + 1) (source + 1) numBytes
  | 0 => return (destination, head)

/-- The test that chooses the long loop: no bit of `0xFFFFFFFC` in the first
eight bytes of the source or of the destination. -/
def smallLong (long : UInt64) : Bool := long &&& 0xFFFFFFFC == 0

def copyDefault (destination : Memory) (head source numBytes : Nat) : Reading (Memory × Nat) := do
  let sourcel ← Reading.word64 source
  if smallLong sourcel && smallLong (destination.load64 head) then
    let (destination, head, source, numBytes) ← copyLongs destination head source numBytes
    copyBytes destination head source numBytes
  else
    copyBytes destination head source numBytes

def serializePayload (source : Memory) (numBytes : UInt8) (typeCode : TypeCode)
    (data : Memory) (head : Nat) : Memory × Nat :=
  if typeCode ∈ [TypeCode.int32, TypeCode.uint32, TypeCode.float] then
    (data.store32 head (source.load32 0), head + 4)
  else if typeCode ∈ [TypeCode.char, TypeCode.uint8, TypeCode.int8, TypeCode.byteType] then
    (data.store8 head (source 0), head + 1)
  else if typeCode ∈ [TypeCode.int16, TypeCode.bool] then
    (data.store16 head (source.load16 0), head + 2)
  else
    (copyDefault data head 0 numBytes.toNat).run source

/-- The acceptance test of `serialize_data`, in 32-bit arithmetic. -/
def DataBuffer.hasRoom (buffer : DataBuffer) (numBytes : UInt8) : Bool :=
  3 + numBytes.toUInt32 + buffer.byteLength < UInt32.ofNat messageSize

/-- `serialize_data`; a null `data` is `none`.  Both exits return 0. -/
def serializeData (buffer : DataBuffer) (data : Option Memory) (numBytes : UInt8)
    (typeCode : TypeCode) : DataBuffer :=
  match data with
  | none => buffer
  | some source =>
      if buffer.hasRoom numBytes then
        let head := buffer.byteLength.toNat
        let stored := (buffer.data.store8 head numBytes).store8 (head + 1) typeCode
        let (stored, head) := serializePayload source numBytes typeCode stored (head + 2)
        { buffer with
          byteLength := buffer.byteLength + (3 + numBytes.toUInt32)
          fields := buffer.fields + 1
          data := stored.store8 head 0 }
      else buffer

/-- `element`; `data` is the distance from the start of the buffer. -/
structure Element where
  size : UInt8
  typeCode : TypeCode
  data : Nat
deriving DecidableEq, Repr

/-- The error exits of `get_data`, each of which returns `(element){ 0 }` with
the destination untouched.  The remaining tests of the source compare pointers
into a non-null buffer with null and never fire. -/
inductive DataError where
  | invalidData | invalidDestination | invalidIndex | invalidTerminator
deriving DecidableEq, Repr

/-- The loop of `get_data` over the elements before the wanted one; `i` is the
position relative to `data_head`. -/
def skipElements : (remaining i : Nat) → Reading (Except DataError Nat)
  | 0, i => return .ok i
  | remaining + 1, i => do
      let size ← Reading.byte (dtPos + i)
      let terminator ← Reading.byte (dtPos + (i + 2 + size.toNat))
      if terminator != 0 then return .error .invalidTerminator
      else skipElements remaining (i + 2 + size.toNat + 1)

def getPayload (destination : Memory) (position : Nat) (size : UInt8) (typeCode : TypeCode) :
    Reading Memory :=
  if typeCode ∈ [TypeCode.int32, TypeCode.uint32, TypeCode.float] then do
    let word ← Reading.word32 position
    return destination.store32 0 word
  else if typeCode ∈ [TypeCode.char, TypeCode.uint8, TypeCode.int8, TypeCode.byteType] then do
    let byte ← Reading.byte position
    return destination.store8 0 byte
  else if typeCode ∈ [TypeCode.int16, TypeCode.bool] then do
    let word ← Reading.word16 position
    return destination.store16 0 word
  else do
    let (destination, _) ← copyDefault destination 0 position size.toNat
    return destination

def readElement (destination : Memory) (index : Nat) :
    Reading (Except DataError (Element × Memory)) := do
  let fields ← Reading.word16 fldPos
  if (host16 fields).toNat ≥ maxFields || index ≥ (host16 fields).toNat then
    return .error .invalidIndex
  else
    match ← skipElements index 0 with
    | .error error => return .error error
    | .ok i =>
        let size ← Reading.byte (dtPos + i)
        let typeCode ← Reading.byte (dtPos + i + 1)
        let destination ← getPayload destination (dtPos + i + 2) size typeCode
        return .ok ({ size, typeCode, data := dtPos + i + 2 }, destination)

/-- `get_data`; null pointers are `none`. -/
def getData (data destination : Option Memory) (index : Nat) :
    Except DataError (Element × Memory) :=
  match data, destination with
  | none, _ => .error .invalidData
  | some _, none => .error .invalidDestination
  | some data, some destination => (readElement destination index).run data

end Sentinet.Messages
