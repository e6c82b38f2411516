import Sentinet.Data.Run
import Sentinet.Messages.Segments

namespace Sentinet.Messages

open Sentinet.Data

/-! Runs of `serialize_data` and `to_wire` on one buffer, and what the buffer
holds after them. -/

inductive BufferCall where
  | serializeData (data : Option Memory) (numBytes : UInt8) (typeCode : TypeCode)
  | toWire

def BufferCall.apply (buffer : DataBuffer) : BufferCall → DataBuffer
  | .serializeData data numBytes typeCode => Messages.serializeData buffer data numBytes typeCode
  | .toWire => Messages.toWire buffer

section Bounds

variable {buffer : DataBuffer} {numBytes : UInt8}

theorem hasRoom_iff (bounded : buffer.byteLength.toNat < messageSize) :
    buffer.hasRoom numBytes = true ↔
      buffer.byteLength.toNat + 3 + numBytes.toNat < messageSize := by
  have small := numBytes.toNat_lt
  have size : (UInt32.ofNat messageSize).toNat = 256 := rfl
  simp only [messageSize] at bounded ⊢
  simp only [DataBuffer.hasRoom, decide_eq_true_eq, UInt32.lt_iff_toNat_lt, UInt32.toNat_add, size,
    UInt8.toNat_toUInt32, UInt32.reduceToNat]
  omega

theorem byteLength_accepted (bounded : buffer.byteLength.toNat < messageSize)
    (room : buffer.hasRoom numBytes = true) :
    (buffer.byteLength + (3 + numBytes.toUInt32)).toNat =
      buffer.byteLength.toNat + 3 + numBytes.toNat := by
  have fits := (hasRoom_iff bounded).mp room
  simp only [messageSize] at fits
  simp only [UInt32.toNat_add, UInt8.toNat_toUInt32, UInt32.reduceToNat]
  omega

theorem apply_bounded (call : BufferCall) (bounded : buffer.byteLength.toNat < messageSize) :
    (call.apply buffer).byteLength.toNat < messageSize := by
  cases call with
  | toWire => exact bounded
  | serializeData data numBytes typeCode =>
      cases room : buffer.hasRoom numBytes with
      | false => simpa only [BufferCall.apply, serializeData_rejected room] using bounded
      | true =>
          cases data with
          | none => exact bounded
          | some source =>
              have fits := (hasRoom_iff bounded).mp room
              simp only [BufferCall.apply, serializeData_accepted room,
                byteLength_accepted bounded room]
              omega

/-- Whatever is serialized, the byte length never reaches `MESSAGE_SIZE`. -/
theorem run_bounded (calls : List BufferCall) :
    (Run.final BufferCall.apply createBuffer calls).byteLength.toNat < messageSize :=
  Run.final_invariant (fun buffer : DataBuffer => buffer.byteLength.toNat < messageSize)
    (fun call _ _ bounded => apply_bounded call bounded) (by decide)

end Bounds

/-! `to_wire` writes the twelve bytes of the header and nothing else. -/

section Header

variable (buffer : DataBuffer)

theorem toWire_outside {address : Nat} (outside : nullTermPos ≤ address) :
    (toWire buffer).data address = buffer.data address := by
  have above : 12 ≤ address := outside
  simp only [toWire]
  rw [Memory.store16_outside
      (Or.inr (by simp only [fldPos, bytePos, magPos, funcPos, opPos, protPos]; omega)),
    Memory.store32_outside (Or.inr (by simp only [bytePos, magPos, funcPos, opPos, protPos]; omega)),
    Memory.store16_outside (Or.inr (by simp only [magPos, funcPos, opPos, protPos]; omega)),
    Memory.store16_outside (Or.inr (by simp only [funcPos, opPos, protPos]; omega)),
    Memory.store8_outside (by simp only [opPos, protPos]; omega),
    Memory.store8_outside (by simp only [protPos]; omega)]

@[simp] theorem toWire_fields : (toWire buffer).data.load16 fldPos = buffer.fields := by
  simp [toWire, host16]

end Header

/-- What a buffer stands for as long as only fixed-width fields went into it:
the accepted segments fill it up to the byte length, and the rest is zero. -/
structure Represents (buffer : DataBuffer) (segments : List Segment) : Prop where
  length : buffer.byteLength.toNat = dataHeaderSize + (encode segments).length
  bounded : buffer.byteLength.toNat < messageSize
  count : buffer.fields.toNat = segments.length
  holds : HoldsAt buffer.data dtPos segments
  clear : ∀ address, buffer.byteLength.toNat ≤ address → buffer.data address = 0

theorem encode_length_ge (segments : List Segment) :
    3 * segments.length ≤ (encode segments).length := by
  induction segments with
  | nil => simp
  | cons segment rest ih =>
      simp only [encode_cons, List.length_append, List.length_cons, Segment.bytes_length]
      omega

variable {buffer : DataBuffer} {segments : List Segment}

theorem toWire_represents (represents : Represents buffer segments) :
    Represents (toWire buffer) segments where
  length := represents.length
  bounded := represents.bounded
  count := represents.count
  holds := by
    refine (Memory.load_congr fun address lower _ => toWire_outside buffer ?_).trans represents.holds
    simp only [dtPos] at lower
    omega
  clear := by
    intro address beyond
    have length := represents.length
    have same : (toWire buffer).byteLength = buffer.byteLength := rfl
    rw [same] at beyond
    rw [toWire_outside buffer (by simp only [dataHeaderSize, dtPos] at length; omega)]
    exact represents.clear address beyond

theorem createBuffer_represents : Represents createBuffer [] := by
  have blank : Represents
      { protocolVersion := protocolVersion, opcode := dataPacket, functionalFlags := 0, checksum := 0,
        byteLength := UInt32.ofNat dataHeaderSize, fields := 0, data := fun _ => 0 } [] :=
    ⟨rfl, by decide, rfl, rfl, fun _ _ => rfl⟩
  exact toWire_represents blank

theorem Represents.decodable (represents : Represents buffer segments)
    (few : segments.length < maxFields) : Decodable (toWire buffer).data segments where
  count := by rw [toWire_fields, represents.count]
  few := few
  holds := (toWire_represents represents).holds

/-- A payload shorter than its `num_bytes` is continued by the zeros that the
buffer held there. -/
def paddedPayload (source : Memory) (width numBytes : Nat) : List UInt8 :=
  source.load 0 width ++ List.replicate (numBytes - width) 0

def paddedSegment (source : Memory) (numBytes : UInt8) (typeCode : TypeCode) {width : Nat}
    (fits : width ≤ numBytes.toNat) : Segment where
  typeCode := typeCode
  payload := paddedPayload source width numBytes.toNat
  fits := by
    have bound := numBytes.toNat_lt
    simp only [paddedPayload, List.length_append, Memory.load_length, List.length_replicate]
    omega

@[simp] theorem paddedSegment_length {source : Memory} {numBytes : UInt8} {typeCode : TypeCode}
    {width : Nat} (fits : width ≤ numBytes.toNat) :
    (paddedSegment source numBytes typeCode fits).payload.length = numBytes.toNat := by
  simp only [paddedSegment, paddedPayload, List.length_append, Memory.load_length,
    List.length_replicate]
  omega

theorem paddedSegment_size {source : Memory} {numBytes : UInt8} {typeCode : TypeCode} {width : Nat}
    (fits : width ≤ numBytes.toNat) :
    (paddedSegment source numBytes typeCode fits).size = numBytes :=
  UInt8.toNat_inj.mp (by rw [Segment.size_toNat, paddedSegment_length])

/-- The terminator goes right after the moved bytes; with the zeros already in
the buffer it closes the segment at its full size too. -/
theorem paddedSegment_bytes {source : Memory} {numBytes : UInt8} {typeCode : TypeCode} {width : Nat}
    (fits : width ≤ numBytes.toNat) :
    (paddedSegment source numBytes typeCode fits).bytes =
      numBytes :: typeCode :: (source.load 0 width ++ [0]) ++
        List.replicate (numBytes.toNat - width) 0 := by
  rw [Segment.bytes, paddedSegment_size]
  simp only [paddedSegment, paddedPayload, List.cons_append, List.append_assoc, List.nil_append]
  rw [← List.replicate_succ', List.replicate_succ]

theorem serializeData_represents (represents : Represents buffer segments) {source : Memory}
    {numBytes : UInt8} {typeCode : TypeCode} {width : Nat} (fixed : fixedWidth typeCode = some width)
    (fits : width ≤ numBytes.toNat) (room : buffer.hasRoom numBytes = true) :
    Represents (serializeData buffer (some source) numBytes typeCode)
      (segments ++ [paddedSegment source numBytes typeCode fits]) := by
  have space := (hasRoom_iff represents.bounded).mp room
  have length := represents.length
  have advanced := byteLength_accepted represents.bounded room
  have stretch : appendedBytes buffer source numBytes typeCode =
      numBytes :: typeCode :: (source.load 0 width ++ [0]) := by
    rw [appendedBytes, movedCount_fixed fixed]
  have stretchLength : (numBytes :: typeCode :: (source.load 0 width ++ [0])).length = width + 3 := by
    simp
  rw [serializeData_accepted room, stretch]
  constructor
  case length =>
    simp only [advanced, encode_append, encode_cons, encode_nil, List.append_nil, List.length_append,
      Segment.bytes_length, paddedSegment_length]
    omega
  case bounded =>
    simp only [advanced]
    omega
  case count =>
    have shortList := encode_length_ge segments
    have count := represents.count
    simp only [messageSize, dataHeaderSize, dtPos, nullTermPos] at space length
    simp only [UInt16.toNat_add, UInt16.reduceToNat, List.length_append, List.length_singleton]
    omega
  case holds =>
    refine holdsAt_append.mpr ⟨?_, ?_⟩
    · refine (Memory.load_store_disjoint (Or.inl ?_)).trans represents.holds
      rw [length, dataHeaderSize]
    · have position : dtPos + (encode segments).length = buffer.byteLength.toNat := length.symm
      rw [HoldsAt, position, encode_cons, encode_nil, List.append_nil, paddedSegment_bytes,
        List.length_append, Memory.load_add, stretchLength,
        Memory.load_store_of_length stretchLength]
      congr 1
      -- the bytes behind the terminator were zero before the call
      rw [List.length_replicate]
      apply Memory.load_constant
      intro address lower _
      refine (Memory.store_outside (Or.inr ?_)).trans (represents.clear address (by omega))
      rw [stretchLength]
      omega
  case clear =>
    intro address beyond
    simp only [advanced] at beyond
    refine (Memory.store_outside (Or.inr ?_)).trans (represents.clear address (by omega))
    rw [stretchLength]
    omega

end Sentinet.Messages
