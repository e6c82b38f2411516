import Sentinet.Messages.Header
import Sentinet.Messages.RoundTrip
import Sentinet.Messages.WideCopy

namespace Sentinet.Messages

open Sentinet.Data

/-! Messages with fields of any type code, from the calls that build them to the
string that is sent and back. -/

/-- How many bytes a field is meant to move. -/
def movedWidth (typeCode : TypeCode) (numBytes : Nat) : Nat := (fixedWidth typeCode).getD numBytes

/-- A copy of this many bytes from there stays out of the long loop. -/
def KeepsBytes (source : Memory) (position numBytes : Nat) : Prop :=
  numBytes < 4 ∨ 3 < LittleEndian.decode (source.load position 4)

/-- `num_bytes` holds all that the type code moves, and where the type code leaves it
to the default branch no byte behind the payload is copied. -/
def BufferCall.Plain : BufferCall → Prop
  | .serializeData (some source) numBytes typeCode =>
      movedWidth typeCode numBytes.toNat ≤ numBytes.toNat ∧
        (fixedWidth typeCode = none → KeepsBytes source 0 numBytes.toNat)
  | _ => True

def Field.width (field : Field) : Nat := movedWidth field.typeCode field.numBytes.toNat

/-- The segment that a field takes in the message. -/
def Field.segment (field : Field) : Segment where
  typeCode := field.typeCode
  payload := paddedPayload field.source field.width field.numBytes.toNat
  fits := by
    have small := field.numBytes.toNat_lt
    have narrow : field.width < 256 := by
      simp only [Field.width, movedWidth, fixedWidth]
      split <;> try split <;> try split
      all_goals simp only [Option.getD_some, Option.getD_none]; omega
    simp only [paddedPayload, List.length_append, Memory.load_length, List.length_replicate]
    omega

/-- What a field says to the receiver. -/
def Field.content (field : Field) : TypeCode × UInt8 × List UInt8 :=
  (field.typeCode, field.numBytes, field.source.load 0 field.width)

/-- A segment that a plain call leaves. -/
structure Segment.Plain (segment : Segment) : Prop where
  width : movedWidth segment.typeCode segment.payload.length ≤ segment.payload.length
  padded : segment.payload.drop (movedWidth segment.typeCode segment.payload.length) =
    List.replicate (segment.payload.length - movedWidth segment.typeCode segment.payload.length) 0
  keeps : fixedWidth segment.typeCode = none →
    segment.payload.length < 4 ∨ 3 < LittleEndian.decode (segment.payload.take 4)

/-- The message of a run of calls where it is received, with whatever lies behind it. -/
def received (calls : List BufferCall) (behind : Memory) : Memory :=
  Memory.ofString (messageString (toWire (history calls).buffer)) behind

/-- A message copied field by field: what `get_data` puts in the destination goes into
another buffer under the size and type code it found. -/
def relayElements (data : Memory) : (remaining index : Nat) → (destination : Memory) →
    DataBuffer → Except DataError DataBuffer
  | 0, _, _, buffer => .ok buffer
  | remaining + 1, index, destination, buffer =>
      match getData (some data) (some destination) index with
      | .error error => .error error
      | .ok (element, destination) =>
          relayElements data remaining (index + 1) destination
            (serializeData buffer (some destination) element.size element.typeCode)

def relay (data destination : Memory) : Except DataError DataBuffer :=
  relayElements data (getNumberFields data).toNat 0 destination createBuffer

/-- What plain calls make of a created buffer. -/
structure Built (buffer : DataBuffer) (segments : List Segment) : Prop where
  represents : Represents buffer segments
  protocolVersion : buffer.protocolVersion = createBuffer.protocolVersion
  opcode : buffer.opcode = createBuffer.opcode
  functionalFlags : buffer.functionalFlags = createBuffer.functionalFlags
  checksum : buffer.checksum = createBuffer.checksum
  separator : buffer.data nullTermPos = 0
  plain : ∀ segment ∈ segments, segment.Plain

section Segments

variable {segment other : Segment} {first second : List Segment}

theorem Segment.eq_of_parts (typeCode : segment.typeCode = other.typeCode)
    (payload : segment.payload = other.payload) : segment = other := by
  cases segment
  cases other
  cases typeCode
  cases payload
  rfl

/-- The size byte says where a segment ends, so that the bytes say which segments they are. -/
theorem encode_injective (same : encode first = encode second) : first = second := by
  induction first generalizing second with
  | nil =>
      cases second with
      | nil => rfl
      | cons segment rest => cases same
  | cons segment rest ih =>
      cases second with
      | nil => cases same
      | cons other later =>
          have sizes : segment.size = other.size := (List.cons.inj same).1
          have lengths : segment.bytes.length = other.bytes.length := by
            rw [Segment.bytes_length, Segment.bytes_length, ← Segment.size_toNat,
              ← Segment.size_toNat, sizes]
          obtain ⟨bytes, remaining⟩ := List.append_inj same lengths
          obtain ⟨-, codes⟩ := List.cons.inj bytes
          obtain ⟨typeCode, payload⟩ := List.cons.inj codes
          rw [Segment.eq_of_parts typeCode (List.append_cancel_right payload), ih remaining]

end Segments

section Copies

variable {source destination : Memory} {position head numBytes : Nat} {typeCode : TypeCode}

/-- Where the long loop stays out, the width of the type code is what is moved. -/
theorem movedCount_plain (keeps : fixedWidth typeCode = none → KeepsBytes source position numBytes) :
    movedCount typeCode (takesLongs source position destination head) numBytes =
      movedWidth typeCode numBytes := by
  cases fixed : fixedWidth typeCode with
  | some width => rw [movedCount_fixed fixed, movedWidth, fixed, Option.getD_some]
  | none =>
      have short : numBytes < 4 ∨ takesLongs source position destination head = false := by
        rcases keeps fixed with few | large
        · exact Or.inl few
        · have outside : smallLong (source.load64 position) = false := by
            rw [Bool.eq_false_iff, ne_eq, smallLong_iff]
            omega
          exact Or.inr (by rw [takesLongs, outside, Bool.false_and])
      rw [movedCount_default fixed, copyCount_short short, movedWidth, fixed, Option.getD_none]

/-- Zeros over zeros change nothing. -/
theorem store_padding {memory : Memory} {front : List UInt8} (padding : Nat)
    (clear : ∀ address, position ≤ address → memory address = 0) :
    memory.store position (front ++ List.replicate padding 0) = memory.store position front := by
  rw [Memory.store_append]
  funext address
  by_cases inside : position + front.length ≤ address ∧
      address < position + front.length + padding
  · obtain ⟨lane, rfl⟩ := Nat.exists_eq_add_of_le inside.1
    have below : lane < (List.replicate padding (0 : UInt8)).length := by
      rw [List.length_replicate]
      omega
    have zero := Memory.store_lane (memory.store position front) (position + front.length) below
    rw [zero, List.getElem_replicate, Memory.store_outside (Or.inr (Nat.le_add_right _ _))]
    exact (clear _ (by omega)).symm
  · exact Memory.store_outside (by rw [List.length_replicate]; omega)

end Copies

section Calls

variable {buffer other : DataBuffer} {segments : List Segment} {field : Field}

theorem field_segment_eq (fits : field.width ≤ field.numBytes.toNat) :
    field.segment = paddedSegment field.source field.numBytes field.typeCode fits :=
  Segment.eq_of_parts rfl rfl

theorem field_segment_length (fits : field.width ≤ field.numBytes.toNat) :
    field.segment.payload.length = field.numBytes.toNat := by
  rw [field_segment_eq fits, paddedSegment_length]

theorem field_segment_plain (fits : field.width ≤ field.numBytes.toNat)
    (keeps : fixedWidth field.typeCode = none → KeepsBytes field.source 0 field.numBytes.toNat) :
    field.segment.Plain := by
  have length := field_segment_length fits
  have code : field.segment.typeCode = field.typeCode := rfl
  have width : movedWidth field.segment.typeCode field.segment.payload.length = field.width := by
    rw [length, code, Field.width]
  refine ⟨by rw [width, length]; exact fits, ?_, ?_⟩
  · rw [width, length]
    exact List.drop_left' Memory.load_length
  · intro default
    have whole : field.width = field.numBytes.toNat := by
      rw [Field.width, movedWidth, ← code, default, Option.getD_none]
    rcases keeps default with few | large
    · exact Or.inl (by rw [length]; exact few)
    · by_cases few : field.numBytes.toNat < 4
      · exact Or.inl (by rw [length]; exact few)
      · refine Or.inr ?_
        have payload : field.segment.payload =
            paddedPayload field.source field.width field.numBytes.toNat := rfl
        have front : field.segment.payload.take 4 = field.source.load 0 4 := by
          rw [payload, paddedPayload, List.take_append_of_le_length (by simp; omega),
            Memory.load_take _ _ (by omega)]
        rwa [front]

/-- An accepted plain call stores its segment behind the others. -/
theorem serializeData_data (built : Built buffer segments)
    (fits : field.width ≤ field.numBytes.toNat)
    (keeps : fixedWidth field.typeCode = none → KeepsBytes field.source 0 field.numBytes.toNat) :
    buffer.data.store buffer.byteLength.toNat
        (appendedBytes buffer field.source field.numBytes field.typeCode) =
      buffer.data.store buffer.byteLength.toNat field.segment.bytes := by
  have moved : appendedBytes buffer field.source field.numBytes field.typeCode =
      field.numBytes :: field.typeCode :: (field.source.load 0 field.width ++ [0]) := by
    rw [appendedBytes, movedCount_plain keeps, Field.width]
  rw [field_segment_eq fits, paddedSegment_bytes, moved]
  exact (store_padding _ built.represents.clear).symm

/-- A buffer with one segment more. -/
theorem Represents.append (represents : Represents buffer segments) {segment : Segment}
    (room : buffer.hasRoom segment.size = true) :
    Represents
      { buffer with
        byteLength := buffer.byteLength + (3 + segment.size.toUInt32)
        fields := buffer.fields + 1
        data := buffer.data.store buffer.byteLength.toNat segment.bytes }
      (segments ++ [segment]) := by
  have space := (hasRoom_iff represents.bounded).mp room
  have advanced := byteLength_accepted represents.bounded room
  have length := represents.length
  have sizes := segment.bytes_length
  rw [Segment.size_toNat] at space advanced
  constructor
  case length =>
    simp only [advanced, encode_append, encode_cons, encode_nil, List.append_nil, List.length_append]
    omega
  case bounded =>
    simp only [advanced]
    omega
  case count =>
    have many := encode_length_ge segments
    have count := represents.count
    simp only [messageSize, dataHeaderSize, dtPos, nullTermPos] at space length
    simp only [UInt16.toNat_add, UInt16.reduceToNat, List.length_append, List.length_singleton]
    omega
  case holds =>
    have position : dtPos + (encode segments).length = buffer.byteLength.toNat := length.symm
    refine holdsAt_append.mpr ⟨?_, ?_⟩
    · exact (Memory.load_store_disjoint (Or.inl (Nat.le_of_eq position))).trans represents.holds
    · rw [HoldsAt, position, encode_cons, encode_nil, List.append_nil, Memory.load_store_same]
  case clear =>
    intro address beyond
    simp only [advanced] at beyond
    exact (Memory.store_outside (Or.inr (by omega))).trans (represents.clear address (by omega))

theorem Built.accept (built : Built buffer segments) (fits : field.width ≤ field.numBytes.toNat)
    (keeps : fixedWidth field.typeCode = none → KeepsBytes field.source 0 field.numBytes.toNat)
    (room : buffer.hasRoom field.numBytes = true) :
    Built (serializeData buffer (some field.source) field.numBytes field.typeCode)
      (segments ++ [field.segment]) := by
  have size : field.segment.size = field.numBytes := by
    rw [field_segment_eq fits, paddedSegment_size]
  have longer : Represents _ (segments ++ [field.segment]) :=
    built.represents.append (by rw [size]; exact room)
  have header : nullTermPos < buffer.byteLength.toNat := by
    have length := built.represents.length
    simp only [dataHeaderSize, dtPos] at length
    omega
  rw [serializeData_accepted room, serializeData_data built fits keeps]
  rw [size] at longer
  refine ⟨longer, built.protocolVersion, built.opcode, built.functionalFlags, built.checksum,
    (Memory.store_outside (Or.inl header)).trans built.separator, ?_⟩
  intro segment member
  rcases List.mem_append.mp member with old | new
  · exact built.plain segment old
  · rw [List.mem_singleton.mp new]
    exact field_segment_plain fits keeps

theorem Built.wired (built : Built buffer segments) : Built (toWire buffer) segments where
  represents := toWire_represents built.represents
  protocolVersion := built.protocolVersion
  opcode := built.opcode
  functionalFlags := built.functionalFlags
  checksum := built.checksum
  separator := (toWire_outside buffer (Nat.le_refl _)).trans built.separator
  plain := built.plain

theorem createBuffer_built : Built createBuffer [] where
  represents := createBuffer_represents
  protocolVersion := rfl
  opcode := rfl
  functionalFlags := rfl
  checksum := rfl
  separator := rfl
  plain := by simp

end Calls

section Wire

variable {buffer other : DataBuffer} {segments later : List Segment}

/-- The string that is sent: the header, its separator and the segments. -/
theorem Built.wire (built : Built buffer segments) :
    messageString (toWire buffer) =
      (toWire buffer).data.load 0 nullTermPos ++ 0 :: encode segments := by
  have length : (toWire buffer).byteLength.toNat = nullTermPos + 1 + (encode segments).length :=
    built.wired.represents.length
  have separator : (toWire buffer).data.load (0 + nullTermPos) 1 = [0] :=
    congrArg (fun byte => [byte]) built.wired.separator
  rw [messageString, length, Memory.load_add, Memory.load_add, separator]
  have holds : (toWire buffer).data.load (0 + (nullTermPos + 1)) (encode segments).length =
      encode segments := built.wired.represents.holds
  rw [holds, List.append_assoc]
  rfl

theorem Built.wire_eq (built : Built buffer segments) (also : Built other segments) :
    messageString (toWire buffer) = messageString (toWire other) := by
  have byteLength : buffer.byteLength = other.byteLength := UInt32.toNat_inj.mp
    (built.represents.length.trans also.represents.length.symm)
  have fields : buffer.fields = other.fields := UInt16.toNat_inj.mp
    (built.represents.count.trans also.represents.count.symm)
  have wired := toWire_carriesHeader other
  have header : CarriesHeader (toWire buffer).data other := by
    have own := toWire_carriesHeader buffer
    exact {
      protocolVersion := by rw [own.protocolVersion, built.protocolVersion, also.protocolVersion]
      opcode := by rw [own.opcode, built.opcode, also.opcode]
      functionalFlags := by rw [own.functionalFlags, built.functionalFlags, also.functionalFlags]
      checksum := by rw [own.checksum, built.checksum, also.checksum]
      byteLength := by rw [own.byteLength, byteLength]
      fields := by rw [own.fields, fields] }
  rw [built.wire, also.wire, (carriesHeader_iff wired).mp header]

theorem Built.segments_eq (built : Built buffer segments) (also : Built other later)
    (same : messageString (toWire buffer) = messageString (toWire other)) : segments = later := by
  rw [built.wire, also.wire] at same
  have bodies := (List.append_inj same (by rw [Memory.load_length, Memory.load_length])).2
  exact encode_injective (List.cons.inj bodies).2

/-- The string decodes like the buffer, whatever lies behind it in memory. -/
theorem Built.decodable (built : Built buffer segments) (few : segments.length < maxFields)
    (behind : Memory) :
    Decodable (Memory.ofString (messageString (toWire buffer)) behind) segments := by
  have here := built.represents.decodable few
  have length : (toWire buffer).byteLength.toNat = nullTermPos + 1 + (encode segments).length :=
    built.wired.represents.length
  have start : dtPos = nullTermPos + 1 := rfl
  refine ⟨?_, few, ?_⟩
  · rw [← here.count, messageString]
    refine congrArg UInt16.toNat (Memory.load16_eq_iff.mpr (Memory.load_ofString_load ?_))
    simp only [length, nullTermPos]
    omega
  · rw [HoldsAt, messageString, Memory.load_ofString_load (by omega)]
    exact here.holds

end Wire

section Decoding

variable {memory destination : Memory} {segments : List Segment} {index : Nat}

/-- What `get_data` gives for one segment of plain calls. -/
theorem getData_segment (decodable : Decodable memory segments) (bound : index < segments.length)
    (plain : segments[index].Plain) (destination : Memory) :
    getData (some memory) (some destination) index =
      .ok ({ size := segments[index].size
             typeCode := segments[index].typeCode
             data := payloadStart segments index },
        destination.store 0 (segments[index].payload.take
          (movedWidth segments[index].typeCode segments[index].payload.length))) := by
  have payload := decodable.payload bound
  have keeps : fixedWidth segments[index].typeCode = none →
      KeepsBytes memory (payloadStart segments index) segments[index].payload.length := by
    intro default
    by_cases few : segments[index].payload.length < 4
    · exact Or.inl few
    · have front : memory.load (payloadStart segments index) 4 = segments[index].payload.take 4 := by
        rw [← Memory.load_take memory _ (Nat.not_lt.mp few), payload]
      rw [KeepsBytes, front]
      exact plain.keeps default
  rw [getData, readElement_run decodable bound, getPayload_run, Segment.size_toNat,
    movedCount_plain keeps, ← Memory.load_take _ _ plain.width, payload]

end Decoding

/-- The accepted fields lie in the buffer as their segments, each where it was put. -/
structure History.Written (history : History) : Prop where
  built : Built history.buffer (history.accepted.map Field.segment)
  placed : ∀ index field, history.accepted[index]? = some field →
    field.payload = payloadStart (history.accepted.map Field.segment) index
  fits : ∀ field ∈ history.accepted, field.width ≤ field.numBytes.toNat

section Runs

variable {past : History} {calls : List BufferCall} {behind destination : Memory}

theorem History.Written.accept (written : past.Written) (field : Field)
    (place : field.payload = past.buffer.byteLength.toNat + 2)
    (fits : field.width ≤ field.numBytes.toNat)
    (keeps : fixedWidth field.typeCode = none → KeepsBytes field.source 0 field.numBytes.toNat)
    (room : past.buffer.hasRoom field.numBytes = true) :
    History.Written
      { buffer := serializeData past.buffer (some field.source) field.numBytes field.typeCode
        accepted := past.accepted ++ [field] } where
  built := by
    rw [List.map_append]
    exact written.built.accept fits keeps room
  placed := by
    intro index found accepted
    rw [List.map_append]
    by_cases old : index < past.accepted.length
    · rw [List.getElem?_append_left old] at accepted
      rw [payloadStart_append _ (by rw [List.length_map]; omega)]
      exact written.placed index found accepted
    · have inside := (List.getElem?_eq_some_iff.mp accepted).1
      simp only [List.length_append, List.length_singleton] at inside
      have last : index = past.accepted.length := by omega
      subst last
      rw [List.getElem?_concat_length, Option.some.injEq] at accepted
      have stop := payloadStart_last (past.accepted.map Field.segment)
      rw [List.length_map] at stop
      rw [payloadStart_append _ (by rw [List.length_map]), stop, ← accepted, place,
        written.built.represents.length, dataHeaderSize]
  fits := by
    intro found member
    rcases List.mem_append.mp member with old | new
    · exact written.fits found old
    · rw [List.mem_singleton.mp new]
      exact fits

theorem History.Written.step (written : past.Written) {call : BufferCall} (plain : call.Plain) :
    (past.step call).Written := by
  cases call with
  | toWire =>
      have same : past.step .toWire = { past with buffer := toWire past.buffer } := by
        simp [History.step, BufferCall.accepted, BufferCall.apply]
      rw [same]
      exact ⟨written.built.wired, written.placed, written.fits⟩
  | serializeData data numBytes typeCode =>
      cases data with
      | none =>
          have same : past.step (.serializeData none numBytes typeCode) = past := by
            simp [History.step, BufferCall.accepted, BufferCall.apply, serializeData]
          rwa [same]
      | some source =>
          cases room : past.buffer.hasRoom numBytes with
          | true =>
              let field : Field :=
                { source, numBytes, typeCode, payload := past.buffer.byteLength.toNat + 2 }
              have longer : past.step (.serializeData (some source) numBytes typeCode) =
                  { buffer := serializeData past.buffer (some source) numBytes typeCode
                    accepted := past.accepted ++ [field] } := by
                simp [History.step, BufferCall.accepted, BufferCall.apply, room, field]
              rw [longer]
              exact written.accept field rfl plain.1 plain.2 room
          | false =>
              have same : past.step (.serializeData (some source) numBytes typeCode) = past := by
                simp [History.step, BufferCall.accepted, BufferCall.apply, room,
                  serializeData_rejected room]
              rwa [same]

theorem history_written (plain : ∀ call ∈ calls, call.Plain) : (history calls).Written :=
  Run.final_invariant History.Written (fun call member _ written => written.step (plain call member))
    ⟨createBuffer_built, fun _ _ accepted => by simp at accepted, by simp⟩

theorem received_fields (plain : ∀ call ∈ calls, call.Plain) (behind : Memory) :
    (getNumberFields (received calls behind)).toNat = (history calls).accepted.length := by
  have built := (history_written plain).built
  have length : (toWire (history calls).buffer).byteLength.toNat =
      nullTermPos + 1 + _ := built.wired.represents.length
  have header : CarriesHeader (received calls behind) (history calls).buffer := by
    refine (toWire_carriesHeader (history calls).buffer).congr ?_
    intro address inside
    rw [received, Memory.ofString_inside (by rw [messageString, Memory.load_length]; omega)]
    simp [messageString, Memory.load]
  have count := built.represents.count
  rw [getNumberFields_versioned header built.protocolVersion, count, List.length_map]

theorem received_field (plain : ∀ call ∈ calls, call.Plain)
    (few : (history calls).accepted.length < maxFields) (behind destination : Memory) {index : Nat}
    {field : Field} (accepted : (history calls).accepted[index]? = some field) :
    getData (some (received calls behind)) (some destination) index =
      .ok ({ size := field.numBytes, typeCode := field.typeCode, data := field.payload },
        destination.store 0 (field.source.load 0 field.width)) := by
  have written := history_written plain
  obtain ⟨inside, found⟩ := List.getElem?_eq_some_iff.mp accepted
  have bound : index < ((history calls).accepted.map Field.segment).length := by
    rw [List.length_map]
    exact inside
  have selected : ((history calls).accepted.map Field.segment)[index] = field.segment := by
    rw [List.getElem_map, found]
  have fits := written.fits field (List.mem_of_getElem? accepted)
  have size : field.segment.size = field.numBytes := by
    rw [field_segment_eq fits, paddedSegment_size]
  have decodable := written.built.decodable (by rw [List.length_map]; exact few) behind
  have read := getData_segment decodable bound
    (written.built.plain _ (List.getElem_mem bound)) destination
  have moved : field.segment.payload.take
      (movedWidth field.segment.typeCode field.segment.payload.length) =
      field.source.load 0 field.width := by
    rw [field_segment_length fits]
    exact List.take_left' Memory.load_length
  rw [selected, size, moved, ← written.placed index field accepted] at read
  exact read

/-- One segment more of a copy. -/
theorem Built.relay {buffer : DataBuffer} {segments : List Segment} {segment : Segment}
    (built : Built buffer segments) (plain : segment.Plain)
    (room : buffer.hasRoom segment.size = true) (destination : Memory) :
    Built
      (serializeData buffer
        (some (destination.store 0 (segment.payload.take
          (movedWidth segment.typeCode segment.payload.length))))
        segment.size segment.typeCode)
      (segments ++ [segment]) := by
  let width := movedWidth segment.typeCode segment.payload.length
  let field : Field :=
    { source := destination.store 0 (segment.payload.take width), numBytes := segment.size
      typeCode := segment.typeCode, payload := buffer.byteLength.toNat + 2 }
  have fieldWidth : field.width = width := by
    rw [Field.width, Segment.size_toNat]
  have length : (segment.payload.take width).length = width := List.length_take_of_le plain.width
  have front : field.source.load 0 width = segment.payload.take width := by
    show (destination.store 0 _).load 0 width = _
    exact Memory.load_store_of_length length
  have same : field.segment = segment := by
    refine Segment.eq_of_parts rfl ?_
    have payload : field.segment.payload =
        paddedPayload field.source field.width field.numBytes.toNat := rfl
    rw [payload, paddedPayload, fieldWidth, front, Segment.size_toNat, ← plain.padded,
      List.take_append_drop]
  have fits : field.width ≤ field.numBytes.toNat := by
    rw [fieldWidth, Segment.size_toNat]
    exact plain.width
  have keeps : fixedWidth field.typeCode = none → KeepsBytes field.source 0 field.numBytes.toNat := by
    intro default
    have whole : width = segment.payload.length := by
      show movedWidth field.typeCode _ = _
      rw [movedWidth, default, Option.getD_none]
    rcases plain.keeps default with few | large
    · exact Or.inl (by rw [Segment.size_toNat]; exact few)
    · by_cases few : segment.payload.length < 4
      · exact Or.inl (by rw [Segment.size_toNat]; exact few)
      · refine Or.inr ?_
        have start : field.source.load 0 4 = segment.payload.take 4 := by
          rw [← Memory.load_take field.source 0 (by omega : 4 ≤ width), front, List.take_take,
            Nat.min_eq_left (by omega)]
        rwa [start]
  have longer := built.accept fits keeps room
  rwa [same] at longer

theorem field_segment_eq_iff {first second : Field} (firstFits : first.width ≤ first.numBytes.toNat)
    (secondFits : second.width ≤ second.numBytes.toNat) :
    first.segment = second.segment ↔ first.content = second.content := by
  have size {field : Field} (fits : field.width ≤ field.numBytes.toNat) :
      field.segment.size = field.numBytes := by
    rw [field_segment_eq fits, paddedSegment_size]
  have moved (field : Field) : field.segment.payload.take field.width =
      field.source.load 0 field.width := List.take_left' Memory.load_length
  constructor
  · intro same
    have typeCode : first.typeCode = second.typeCode := congrArg Segment.typeCode same
    have numBytes : first.numBytes = second.numBytes := by
      rw [← size firstFits, ← size secondFits, same]
    have width : first.width = second.width := by
      rw [Field.width, typeCode, numBytes, Field.width]
    rw [Field.content, Field.content, ← moved, ← moved, same, typeCode, numBytes, width]
  · intro same
    obtain ⟨typeCode, rest⟩ := Prod.mk.inj same
    obtain ⟨numBytes, loaded⟩ := Prod.mk.inj rest
    have width : first.width = second.width := by
      rw [Field.width, typeCode, numBytes, Field.width]
    refine Segment.eq_of_parts typeCode ?_
    show paddedPayload _ _ _ = paddedPayload _ _ _
    rw [paddedPayload, paddedPayload, loaded, width, numBytes]

theorem map_segment_eq_iff {first second : List Field}
    (firstFits : ∀ field ∈ first, field.width ≤ field.numBytes.toNat)
    (secondFits : ∀ field ∈ second, field.width ≤ field.numBytes.toNat) :
    first.map Field.segment = second.map Field.segment ↔
      first.map Field.content = second.map Field.content := by
  induction first generalizing second with
  | nil => cases second <;> simp
  | cons field rest ih =>
      cases second with
      | nil => simp
      | cons other later =>
          rw [List.forall_mem_cons] at firstFits secondFits
          rw [List.map_cons, List.map_cons, List.map_cons, List.map_cons, List.cons.injEq,
            List.cons.injEq, field_segment_eq_iff firstFits.1 secondFits.1,
            ih firstFits.2 secondFits.2]

/-- The copy holds the segments before the index, and the rest comes in turn. -/
theorem relayElements_built {memory : Memory} {segments : List Segment}
    (decodable : Decodable memory segments) (plain : ∀ segment ∈ segments, segment.Plain)
    (short : dtPos + (encode segments).length < messageSize) {buffer : DataBuffer}
    {remaining index : Nat} (rest : index + remaining = segments.length)
    (built : Built buffer (segments.take index)) (destination : Memory) :
    ∃ copy, relayElements memory remaining index destination buffer = .ok copy ∧
      Built copy segments := by
  induction remaining generalizing index destination buffer with
  | zero =>
      rw [List.take_of_length_le (by omega)] at built
      exact ⟨buffer, rfl, built⟩
  | succ remaining ih =>
      have bound : index < segments.length := by omega
      have split : segments.take index ++ [segments[index]] = segments.take (index + 1) :=
        List.take_append_getElem bound
      have member : segments[index] ∈ segments := List.getElem_mem bound
      have read := getData_segment decodable bound (plain _ member) destination
      have room : buffer.hasRoom segments[index].size = true := by
        rw [hasRoom_iff built.represents.bounded, Segment.size_toNat, built.represents.length]
        have whole : (encode segments).length = (encode (segments.take (index + 1))).length +
            (encode (segments.drop (index + 1))).length := by
          rw [← List.length_append, ← encode_append, List.take_append_drop]
        rw [← split, encode_append, encode_cons, encode_nil, List.append_nil, List.length_append,
          Segment.bytes_length] at whole
        simp only [dataHeaderSize]
        omega
      have longer := built.relay (plain _ member) room destination
      rw [split] at longer
      simp only [relayElements, read]
      exact ih (by omega) longer _

end Runs

/-- A string of six letters, and a float behind it. -/
def lettersAndFloat : List BufferCall :=
  [.serializeData (some fun lane => UInt8.ofNat (65 + lane)) 6 TypeCode.string, .toWire,
    .serializeData (some fun _ => 9) 4 TypeCode.float]

theorem lettersAndFloat_plain : ∀ call ∈ lettersAndFloat, call.Plain := by
  intro call member
  simp only [lettersAndFloat, List.mem_cons, List.not_mem_nil, or_false] at member
  rcases member with rfl | rfl | rfl
  · exact ⟨by decide, fun _ => Or.inr (by decide)⟩
  · trivial
  · exact ⟨by decide, fun wide => absurd wide (by decide)⟩

/-- Fields of all type codes come back from the string: each under the index at which
it was accepted, with its size and type code, and no byte but its own is written. -/
theorem plainFields_read_back (calls : List BufferCall) (plain : ∀ call ∈ calls, call.Plain)
    (few : (history calls).accepted.length < maxFields) (behind : Memory) :
    (getNumberFields (received calls behind)).toNat = (history calls).accepted.length ∧
      ∀ index field, (history calls).accepted[index]? = some field → ∀ destination : Memory,
        getData (some (received calls behind)) (some destination) index =
          .ok ({ size := field.numBytes, typeCode := field.typeCode, data := field.payload },
            destination.store 0 (field.source.load 0 field.width)) :=
  ⟨received_fields plain behind,
    fun _ _ accepted destination => received_field plain few behind destination accepted⟩

theorem plainFields_read_back_letters :
    (getNumberFields (received lettersAndFloat fun _ => 255)).toNat =
        (history lettersAndFloat).accepted.length ∧
      ∀ index field, (history lettersAndFloat).accepted[index]? = some field →
        ∀ destination : Memory,
          getData (some (received lettersAndFloat fun _ => 255)) (some destination) index =
            .ok ({ size := field.numBytes, typeCode := field.typeCode, data := field.payload },
              destination.store 0 (field.source.load 0 field.width)) :=
  plainFields_read_back lettersAndFloat lettersAndFloat_plain (by decide) fun _ => 255

/-- A message that is taken apart by `get_data` and put together again by
`serialize_data` is the same string. -/
theorem relay_reproduces (calls : List BufferCall) (plain : ∀ call ∈ calls, call.Plain)
    (few : (history calls).accepted.length < maxFields) (behind destination : Memory) :
    ∃ copy, relay (received calls behind) destination = .ok copy ∧
      messageString (toWire copy) = messageString (toWire (history calls).buffer) := by
  have built := (history_written plain).built
  have few : ((history calls).accepted.map Field.segment).length < maxFields := by
    rw [List.length_map]
    exact few
  have short : dtPos + (encode _).length < messageSize :=
    built.represents.length ▸ built.represents.bounded
  have rest : 0 + (getNumberFields (received calls behind)).toNat =
      ((history calls).accepted.map Field.segment).length := by
    rw [received_fields plain, Nat.zero_add, List.length_map]
  obtain ⟨copy, relayed, same⟩ := relayElements_built (built.decodable few behind) built.plain short
    rest createBuffer_built destination
  exact ⟨copy, relayed, same.wire_eq built⟩

theorem relay_reproduces_letters :
    ∃ copy, relay (received lettersAndFloat fun _ => 255) (fun _ => 7) = .ok copy ∧
      messageString (toWire copy) = messageString (toWire (history lettersAndFloat).buffer) :=
  relay_reproduces lettersAndFloat lettersAndFloat_plain (by decide) (fun _ => 255) fun _ => 7

/-- Two messages are one string exactly when the same fields were accepted in the
same order: their type codes, their sizes and what was moved of their sources. -/
theorem string_eq_iff (first second : List BufferCall) (firstPlain : ∀ call ∈ first, call.Plain)
    (secondPlain : ∀ call ∈ second, call.Plain) :
    messageString (toWire (history first).buffer) = messageString (toWire (history second).buffer) ↔
      (history first).accepted.map Field.content = (history second).accepted.map Field.content := by
  have one := history_written firstPlain
  have two := history_written secondPlain
  rw [← map_segment_eq_iff one.fits two.fits]
  constructor
  · intro same
    exact one.built.segments_eq two.built same
  · intro same
    have built := two.built
    rw [← same] at built
    exact one.built.wire_eq built

theorem string_eq_iff_again :
    messageString (toWire (history lettersAndFloat).buffer) =
        messageString (toWire (history (.toWire :: lettersAndFloat)).buffer) ↔
      (history lettersAndFloat).accepted.map Field.content =
        (history (.toWire :: lettersAndFloat)).accepted.map Field.content :=
  string_eq_iff lettersAndFloat (.toWire :: lettersAndFloat) lettersAndFloat_plain
    (List.forall_mem_cons.mpr ⟨trivial, lettersAndFloat_plain⟩)

end Sentinet.Messages
