import Sentinet.Messages.Buffer

namespace Sentinet.Messages

open Sentinet.Data

/-! Decoding what was encoded: every fixed-width field that `serialize_data`
accepted comes back from `get_data`. -/

/-- A field that was accepted, with the position its payload went to. -/
structure Field where
  source : Memory
  numBytes : UInt8
  typeCode : TypeCode
  payload : Nat

structure History where
  buffer : DataBuffer
  accepted : List Field

def BufferCall.accepted (buffer : DataBuffer) : BufferCall → Option Field
  | .serializeData (some source) numBytes typeCode =>
      if buffer.hasRoom numBytes then
        some { source, numBytes, typeCode, payload := buffer.byteLength.toNat + 2 }
      else none
  | _ => none

def History.step (history : History) (call : BufferCall) : History where
  buffer := call.apply history.buffer
  accepted := history.accepted ++ (call.accepted history.buffer).toList

def history (calls : List BufferCall) : History :=
  Run.final History.step { buffer := createBuffer, accepted := [] } calls

/-- A fixed-width type code with at least that many bytes. -/
def BufferCall.FixedWidth : BufferCall → Prop
  | .serializeData _ numBytes typeCode =>
      ∃ width, fixedWidth typeCode = some width ∧ width ≤ numBytes.toNat
  | .toWire => True

structure Carries (field : Field) (segment : Segment) (position : Nat) : Prop where
  position : field.payload = position
  typeCode : segment.typeCode = field.typeCode
  size : segment.size = field.numBytes
  moved : ∃ width, fixedWidth field.typeCode = some width ∧ width ≤ segment.payload.length ∧
    segment.payload.take width = field.source.load 0 width

structure History.LaidOut (history : History) (segments : List Segment) : Prop where
  represents : Represents history.buffer segments
  length : history.accepted.length = segments.length
  carries : ∀ index field segment, history.accepted[index]? = some field →
    segments[index]? = some segment → Carries field segment (payloadStart segments index)

theorem payloadStart_append {segments : List Segment} {index : Nat} (later : List Segment)
    (bound : index ≤ segments.length) :
    payloadStart (segments ++ later) index = payloadStart segments index := by
  rw [payloadStart, List.take_append_of_le_length bound, payloadStart]

theorem payloadStart_last (segments : List Segment) :
    payloadStart segments segments.length = dtPos + (encode segments).length + 2 := by
  rw [payloadStart, List.take_length]

theorem History.LaidOut.accept {history : History} {segments : List Segment}
    (laidOut : history.LaidOut segments) {source : Memory} {numBytes : UInt8} {typeCode : TypeCode}
    {width : Nat} (fixed : fixedWidth typeCode = some width) (fits : width ≤ numBytes.toNat)
    (room : history.buffer.hasRoom numBytes = true) :
    (history.step (.serializeData (some source) numBytes typeCode)).LaidOut
      (segments ++ [paddedSegment source numBytes typeCode fits]) where
  represents := serializeData_represents laidOut.represents fixed fits room
  length := by simp [History.step, BufferCall.accepted, room, laidOut.length]
  carries := by
    intro index field segment accepted selected
    have start : history.buffer.byteLength.toNat + 2 = payloadStart segments segments.length := by
      rw [payloadStart_last, laidOut.represents.length, dataHeaderSize]
    simp only [History.step, BufferCall.accepted, room, if_true, Option.toList_some] at accepted
    by_cases old : index < segments.length
    · rw [List.getElem?_append_left (by rw [laidOut.length]; exact old)] at accepted
      rw [List.getElem?_append_left old] at selected
      rw [payloadStart_append _ (Nat.le_of_lt old)]
      exact laidOut.carries index field segment accepted selected
    · rw [List.getElem?_append_right (by rw [laidOut.length]; omega), laidOut.length] at accepted
      rw [List.getElem?_append_right (by omega)] at selected
      have last : index = segments.length := by
        have inside := (List.getElem?_eq_some_iff.mp selected).1
        simp only [List.length_singleton] at inside
        omega
      subst last
      rw [Nat.sub_self, List.getElem?_cons_zero, Option.some.injEq] at accepted selected
      subst field segment
      exact {
        position := start.trans (payloadStart_append _ (Nat.le_refl _)).symm
        typeCode := rfl
        size := paddedSegment_size fits
        moved := ⟨width, fixed, by rw [paddedSegment_length]; exact fits,
          List.take_left' Memory.load_length⟩ }

theorem History.LaidOut.step {history : History} {segments : List Segment}
    (laidOut : history.LaidOut segments) (call : BufferCall) (fixed : call.FixedWidth) :
    ∃ later, (history.step call).LaidOut later := by
  cases call with
  | toWire =>
      exact ⟨segments, toWire_represents laidOut.represents,
        by simpa [History.step, BufferCall.accepted] using laidOut.length,
        by simpa [History.step, BufferCall.accepted] using laidOut.carries⟩
  | serializeData data numBytes typeCode =>
      obtain ⟨width, fixed, fits⟩ := fixed
      cases data with
      | none =>
          exact ⟨segments, laidOut.represents,
            by simpa [History.step, BufferCall.accepted] using laidOut.length,
            by simpa [History.step, BufferCall.accepted] using laidOut.carries⟩
      | some source =>
          cases room : history.buffer.hasRoom numBytes with
          | true => exact ⟨_, laidOut.accept fixed fits room⟩
          | false =>
              refine ⟨segments, ?_, ?_, ?_⟩
              · simpa [History.step, BufferCall.apply, serializeData_rejected room]
                  using laidOut.represents
              · simpa [History.step, BufferCall.accepted, room] using laidOut.length
              · simpa [History.step, BufferCall.accepted, room] using laidOut.carries

theorem history_laidOut {calls : List BufferCall} (fixed : ∀ call ∈ calls, call.FixedWidth) :
    ∃ segments, (history calls).LaidOut segments :=
  Run.final_invariant (fun history : History => ∃ segments, history.LaidOut segments)
    (fun call member _ ⟨_, laidOut⟩ => laidOut.step call (fixed call member))
    ⟨[], createBuffer_represents, rfl, fun _ _ _ accepted => by simp at accepted⟩

/-- Typed fields survive the round trip, through any interleaving of accepted
and rejected calls and header rewrites. -/
theorem typedFields_roundTrip (calls : List BufferCall) (fixed : ∀ call ∈ calls, call.FixedWidth)
    (few : (history calls).accepted.length < maxFields) :
    (toWire (history calls).buffer).fields.toNat = (history calls).accepted.length ∧
      ∀ index < (toWire (history calls).buffer).fields.toNat, ∃ field width,
        (history calls).accepted[index]? = some field ∧ fixedWidth field.typeCode = some width ∧
          ∀ destination : Memory,
            getData (some (toWire (history calls).buffer).data) (some destination) index =
              .ok ({ size := field.numBytes, typeCode := field.typeCode, data := field.payload },
                destination.store 0 (field.source.load 0 width)) := by
  obtain ⟨segments, laidOut⟩ := history_laidOut fixed
  have count : (toWire (history calls).buffer).fields.toNat = segments.length :=
    laidOut.represents.count
  refine ⟨count.trans laidOut.length.symm, ?_⟩
  intro index inside
  rw [count] at inside
  have decodable := laidOut.represents.decodable (by rw [← laidOut.length]; exact few)
  have accepted : index < (history calls).accepted.length := by rw [laidOut.length]; exact inside
  have carried := laidOut.carries index _ _ (List.getElem?_eq_getElem accepted)
    (List.getElem?_eq_getElem inside)
  obtain ⟨width, fixedField, fits, moved⟩ := carried.moved
  refine ⟨_, width, List.getElem?_eq_getElem accepted, fixedField, fun destination => ?_⟩
  have payload := decodable.payload inside
  have front : (toWire (history calls).buffer).data.load (payloadStart segments index) width =
      (history calls).accepted[index].source.load 0 width := by
    rw [← moved, ← payload, Memory.load_take _ _ fits]
  simp only [getData, readElement_run decodable inside, getPayload_run, carried.typeCode,
    movedCount_fixed fixedField, front, carried.size, carried.position]

theorem typedFields_roundTrip_two_fields :
    let calls : List BufferCall :=
      [.serializeData (some fun lane => UInt8.ofNat lane) 4 TypeCode.float, .toWire,
        .serializeData none 4 TypeCode.float,
        .serializeData (some fun _ => 9) 5 TypeCode.uint8]
    (toWire (history calls).buffer).fields.toNat = (history calls).accepted.length ∧
      ∀ index < (toWire (history calls).buffer).fields.toNat, ∃ field width,
        (history calls).accepted[index]? = some field ∧ fixedWidth field.typeCode = some width ∧
          ∀ destination : Memory,
            getData (some (toWire (history calls).buffer).data) (some destination) index =
              .ok ({ size := field.numBytes, typeCode := field.typeCode, data := field.payload },
                destination.store 0 (field.source.load 0 width)) :=
  typedFields_roundTrip _
    (by
      intro call member
      simp only [List.mem_cons, List.not_mem_nil, or_false] at member
      rcases member with rfl | rfl | rfl | rfl
      · exact ⟨4, by decide, by decide⟩
      · trivial
      · exact ⟨4, by decide, by decide⟩
      · exact ⟨1, by decide, by decide⟩)
    (by decide)

end Sentinet.Messages
