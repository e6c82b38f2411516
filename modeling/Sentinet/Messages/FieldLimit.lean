import Sentinet.Messages.WireImage

namespace Sentinet.Messages

open Sentinet.Data

/-! `print_message_formatted`, and the limit it meets: a message is written as
long as there are bytes and read only as long as it has fewer than `MAX_FIELDS`
fields. -/

/-- The largest message type; the opcode getter returns 0 up to it. -/
def maxMessageType : UInt8 := ping

def getProtocolVersion (val : Memory) : UInt8 := val protPos

def getOpcode (val : Memory) : UInt8 :=
  if getProtocolVersion val = 1 then
    let ret := val opPos
    if ret ≤ maxMessageType then 0 else ret
  else 0

def getChecksum (val : Memory) : UInt16 :=
  if getProtocolVersion val = 1 then val.load16 magPos else 0

def getByteLength (val : Memory) : UInt32 :=
  if getProtocolVersion val = 1 then
    let ret := val.load32 bytePos
    if ret ≤ UInt32.ofNat messageSize then ret else 0
  else 0

def getNumberFields (val : Memory) : UInt16 :=
  if getProtocolVersion val = 1 then val.load16 fldPos else 0

structure PrintedHeader where
  protocolVersion : UInt8
  opcode : UInt8
  checksum : UInt16
  byteLength : UInt32
  fields : UInt16
deriving DecidableEq, Repr

structure PrintedElement where
  size : UInt8
  typeCode : TypeCode
  raw : List UInt8
deriving DecidableEq, Repr

/-- `print_message_raw`; a null input is `none`, and so is the dereference of it. -/
def printMessageRaw (receivedData : Memory) (input : Option Nat) (size : Nat) :
    Option (List UInt8) :=
  match input with
  | none => if size = 0 then some [] else none
  | some position => some (receivedData.load position size)

/-- The loop of `print_message_formatted`.  The error element has size 0 and a
null data pointer. -/
def printElements (receivedData : Memory) : (remaining i : Nat) → (buffer : Memory) →
    Option (List PrintedElement)
  | 0, _, _ => some []
  | remaining + 1, i, buffer =>
      match getData (some receivedData) (some buffer) i with
      | .error _ => do
          let raw ← printMessageRaw receivedData none (0 + 1)
          let rest ← printElements receivedData remaining (i + 1) buffer
          return { size := 0, typeCode := 0, raw } :: rest
      | .ok (temp, buffer) => do
          let raw ← printMessageRaw receivedData (some temp.data) (temp.size.toNat + 1)
          let rest ← printElements receivedData remaining (i + 1) buffer
          return { size := temp.size, typeCode := temp.typeCode, raw } :: rest

/-- `print_message_formatted`, with the memory its local buffer starts with. -/
def printMessageFormatted (receivedData buffer : Memory) :
    Option (PrintedHeader × List PrintedElement) := do
  let header :=
    { protocolVersion := getProtocolVersion receivedData, opcode := getOpcode receivedData
      checksum := getChecksum receivedData, byteLength := getByteLength receivedData
      fields := getNumberFields receivedData }
  let elements ← printElements receivedData (getNumberFields receivedData).toNat 0 buffer
  return (header, elements)

/-- The number of calls that find room, from a byte length on. -/
def fittingFields : (length : Nat) → List BufferCall → Nat
  | _, [] => 0
  | length, .serializeData (some _) numBytes _ :: rest =>
      if length + 3 + numBytes.toNat < messageSize then
        fittingFields (length + 3 + numBytes.toNat) rest + 1
      else fittingFields length rest
  | length, .serializeData none _ _ :: rest => fittingFields length rest
  | length, .toWire :: rest => fittingFields length rest

/-- A fixed-width type code with exactly that many bytes. -/
def BufferCall.ExactWidth : BufferCall → Prop
  | .serializeData _ numBytes typeCode => fixedWidth typeCode = some numBytes.toNat
  | .toWire => True

section Accepted

variable {buffer : DataBuffer} {segments : List Segment} {call : BufferCall}

theorem run_represents {calls : List BufferCall} (exact_width : ∀ call ∈ calls, call.ExactWidth)
    (represents : Represents buffer segments) :
    ∃ later, Represents (Run.final BufferCall.apply buffer calls) later ∧
      later.length = segments.length + fittingFields buffer.byteLength.toNat calls := by
  induction calls generalizing buffer segments with
  | nil => exact ⟨segments, represents, rfl⟩
  | cons call rest ih =>
      have restExact : ∀ call ∈ rest, call.ExactWidth := fun later member =>
        exact_width later (List.mem_cons_of_mem call member)
      have fixed := exact_width call List.mem_cons_self
      rw [Run.final_cons]
      cases call with
      | toWire => exact ih restExact (toWire_represents represents)
      | serializeData data numBytes typeCode =>
          cases data with
          | none => exact ih restExact represents
          | some source =>
              have roomIff : buffer.hasRoom numBytes = true ↔ _ := hasRoom_iff represents.bounded
              cases room : buffer.hasRoom numBytes with
              | false =>
                  have full : ¬ buffer.byteLength.toNat + 3 + numBytes.toNat < messageSize :=
                    fun fits => by simp [roomIff.mpr fits] at room
                  rw [fittingFields, if_neg full, BufferCall.apply, serializeData_rejected room]
                  exact ih restExact represents
              | true =>
                  have longer : Represents (serializeData buffer (some source) numBytes typeCode) _ :=
                    serializeData_represents represents fixed (Nat.le_refl _) room
                  obtain ⟨later, final, length⟩ := ih restExact longer
                  have advanced : (serializeData buffer (some source) numBytes
                      typeCode).byteLength.toNat = buffer.byteLength.toNat + 3 + numBytes.toNat := by
                    rw [serializeData_accepted room]
                    exact byteLength_accepted represents.bounded room
                  rw [fittingFields, if_pos (roomIff.mp room), BufferCall.apply]
                  refine ⟨later, final, ?_⟩
                  rw [length, advanced, List.length_append, List.length_singleton]
                  omega

theorem getData_few (represents : Represents buffer segments) (few : segments.length < maxFields)
    (destination : Memory) {index : Nat} (bound : index < (toWire buffer).fields.toNat) :
    ∃ found, getData (some (toWire buffer).data) (some destination) index = .ok found := by
  have inside : index < segments.length := represents.count ▸ bound
  exact ⟨_, readElement_run (represents.decodable few) inside⟩

/-- With too many fields not even the first one is read. -/
theorem getData_many (represents : Represents buffer segments) (many : maxFields ≤ segments.length)
    (destination : Memory) (index : Nat) :
    getData (some (toWire buffer).data) (some destination) index = .error .invalidIndex := by
  have guard : (decide ((host16 buffer.fields).toNat ≥ maxFields) ||
      decide (index ≥ (host16 buffer.fields).toNat)) = true := by
    rw [host16, represents.count, decide_eq_true many, Bool.true_or]
  simp only [getData, readElement, Reading.run_bind, Reading.run_word16, toWire_fields, guard,
    if_true, Reading.run_pure]

theorem printElements_isSome {receivedData : Memory} (remaining i : Nat) (buffer : Memory)
    (readable : ∀ index < i + remaining, ∀ destination,
      ∃ found, getData (some receivedData) (some destination) index = .ok found) :
    (printElements receivedData remaining i buffer).isSome = true := by
  induction remaining generalizing i buffer with
  | zero => rfl
  | succ remaining ih =>
      obtain ⟨⟨temp, after⟩, found⟩ := readable i (by omega) buffer
      have rest := ih (i + 1) after fun index bound => readable index (by omega)
      obtain ⟨elements, printed⟩ := Option.isSome_iff_exists.mp rest
      simp [printElements, found, printMessageRaw, printed]

theorem printMessageFormatted_isSome {receivedData : Memory} (buffer : Memory)
    (readable : ∀ index < (receivedData.load16 fldPos).toNat, ∀ destination,
      ∃ found, getData (some receivedData) (some destination) index = .ok found) :
    (printMessageFormatted receivedData buffer).isSome = true := by
  have fewer : (getNumberFields receivedData).toNat ≤ (receivedData.load16 fldPos).toNat := by
    unfold getNumberFields
    split
    · exact Nat.le_refl _
    · exact Nat.zero_le _
  have readAll := printElements_isSome (getNumberFields receivedData).toNat 0 buffer
    fun index bound => readable index (by omega)
  obtain ⟨elements, printed⟩ := Option.isSome_iff_exists.mp readAll
  simp [printMessageFormatted, printed]

end Accepted

/-- The message that a sequence of calls on a created buffer leaves, once it is
put on the wire. -/
def writtenMessage (calls : List BufferCall) : DataBuffer :=
  toWire (Run.final BufferCall.apply createBuffer calls)

theorem writtenMessage_protocolVersion (calls : List BufferCall) :
    getProtocolVersion (writtenMessage calls).data = 1 := by
  have kept (call : BufferCall) (buffer : DataBuffer) :
      (call.apply buffer).protocolVersion = buffer.protocolVersion := by
    cases call with
    | toWire => rfl
    | serializeData data numBytes typeCode =>
        cases data with
        | none => rfl
        | some source =>
            simp only [BufferCall.apply, serializeData]
            split
            · rfl
            · rfl
  have started : (Run.final BufferCall.apply createBuffer calls).protocolVersion = protocolVersion :=
    Run.final_invariant (fun buffer : DataBuffer => buffer.protocolVersion = protocolVersion)
      (fun call _ buffer held => (kept call buffer).trans held) rfl
  exact (toWire_carriesHeader _).protocolVersion.trans started

theorem writtenMessage_represents {calls : List BufferCall}
    (exact_width : ∀ call ∈ calls, call.ExactWidth) :
    ∃ segments, Represents (Run.final BufferCall.apply createBuffer calls) segments ∧
      (writtenMessage calls).fields.toNat = segments.length ∧
      (getNumberFields (writtenMessage calls).data).toNat = segments.length ∧
      segments.length = fittingFields dataHeaderSize calls := by
  obtain ⟨segments, represents, length⟩ := run_represents exact_width createBuffer_represents
  have start : createBuffer.byteLength.toNat = dataHeaderSize := rfl
  rw [List.length_nil, Nat.zero_add, start] at length
  have read : getNumberFields (writtenMessage calls).data = (writtenMessage calls).fields := by
    rw [getNumberFields, if_pos (writtenMessage_protocolVersion calls), writtenMessage, toWire_fields]
    rfl
  exact ⟨segments, represents, represents.count, read ▸ represents.count, length⟩

/-- The decoder reads every field that was accepted, and printing a message
never follows a null pointer, exactly when fewer than `MAX_FIELDS` calls fit. -/
theorem decoder_accepts_iff (calls : List BufferCall)
    (exact_width : ∀ call ∈ calls, call.ExactWidth) :
    ((∀ index < (writtenMessage calls).fields.toNat, ∀ destination : Memory, ∃ found,
        getData (some (writtenMessage calls).data) (some destination) index = .ok found) ∧
      ∀ buffer, (printMessageFormatted (writtenMessage calls).data buffer).isSome = true) ↔
      fittingFields dataHeaderSize calls < maxFields := by
  obtain ⟨segments, represents, count, _, length⟩ := writtenMessage_represents exact_width
  rw [← length]
  constructor
  · intro accepts
    by_contra many
    have refused := getData_many represents (Nat.not_lt.mp many) (fun _ => 0) 0
    have first : 0 < (writtenMessage calls).fields.toNat := by
      simp only [maxFields] at many
      omega
    obtain ⟨found, accepted⟩ := accepts.1 0 first fun _ => 0
    rw [writtenMessage, refused] at accepted
    contradiction
  · intro few
    have readable : ∀ index < (writtenMessage calls).fields.toNat, ∀ destination : Memory, ∃ found,
        getData (some (writtenMessage calls).data) (some destination) index = .ok found :=
      fun index bound destination => getData_few represents few destination bound
    refine ⟨readable, ?_⟩
    intro buffer
    refine printMessageFormatted_isSome buffer ?_
    rw [writtenMessage, toWire_fields]
    exact readable

/-- Calls that each append one character. -/
def characters (count : Nat) : List BufferCall :=
  List.replicate count (.serializeData (some fun _ => 0) 1 TypeCode.char)

theorem decoder_accepts_iff_one_character :
    ((∀ index < (writtenMessage (characters 1)).fields.toNat, ∀ destination : Memory, ∃ found,
        getData (some (writtenMessage (characters 1)).data) (some destination) index = .ok found) ∧
      ∀ buffer,
        (printMessageFormatted (writtenMessage (characters 1)).data buffer).isSome = true) ↔
      fittingFields dataHeaderSize (characters 1) < maxFields :=
  decoder_accepts_iff (characters 1) (by simp [characters, BufferCall.ExactWidth]; decide)

/-- Thirty-two characters fit, and none of them can be read. -/
theorem characters_refused :
    (writtenMessage (characters 32)).fields = 32 ∧
      getData (some (writtenMessage (characters 32)).data) (some fun _ => 0) 0 =
        .error .invalidIndex ∧
      printMessageFormatted (writtenMessage (characters 32)).data (fun _ => 0) = none ∧
      ¬ ∀ index < (writtenMessage (characters 32)).fields.toNat, ∀ destination : Memory, ∃ found,
        getData (some (writtenMessage (characters 32)).data) (some destination) index =
          .ok found := by
  have exactWidth : ∀ call ∈ characters 32, call.ExactWidth := fun call member => by
    rw [List.eq_of_mem_replicate member]
    rfl
  have fitting : fittingFields dataHeaderSize (characters 32) = 32 := by decide
  obtain ⟨segments, represents, count, number, length⟩ := writtenMessage_represents exactWidth
  rw [fitting] at length
  rw [length] at count number
  have refused := getData_many represents (by rw [length]; exact Nat.le_refl 32)
  refine ⟨UInt16.toNat_inj.mp count, refused _ 0, ?_, ?_⟩
  · rw [printMessageFormatted, number, printElements]
    rw [writtenMessage, refused _ 0]
    simp only [printMessageRaw, Nat.zero_add, Nat.one_ne_zero, if_false, Option.bind_eq_bind,
      Option.bind_none]
  · intro accepts
    obtain ⟨found, accepted⟩ := accepts 0 (by rw [count]; decide) fun _ => 0
    exact absurd ((refused _ 0).symm.trans accepted) (by simp)

end Sentinet.Messages
