import Sentinet.Messages.Ping

namespace Sentinet.Messages

open Sentinet.Data

/-! The ping codec over its whole format: what decoding makes of a message,
and which messages and which bytes it gives back unchanged. -/

/-- The type fields keep what is a ping type and lose everything else. -/
def limitedType (value : UInt8) : UInt8 := if value ≤ maxPingType then value else 0

theorem limitedType_limitedType (value : UInt8) :
    limitedType (limitedType value) = limitedType value := by
  unfold limitedType
  by_cases known : value ≤ maxPingType
  · rw [if_pos known, if_pos known]
  · rw [if_neg known]
    exact if_pos (by decide)

/-- What is left of a message after it was read: nothing but the version
unless that is 1, and no unknown types. -/
def PingBuffer.normalForm (buffer : PingBuffer) : PingBuffer where
  prot := buffer.prot
  op := if buffer.prot = 1 then limitedType buffer.op else 0
  type := if buffer.prot = 1 then limitedType buffer.type else 0
  code := if buffer.prot = 1 then buffer.code else 0
  check := if buffer.prot = 1 then buffer.check else 0
  excess := if buffer.prot = 1 then buffer.excess else 0
  data := buffer.data

theorem PingBuffer.normalForm_normalForm (buffer : PingBuffer) :
    buffer.normalForm.normalForm = buffer.normalForm := by
  by_cases version : buffer.prot = 1
  · simp only [normalForm, version, if_true, limitedType_limitedType]
  · simp only [normalForm, version, if_false]

def PingBuffer.bytes (buffer : PingBuffer) : List UInt8 :=
  [buffer.prot] ++ [buffer.op] ++ [buffer.type] ++ LittleEndian.encode 2 buffer.code.toNat ++
    LittleEndian.encode 2 buffer.check.toNat ++ LittleEndian.encode 8 buffer.excess.toNat

/-- The message that a memory holds, as it stands there. -/
def pingAt (source data : Memory) : PingBuffer where
  prot := source 0
  op := source 1
  type := source 2
  code := source.load16 3
  check := source.load16 5
  excess := source.load64 7
  data := data

section Codec

variable {source data : Memory} {buffer destination : PingBuffer}

@[simp] theorem PingBuffer.bytes_length : buffer.bytes.length = pingMessageSize := by
  simp [bytes, pingMessageSize, excessPosPing, checkPosPing, codePosPing, typePosPing, opPosPing,
    protoPosPing]

theorem toWirePing_load : (toWirePing buffer).data.load 0 pingMessageSize = buffer.bytes := by
  have stored : (toWirePing buffer).data = buffer.data.store 0 buffer.bytes := by
    simp only [toWirePing, pingData, PingBuffer.bytes, Memory.store_append]
    rfl
  rw [stored, Memory.load_store_of_length PingBuffer.bytes_length]

theorem pingAt_bytes : (pingAt source data).bytes = source.load 0 pingMessageSize := by
  have fields : pingMessageSize = 1 + 1 + 1 + 2 + 2 + 8 := rfl
  rw [fields]
  simp only [PingBuffer.bytes, pingAt, Memory.encode_load16, Memory.encode_load64, Memory.load_add]
  rfl

theorem PingBuffer.bytes_inj {first second : PingBuffer} (same : first.bytes = second.bytes) :
    first = { second with data := first.data } := by
  obtain ⟨prot, op, type, code, check, excess, held⟩ := first
  simp only [bytes, List.append_assoc, List.cons_append, List.nil_append, List.cons.injEq] at same
  obtain ⟨sameProt, sameOp, sameType, words⟩ := same
  obtain ⟨sameCode, words⟩ := List.append_inj words (by simp)
  obtain ⟨sameCheck, sameExcess⟩ := List.append_inj words (by simp)
  have code_eq := (LittleEndian.encode_eq_iff code.toNat_lt second.code.toNat_lt).mp sameCode
  have check_eq := (LittleEndian.encode_eq_iff check.toNat_lt second.check.toNat_lt).mp sameCheck
  have excess_eq := (LittleEndian.encode_eq_iff excess.toNat_lt second.excess.toNat_lt).mp sameExcess
  rw [UInt16.toNat_inj.mp code_eq, UInt16.toNat_inj.mp check_eq, UInt64.toNat_inj.mp excess_eq,
    sameProt, sameOp, sameType]

theorem pingAt_wire (wire : source.load 0 pingMessageSize = buffer.bytes) :
    pingAt source data = { buffer with data } :=
  PingBuffer.bytes_inj (pingAt_bytes.trans wire)

theorem run_limitedByte (source : Memory) (position : Nat) :
    (limitedByte position).run source = limitedType (source position) := rfl

/-- Decoding is taking the fifteen bytes as they stand, then the normal form. -/
theorem serializeFromPing_eq (destination : PingBuffer) (source : Memory) :
    serializeFromPing destination (some source) =
      (.ok, (pingAt source destination.data).normalForm) := by
  by_cases version : source 0 = 1
  · simp [serializeFromPing, readPing, getProtocolVersionPing, getOpcodeImplPing, getTypeImplPing,
      getCodeImplPing, getChecksumImplPing, getExcessImplPing, run_limitedByte, version, opPosPing,
      typePosPing, codePosPing, checkPosPing, excessPosPing, protoPosPing, pingAt,
      PingBuffer.normalForm]
  · simp [serializeFromPing, readPing, getProtocolVersionPing, getOpcodeImplPing, getTypeImplPing,
      getCodeImplPing, getChecksumImplPing, getExcessImplPing, version, pingAt,
      PingBuffer.normalForm]

theorem serializeFromPing_toWirePing
    (wire : source.load 0 pingMessageSize = (toWirePing buffer).data.load 0 pingMessageSize) :
    serializeFromPing destination (some source) =
      (.ok, { buffer.normalForm with data := destination.data }) := by
  rw [toWirePing_load] at wire
  rw [serializeFromPing_eq, pingAt_wire wire]
  rfl

theorem normalForm_pingAt (version : source 0 = 1) (op : source 1 ≤ maxPingType)
    (type : source 2 ≤ maxPingType) : (pingAt source data).normalForm = pingAt source data := by
  have known : limitedType (source 1) = source 1 ∧ limitedType (source 2) = source 2 :=
    ⟨if_pos op, if_pos type⟩
  simp only [PingBuffer.normalForm, pingAt, version, if_true, known]

end Codec

/-- The codec keeps exactly the normal forms: encoding and decoding gives the
normal form, decoding and encoding gives back every valid message byte for byte,
and decoding once more than needed changes nothing. -/
theorem pingCodec_normalForm :
    (∀ (buffer destination : PingBuffer) (source : Memory), buffer.prot = 1 →
      source.load 0 pingMessageSize = (toWirePing buffer).data.load 0 pingMessageSize →
        serializeFromPing destination (some source) =
          (.ok, { buffer with
            op := if buffer.op ≤ maxPingType then buffer.op else 0
            type := if buffer.type ≤ maxPingType then buffer.type else 0
            data := destination.data })) ∧
    (∀ (destination : PingBuffer) (source : Memory), source 0 = 1 → source 1 ≤ maxPingType →
      source 2 ≤ maxPingType →
        (toWirePing (serializeFromPing destination (some source)).2).data.load 0 pingMessageSize =
          source.load 0 pingMessageSize) ∧
    (∀ (destination : PingBuffer) (source again : Memory),
      again.load 0 pingMessageSize =
        (toWirePing (serializeFromPing destination (some source)).2).data.load 0 pingMessageSize →
      serializeFromPing destination (some again) = serializeFromPing destination (some source)) := by
  refine ⟨?_, ?_, ?_⟩
  · intro buffer destination source version wire
    rw [serializeFromPing_toWirePing wire]
    simp only [PingBuffer.normalForm, version, if_true, limitedType]
  · intro destination source version op type
    rw [toWirePing_load, serializeFromPing_eq, normalForm_pingAt version op type, pingAt_bytes]
  · intro destination source again wire
    rw [serializeFromPing_toWirePing wire, serializeFromPing_eq, PingBuffer.normalForm_normalForm]
    rfl

def unknownPing : PingBuffer := { createBufferPing with type := 9, code := 513 }

theorem pingCodec_normalForm_unknown :
    serializeFromPing createBufferPing (some (toWirePing unknownPing).data) =
        (.ok, { unknownPing with type := 0, data := createBufferPing.data }) ∧
      (toWirePing (serializeFromPing unknownPing (some (toWirePing createBufferPing).data)).2).data.load
          0 pingMessageSize = (toWirePing createBufferPing).data.load 0 pingMessageSize ∧
      serializeFromPing unknownPing (some (toWirePing (serializeFromPing unknownPing
          (some fun _ => 7)).2).data) = serializeFromPing unknownPing (some fun _ => 7) := by
  obtain ⟨encoded, decoded, again⟩ := pingCodec_normalForm
  exact ⟨encoded unknownPing createBufferPing _ rfl rfl,
    decoded unknownPing (toWirePing createBufferPing).data (by decide) (by decide) (by decide),
    again unknownPing (fun _ => 7) _ rfl⟩

end Sentinet.Messages
