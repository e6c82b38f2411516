import Sentinet.Messages.FieldLimit

namespace Sentinet.Messages

open Sentinet.Data

/-! The header as it is written by `to_wire` and read back by the getters. -/

/-- No message type. -/
def undefined : UInt8 := 0

/-- What the getters make of the header of a buffer that was put on the wire. -/
structure HeaderRoundTrips (buffer : DataBuffer) : Prop where
  version : getProtocolVersion (toWire buffer).data = buffer.protocolVersion
  opcode : buffer.protocolVersion = 1 → getOpcode (toWire buffer).data =
    if buffer.opcode ≤ maxMessageType then buffer.opcode else 0
  checksum : buffer.protocolVersion = 1 → getChecksum (toWire buffer).data = buffer.checksum
  byteLength : buffer.protocolVersion = 1 →
    getByteLength (toWire buffer).data = buffer.byteLength
  fields : buffer.protocolVersion = 1 → getNumberFields (toWire buffer).data = buffer.fields
  unversioned : buffer.protocolVersion ≠ 1 → getOpcode (toWire buffer).data = 0 ∧
    getChecksum (toWire buffer).data = 0 ∧ getByteLength (toWire buffer).data = 0 ∧
      getNumberFields (toWire buffer).data = 0
  payload : ∀ position, nullTermPos ≤ position →
    (toWire buffer).data position = buffer.data position

section Getters

variable {memory : Memory} {buffer : DataBuffer}

/-- The range test is the wrong way round: every message type reads back as 0. -/
theorem getOpcode_versioned (header : CarriesHeader memory buffer)
    (versioned : buffer.protocolVersion = 1) :
    getOpcode memory = if buffer.opcode ≤ maxMessageType then 0 else buffer.opcode := by
  have version : getProtocolVersion memory = 1 := header.protocolVersion.trans versioned
  rw [getOpcode, if_pos version, header.opcode]

theorem getChecksum_versioned (header : CarriesHeader memory buffer)
    (versioned : buffer.protocolVersion = 1) : getChecksum memory = buffer.checksum := by
  have version : getProtocolVersion memory = 1 := header.protocolVersion.trans versioned
  rw [getChecksum, if_pos version, header.checksum, host16]

theorem getByteLength_versioned (header : CarriesHeader memory buffer)
    (versioned : buffer.protocolVersion = 1) (small : buffer.byteLength.toNat ≤ messageSize) :
    getByteLength memory = buffer.byteLength := by
  have version : getProtocolVersion memory = 1 := header.protocolVersion.trans versioned
  have limited : buffer.byteLength ≤ UInt32.ofNat messageSize := UInt32.le_iff_toNat_le.mpr small
  rw [getByteLength, if_pos version, header.byteLength, host32]
  exact if_pos limited

theorem getNumberFields_versioned (header : CarriesHeader memory buffer)
    (versioned : buffer.protocolVersion = 1) : getNumberFields memory = buffer.fields := by
  have version : getProtocolVersion memory = 1 := header.protocolVersion.trans versioned
  rw [getNumberFields, if_pos version, header.fields, host16]

theorem getters_unversioned (header : CarriesHeader memory buffer)
    (unversioned : buffer.protocolVersion ≠ 1) :
    getOpcode memory = 0 ∧ getChecksum memory = 0 ∧ getByteLength memory = 0 ∧
      getNumberFields memory = 0 := by
  have version : getProtocolVersion memory ≠ 1 := by
    intro same
    exact unversioned (header.protocolVersion.symm.trans same)
  simp only [getOpcode, getChecksum, getByteLength, getNumberFields, if_neg version, and_self]

theorem opcode_read_back_iff (opcode : UInt8) :
    (if opcode ≤ maxMessageType then 0 else opcode) =
        (if opcode ≤ maxMessageType then opcode else 0) ↔ opcode = undefined := by
  by_cases known : opcode ≤ maxMessageType
  · rw [if_pos known, if_pos known]
    exact eq_comm
  · rw [if_neg known, if_neg known]
    exact Iff.rfl

end Getters

/-- Everything but the opcode of a message comes back from the header. -/
theorem headerRoundTrips_iff (buffer : DataBuffer) (small : buffer.byteLength.toNat ≤ messageSize) :
    HeaderRoundTrips buffer ↔ (buffer.protocolVersion = 1 → buffer.opcode = undefined) := by
  have header := toWire_carriesHeader buffer
  constructor
  · intro trips versioned
    have read := trips.opcode versioned
    rw [getOpcode_versioned header versioned] at read
    exact (opcode_read_back_iff buffer.opcode).mp read
  · intro blank
    refine ⟨header.protocolVersion, ?_, getChecksum_versioned header, ?_,
      getNumberFields_versioned header, getters_unversioned header, ?_⟩
    · intro versioned
      rw [getOpcode_versioned header versioned]
      exact (opcode_read_back_iff buffer.opcode).mpr (blank versioned)
    · intro versioned
      exact getByteLength_versioned header versioned small
    · intro position beyond
      exact toWire_outside buffer beyond

theorem headerRoundTrips_iff_untyped :
    HeaderRoundTrips { createBuffer with opcode := undefined } ↔
      (createBuffer.protocolVersion = 1 → undefined = undefined) :=
  headerRoundTrips_iff { createBuffer with opcode := undefined } (by decide)

/-- A created buffer says that it is a data packet, and nobody reads it. -/
theorem dataPacket_unread :
    createBuffer.opcode = dataPacket ∧ getOpcode (toWire createBuffer).data = 0 ∧
      ¬ HeaderRoundTrips createBuffer := by
  have unread : getOpcode (toWire createBuffer).data = 0 := by decide
  refine ⟨rfl, unread, ?_⟩
  intro trips
  have read := trips.opcode rfl
  rw [unread] at read
  exact absurd read (by decide)

end Sentinet.Messages
