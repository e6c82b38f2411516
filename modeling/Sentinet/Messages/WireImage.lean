import Sentinet.Messages.RmtCodec

namespace Sentinet.Messages

open Sentinet.Data

/-! The messages of `rmt_messages.c` as the self-describing decoder reads them:
the header, and behind it a row of four-byte fields at seven bytes' distance. -/

/-- The header of a message: what `to_wire` writes for a buffer. -/
structure CarriesHeader (memory : Memory) (buffer : DataBuffer) : Prop where
  protocolVersion : memory protPos = buffer.protocolVersion
  opcode : memory opPos = buffer.opcode
  functionalFlags : memory.load16 funcPos = host16 buffer.functionalFlags
  checksum : memory.load16 magPos = host16 buffer.checksum
  byteLength : memory.load32 bytePos = host32 buffer.byteLength
  fields : memory.load16 fldPos = host16 buffer.fields

structure WordField where
  typeCode : TypeCode
  word : Word

def WordField.segment (field : WordField) : Segment where
  typeCode := field.typeCode
  payload := LittleEndian.encode 4 field.word.toNat
  fits := by simp

def wordSegments (fields : List WordField) : List Segment := fields.map WordField.segment

/-- Where the payload of a field starts. -/
def wordPosition (index : Nat) : Nat := 15 + 7 * index

section Header

variable {memory other : Memory} {buffer : DataBuffer}

theorem CarriesHeader.congr (header : CarriesHeader memory buffer)
    (agree : ∀ address < nullTermPos, other address = memory address) :
    CarriesHeader other buffer where
  protocolVersion := (agree protPos (by decide)).trans header.protocolVersion
  opcode := (agree opPos (by decide)).trans header.opcode
  functionalFlags := (Memory.load16_congr fun address _ upper => agree address (by
    simp only [nullTermPos, fldPos, bytePos, magPos] at *; omega)).trans header.functionalFlags
  checksum := (Memory.load16_congr fun address _ upper => agree address (by
    simp only [nullTermPos, fldPos, bytePos] at *; omega)).trans header.checksum
  byteLength := (Memory.load32_congr fun address _ upper => agree address (by
    simp only [nullTermPos, fldPos] at *; omega)).trans header.byteLength
  fields := (Memory.load16_congr fun address _ upper => agree address (by
    simp only [nullTermPos] at *; omega)).trans header.fields

/-- A header is the twelve bytes it takes. -/
theorem carriesHeader_iff (wired : CarriesHeader other buffer) :
    CarriesHeader memory buffer ↔ memory.load 0 nullTermPos = other.load 0 nullTermPos := by
  constructor
  · intro header
    have functionalFlags := header.functionalFlags.trans wired.functionalFlags.symm
    have checksum := header.checksum.trans wired.checksum.symm
    have byteLength := header.byteLength.trans wired.byteLength.symm
    have fields := header.fields.trans wired.fields.symm
    rw [Memory.load16_eq_iff] at functionalFlags checksum fields
    rw [Memory.load32_eq_iff] at byteLength
    have versions : memory.load 0 2 = other.load 0 2 :=
      congrArg₂ (fun version opcode => [version, opcode])
        (header.protocolVersion.trans wired.protocolVersion.symm)
        (header.opcode.trans wired.opcode.symm)
    have parts (window : Memory) : window.load 0 nullTermPos = window.load 0 2 ++
        window.load funcPos 2 ++ window.load magPos 2 ++ window.load bytePos 4 ++
          window.load fldPos 2 := by
      rw [show nullTermPos = 2 + 2 + 2 + 4 + 2 from rfl, Memory.load_add, Memory.load_add,
        Memory.load_add, Memory.load_add]
      rfl
    rw [parts, parts, versions, functionalFlags, checksum, byteLength, fields]
  · intro same
    refine wired.congr ?_
    intro address inside
    have below : address < (other.load 0 nullTermPos).length := by simpa using inside
    have kept : memory (0 + address) = _ :=
      Memory.apply_of_load (by rw [Memory.load_length]; exact same) below
    rw [Nat.zero_add] at kept
    rw [kept]
    simp [Memory.load]

theorem toWire_carriesHeader (buffer : DataBuffer) : CarriesHeader (toWire buffer).data buffer where
  protocolVersion := by
    simp (disch := decide) only [toWire, Memory.store16_outside, Memory.store32_outside,
      Memory.store8_outside, Memory.store8_same]
  opcode := by
    simp (disch := decide) only [toWire, Memory.store16_outside, Memory.store32_outside,
      Memory.store8_same]
  functionalFlags := by
    have kept : (toWire buffer).data.load16 funcPos = (Memory.store16 _ funcPos _).load16 funcPos :=
      Memory.load16_congr fun address _ upper => by
        simp only [toWire]
        rw [Memory.store16_outside (Or.inl (by simp only [fldPos, bytePos, magPos] at *; omega)),
          Memory.store32_outside (Or.inl (by simp only [bytePos, magPos] at *; omega)),
          Memory.store16_outside (Or.inl (by simp only [magPos] at *; omega))]
    exact kept.trans (Memory.load16_store16 _)
  checksum := by
    have kept : (toWire buffer).data.load16 magPos = (Memory.store16 _ magPos _).load16 magPos :=
      Memory.load16_congr fun address _ upper => by
        simp only [toWire]
        rw [Memory.store16_outside (Or.inl (by simp only [fldPos, bytePos] at *; omega)),
          Memory.store32_outside (Or.inl (by simp only [bytePos] at *; omega))]
    exact kept.trans (Memory.load16_store16 _)
  byteLength := by
    have kept : (toWire buffer).data.load32 bytePos = (Memory.store32 _ bytePos _).load32 bytePos :=
      Memory.load32_congr fun address _ upper => by
        simp only [toWire]
        rw [Memory.store16_outside (Or.inl (by simp only [fldPos] at *; omega))]
    exact kept.trans (Memory.load32_store32 _)
  fields := toWire_fields buffer

end Header

section Fields

variable {memory destination : Memory} {buffer : DataBuffer} {fields : List WordField}
  {index : Nat}

theorem encode_wordSegments_length (fields : List WordField) :
    (encode (wordSegments fields)).length = 7 * fields.length := by
  induction fields with
  | nil => rfl
  | cons field rest ih =>
      rw [wordSegments, List.map_cons, encode_cons, List.length_append, ← wordSegments, ih]
      simp only [Segment.bytes_length, WordField.segment, LittleEndian.encode_length,
        List.length_cons]
      omega

theorem payloadStart_wordSegments (bound : index ≤ fields.length) :
    payloadStart (wordSegments fields) index = wordPosition index := by
  have front : (wordSegments fields).take index = wordSegments (fields.take index) := by
    rw [wordSegments, ← List.map_take, wordSegments]
  rw [payloadStart, front, encode_wordSegments_length, List.length_take_of_le bound, wordPosition]
  simp only [dtPos, nullTermPos, fldPos, bytePos, magPos, funcPos, opPos, protPos]
  omega

theorem HoldsAt.store_word (holds : HoldsAt memory dtPos (wordSegments fields)) (index : Nat)
    (field : WordField) (bound : index < fields.length)
    (sameCode : field.typeCode = fields[index].typeCode) :
    HoldsAt (memory.store32 (wordPosition index) field.word) dtPos
      (wordSegments (fields.set index field)) := by
  have segmentBound : index < (wordSegments fields).length := by simpa [wordSegments] using bound
  have selected : (wordSegments fields)[index] = fields[index].segment := List.getElem_map _
  have replaced := holds.overwrite segmentBound field.segment (by rw [selected]; exact sameCode)
    (by rw [selected]; simp [WordField.segment])
  have start := payloadStart_wordSegments (Nat.le_of_lt bound)
  rw [payloadStart] at start
  rw [start] at replaced
  rw [wordSegments, List.map_set]
  exact replaced

/-- `get_data` on a message of four-byte fields returns the word of the field. -/
theorem getData_word (decodable : Decodable memory (wordSegments fields))
    (bound : index < fields.length) (fixed : fixedWidth fields[index].typeCode = some 4) :
    ∃ after, getData (some memory) (some destination) index =
        .ok ({ size := 4, typeCode := fields[index].typeCode, data := wordPosition index }, after) ∧
      after.load32 0 = fields[index].word := by
  have segmentBound : index < (wordSegments fields).length := by simpa [wordSegments] using bound
  have selected : (wordSegments fields)[index] = fields[index].segment := List.getElem_map _
  have stored := decodable.payload segmentBound
  have found : (readElement destination index).run memory = _ :=
    readElement_run decodable segmentBound
  rw [selected, payloadStart_wordSegments (Nat.le_of_lt bound)] at stored found
  have width : fields[index].segment.payload.length = 4 := LittleEndian.encode_length _ _
  have size : fields[index].segment.size = 4 := by rw [Segment.size, width]; rfl
  have code : fields[index].segment.typeCode = fields[index].typeCode := rfl
  rw [size, getPayload_run, code, movedCount_fixed fixed] at found
  rw [width] at stored
  refine ⟨_, found, ?_⟩
  rw [stored]
  exact Memory.load32_store32 _

end Fields

/-- `get_data` finds these fields, in this order. -/
def CarriesFields (memory : Memory) (fields : List WordField) : Prop :=
  ∀ (destination : Memory) (index : Nat) (field : WordField), fields[index]? = some field →
    ∃ after, getData (some memory) (some destination) index =
        .ok ({ size := 4, typeCode := field.typeCode, data := wordPosition index }, after) ∧
      after.load32 0 = field.word

theorem Decodable.carriesFields {memory : Memory} {fields : List WordField}
    (decodable : Decodable memory (wordSegments fields))
    (widths : ∀ field ∈ fields, fixedWidth field.typeCode = some 4) :
    CarriesFields memory fields := by
  intro destination index field selected
  obtain ⟨bound, rfl⟩ := List.getElem?_eq_some_iff.mp selected
  exact getData_word decodable bound (widths _ (List.getElem_mem bound))

/-- What a self-describing reader finds in a memory: the header of a buffer and
the fields behind it. -/
structure WireImage (memory : Memory) (header : DataBuffer) (fields : List WordField) : Prop where
  header : CarriesHeader memory header
  values : CarriesFields memory fields

/-- What the storage of a message holds between calls. -/
structure HoldsWords (memory : Memory) (header : DataBuffer) (fields : List WordField) : Prop where
  header : CarriesHeader memory header
  holds : HoldsAt memory dtPos (wordSegments fields)

section Words

variable {memory : Memory} {buff header : DataBuffer} {fields : List WordField}

theorem HoldsWords.store_word (words : HoldsWords memory header fields) (index : Nat)
    (field : WordField) (bound : index < fields.length) (sameCode : field.typeCode = fields[index].typeCode) :
    HoldsWords (memory.store32 (wordPosition index) field.word) header (fields.set index field) where
  header := words.header.congr fun address inside => Memory.store32_outside (Or.inl (by
    simp only [nullTermPos, fldPos, bytePos, magPos, funcPos, opPos, protPos, wordPosition] at *
    omega))
  holds := words.holds.store_word index field bound sameCode

/-- The string that is sent carries the image, whatever lies behind it. -/
theorem HoldsWords.wireImage (words : HoldsWords buff.data header fields)
    (length : buff.byteLength.toNat = dtPos + 7 * fields.length)
    (count : header.fields.toNat = fields.length) (few : fields.length < maxFields)
    (widths : ∀ field ∈ fields, fixedWidth field.typeCode = some 4) (behind : Memory) :
    WireImage (Memory.ofString (messageString buff) behind) header fields := by
  have carried : CarriesHeader (Memory.ofString (messageString buff) behind) header := by
    refine words.header.congr fun address inside => ?_
    have below : address < (buff.data.load 0 buff.byteLength.toNat).length := by
      simp only [dtPos] at length
      simp only [Memory.load_length]
      omega
    rw [messageString, Memory.ofString_inside below]
    simp [Memory.load]
  have decodable : Decodable (Memory.ofString (messageString buff) behind) (wordSegments fields) := by
    refine ⟨?_, by simpa [wordSegments] using few, ?_⟩
    · rw [carried.fields, host16, count]
      simp [wordSegments]
    · rw [HoldsAt, messageString, encode_wordSegments_length, Memory.load_ofString_load (by omega),
        ← encode_wordSegments_length]
      exact words.holds
  exact ⟨carried, decodable.carriesFields widths⟩

end Words

end Sentinet.Messages
