import Sentinet.Messages.Copy

namespace Sentinet.Messages

open Sentinet.Data

/-! The data segment of a message as what it stands for: a list of typed
payloads.  `get_data` is related to that list here, independently of how a
buffer came to hold it. -/

/-- One element of the data segment: `[size][type code][payload][0]`. -/
structure Segment where
  typeCode : TypeCode
  payload : List UInt8
  fits : payload.length < 256

namespace Segment

def size (segment : Segment) : UInt8 := UInt8.ofNat segment.payload.length

def bytes (segment : Segment) : List UInt8 :=
  segment.size :: segment.typeCode :: (segment.payload ++ [0])

@[simp] theorem size_toNat (segment : Segment) : segment.size.toNat = segment.payload.length :=
  UInt8.toNat_ofNat_of_lt' segment.fits

@[simp] theorem bytes_length (segment : Segment) :
    segment.bytes.length = segment.payload.length + 3 := by
  simp [bytes]

end Segment

def encode (segments : List Segment) : List UInt8 := segments.flatMap Segment.bytes

@[simp] theorem encode_nil : encode [] = [] := rfl

@[simp] theorem encode_cons (segment : Segment) (rest : List Segment) :
    encode (segment :: rest) = segment.bytes ++ encode rest := rfl

@[simp] theorem encode_append (first second : List Segment) :
    encode (first ++ second) = encode first ++ encode second :=
  List.flatMap_append

def payloadStart (segments : List Segment) (index : Nat) : Nat :=
  dtPos + (encode (segments.take index)).length + 2

def HoldsAt (memory : Memory) (position : Nat) (segments : List Segment) : Prop :=
  memory.load position (encode segments).length = encode segments

instance (memory : Memory) (position : Nat) (segments : List Segment) :
    Decidable (HoldsAt memory position segments) := inferInstanceAs (Decidable (_ = _))

variable {memory destination : Memory} {position index : Nat} {segment : Segment}
  {segments rest : List Segment}

theorem holdsAt_append {first second : List Segment} :
    HoldsAt memory position (first ++ second) ↔
      HoldsAt memory position first ∧ HoldsAt memory (position + (encode first).length) second := by
  simp only [HoldsAt, encode_append, List.length_append, Memory.load_add]
  constructor
  · exact fun same => List.append_inj same Memory.load_length
  · intro both
    obtain ⟨first, second⟩ := both
    rw [first, second]

theorem holdsAt_cons :
    HoldsAt memory position (segment :: rest) ↔
      memory.load position segment.bytes.length = segment.bytes ∧
        HoldsAt memory (position + segment.bytes.length) rest := by
  have split : HoldsAt memory position ([segment] ++ rest) ↔ _ := holdsAt_append
  simpa [HoldsAt] using split

theorem segment_parts (stored : memory.load position segment.bytes.length = segment.bytes) :
    memory position = segment.size ∧ memory (position + 1) = segment.typeCode ∧
      memory.load (position + 2) segment.payload.length = segment.payload ∧
      memory (position + (2 + segment.payload.length)) = 0 := by
  have header : 0 < segment.bytes.length ∧ 1 < segment.bytes.length := by simp
  refine ⟨Memory.apply_of_load stored header.1, Memory.apply_of_load stored header.2, ?_, ?_⟩
  · have body := congrArg (fun bytes => (bytes.drop 2).take segment.payload.length) stored
    simp only [Memory.load_drop] at body
    rw [Memory.load_take _ _ (by simp only [Segment.bytes_length]; omega)] at body
    rw [body]
    simp [Segment.bytes]
  · rw [Memory.apply_of_load stored (by simp only [Segment.bytes_length]; omega)]
    simp [Segment.bytes, Nat.add_comm 2]

/-- The bytes of one element after a payload of the same length was stored in it. -/
theorem load_overwritten {replacement : Segment}
    (stored : memory.load position segment.bytes.length = segment.bytes)
    (sameCode : replacement.typeCode = segment.typeCode)
    (sameLength : replacement.payload.length = segment.payload.length) :
    (memory.store (position + 2) replacement.payload).load position replacement.bytes.length =
      replacement.bytes := by
  obtain ⟨size, code, -, terminator⟩ := segment_parts stored
  have sameSize : replacement.size = segment.size := by
    rw [Segment.size, sameLength, Segment.size]
  have parts : replacement.bytes.length = 2 + replacement.payload.length + 1 := by
    simp only [Segment.bytes_length]; omega
  have front : (memory.store (position + 2) replacement.payload).load position 2 =
      [replacement.size, replacement.typeCode] := by
    rw [Memory.load_store_disjoint (Or.inl (Nat.le_refl _)), sameSize, sameCode, ← size, ← code]
    rfl
  have back : (memory.store (position + 2) replacement.payload).load
      (position + (2 + replacement.payload.length)) 1 = [0] := by
    rw [Memory.load_store_disjoint (Or.inr (by omega)), sameLength, ← terminator]
    rfl
  rw [parts, Memory.load_add, Memory.load_add, front, Memory.load_store_same, back]
  rfl

/-- Storing a payload of the same length over an element replaces that element
and no other. -/
theorem HoldsAt.overwrite (holds : HoldsAt memory position segments) (bound : index < segments.length)
    (replacement : Segment) (sameCode : replacement.typeCode = segments[index].typeCode)
    (sameLength : replacement.payload.length = segments[index].payload.length) :
    HoldsAt (memory.store (position + (encode (segments.take index)).length + 2) replacement.payload)
      position (segments.set index replacement) := by
  induction index generalizing position segments with
  | zero =>
      cases segments with
      | nil => simp at bound
      | cons segment rest =>
          obtain ⟨stored, holdsRest⟩ := holdsAt_cons.mp holds
          simp only [List.getElem_cons_zero] at sameCode sameLength
          have sameBytes : replacement.bytes.length = segment.bytes.length := by
            simp only [Segment.bytes_length, sameLength]
          simp only [List.take_zero, encode_nil, List.length_nil, Nat.add_zero, List.set_cons_zero]
          refine holdsAt_cons.mpr ⟨?_, ?_⟩
          · exact load_overwritten stored sameCode sameLength
          · rw [sameBytes]
            exact (Memory.load_store_disjoint (Or.inr (by
              simp only [Segment.bytes_length]; omega))).trans holdsRest
  | succ index ih =>
      cases segments with
      | nil => simp at bound
      | cons segment rest =>
          obtain ⟨stored, holdsRest⟩ := holdsAt_cons.mp holds
          have restBound : index < rest.length := by simp only [List.length_cons] at bound; omega
          have replaced := ih holdsRest restBound sameCode sameLength
          have start : position + (encode ((segment :: rest).take (index + 1))).length + 2 =
              position + segment.bytes.length + (encode (rest.take index)).length + 2 := by
            simp only [List.take_succ_cons, encode_cons, List.length_append]; omega
          rw [start, List.set_cons_succ]
          refine holdsAt_cons.mpr ⟨?_, replaced⟩
          rw [Memory.load_store_disjoint (Or.inl (by omega)), stored]

theorem skipElements_run {i : Nat} (holds : HoldsAt memory (dtPos + i) segments)
    (bound : index ≤ segments.length) :
    (skipElements index i).run memory = .ok (i + (encode (segments.take index)).length) := by
  induction index generalizing i segments with
  | zero => simp [skipElements]
  | succ index ih =>
      cases segments with
      | nil => simp at bound
      | cons segment rest =>
          obtain ⟨stored, holdsRest⟩ := holdsAt_cons.mp holds
          obtain ⟨size, -, -, terminator⟩ := segment_parts stored
          have next : i + 2 + segment.payload.length + 1 = i + segment.bytes.length := by
            simp only [Segment.bytes_length]; omega
          have closed : memory (dtPos + (i + 2 + segment.payload.length)) = 0 := by
            rw [← terminator, Nat.add_assoc, Nat.add_assoc]
          have restBound : index ≤ rest.length := by simp only [List.length_cons] at bound; omega
          rw [Nat.add_assoc] at holdsRest
          have continued := ih holdsRest restBound
          simp only [skipElements, Reading.run_bind, Reading.run_byte, size, Segment.size_toNat,
            closed, bne_self_eq_false, Bool.false_eq_true, if_false, next, continued]
          simp only [List.take_succ_cons, encode_cons, List.length_append, Nat.add_assoc]

/-- The header of a message that holds these segments counts them, and there
are few enough for the decoder to accept the count. -/
structure Decodable (memory : Memory) (segments : List Segment) : Prop where
  count : (memory.load16 fldPos).toNat = segments.length
  few : segments.length < maxFields
  holds : HoldsAt memory dtPos segments

theorem Decodable.element (decodable : Decodable memory segments) (bound : index < segments.length) :
    memory.load (dtPos + (encode (segments.take index)).length) segments[index].bytes.length =
      segments[index].bytes := by
  have split : segments = segments.take index ++ segments[index] :: segments.drop (index + 1) := by
    rw [List.getElem_cons_drop, List.take_append_drop]
  have holds := decodable.holds
  rw [split] at holds
  exact (holdsAt_cons.mp (holdsAt_append.mp holds).2).1

theorem Decodable.payload (decodable : Decodable memory segments) (bound : index < segments.length) :
    memory.load (payloadStart segments index) segments[index].payload.length =
      segments[index].payload :=
  (segment_parts (decodable.element bound)).2.2.1

/-- `get_data` finds every element of a decodable message and copies its
payload the way its type code says. -/
theorem readElement_run (decodable : Decodable memory segments) (bound : index < segments.length) :
    (readElement destination index).run memory =
      .ok ({ size := segments[index].size
             typeCode := segments[index].typeCode
             data := payloadStart segments index },
        (getPayload destination (payloadStart segments index) segments[index].size
          segments[index].typeCode).run memory) := by
  obtain ⟨size, code, -, -⟩ := segment_parts (decodable.element bound)
  have few := decodable.few
  have guard : (decide ((host16 (memory.load16 fldPos)).toNat ≥ maxFields) ||
      decide (index ≥ (host16 (memory.load16 fldPos)).toNat)) = false := by
    have count := decodable.count
    exact Bool.or_eq_false_iff.mpr ⟨decide_eq_false (by simp only [host16]; omega),
      decide_eq_false (by simp only [host16]; omega)⟩
  have skipped : (skipElements index 0).run memory = .ok (0 + _) :=
    skipElements_run decodable.holds (Nat.le_of_lt bound)
  simp only [readElement, Reading.run_bind, Reading.run_word16, guard, Bool.false_eq_true, if_false,
    skipped, Nat.zero_add, Reading.run_byte, size, code, Reading.run_pure, payloadStart]

/-! Success of `get_data` does not depend on the destination: it is found first
and filled afterwards. -/

def locate (memory : Memory) (index : Nat) : Except DataError Element :=
  if (host16 (memory.load16 fldPos)).toNat ≥ maxFields ||
      index ≥ (host16 (memory.load16 fldPos)).toNat then
    .error .invalidIndex
  else ((skipElements index 0).run memory).map fun i =>
    { size := memory (dtPos + i), typeCode := memory (dtPos + i + 1), data := dtPos + i + 2 }

theorem getData_eq (memory destination : Memory) (index : Nat) :
    getData (some memory) (some destination) index =
      (locate memory index).map fun element =>
        (element, destination.store 0 (memory.load element.data (movedCount element.typeCode
          (takesLongs memory element.data destination 0) element.size.toNat))) := by
  simp only [getData, readElement, locate, Reading.run_bind, Reading.run_word16]
  cases guard : (decide ((host16 (memory.load16 fldPos)).toNat ≥ maxFields) ||
      decide (index ≥ (host16 (memory.load16 fldPos)).toNat)) with
  | true => simp only [if_true, Reading.run_pure, Except.map]
  | false =>
      simp only [Bool.false_eq_true, if_false, Reading.run_bind]
      cases (skipElements index 0).run memory with
      | error error => simp only [Reading.run_pure, Except.map]
      | ok i =>
          simp only [Reading.run_bind, Reading.run_byte, getPayload_run, Reading.run_pure, Except.map]

end Sentinet.Messages
