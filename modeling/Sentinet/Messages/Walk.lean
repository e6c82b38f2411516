import Sentinet.Messages.Segments

namespace Sentinet.Messages

open Sentinet.Data

/-! The walk of `get_data` over a message that anybody may have sent.  The size
bytes of the message alone decide where it goes. -/

/-- Where the terminator of the element that starts at a position should be. -/
def elementEnd (memory : Memory) (start : Nat) : Nat := start + 2 + (memory start).toNat

/-- Where an element starts, when the elements before it are as long as they say. -/
def elementStart (memory : Memory) : (start index : Nat) → Nat
  | start, 0 => start
  | start, index + 1 => elementStart memory (elementEnd memory start + 1) index

def Reaches (memory : Memory) (start index : Nat) : Prop :=
  ∀ earlier < index, memory (elementEnd memory (elementStart memory start earlier)) = 0

/-- How many payload bytes the copy reads.  The default branch tests a whole
word before it copies anything. -/
def payloadReach (memory destination : Memory) (start : Nat) : Nat :=
  match fixedWidth (memory (start + 1)) with
  | some width => width
  | none => max 8 (copyCount (takesLongs memory (start + 2) destination 0) (memory start).toNat)

/-- The wanted element is closed, and the storage holds all that the copy reads. -/
structure ElementFits (memory destination : Memory) (start : Nat) : Prop where
  inside : elementEnd memory start < messageSize
  closed : memory (elementEnd memory start) = 0
  reach : start + 2 + payloadReach memory destination start ≤ messageSize

structure SafeGet (memory destination : Memory) (index : Nat) : Prop where
  reads : (readElement destination index).StaysBelow messageSize memory
  inside : ∀ element written, getData (some memory) (some destination) index =
    .ok (element, written) →
      2 ≤ element.data ∧ element.data + element.size.toNat < messageSize
  closed : ∀ element written, getData (some memory) (some destination) index =
    .ok (element, written) → memory (element.data + element.size.toNat) = 0

section Copies

variable {memory destination : Memory} {head position numBytes bound : Nat}

theorem copyBytes_touched :
    (copyBytes destination head position numBytes).touched memory =
      List.range' position numBytes := by
  induction numBytes generalizing destination head position with
  | zero => rfl
  | succ numBytes ih =>
      simp only [copyBytes, Reading.touched_bind, Reading.touched_byte, ih, List.range'_succ,
        List.singleton_append]

theorem copyLongs_touched :
    (copyLongs destination head position numBytes).touched memory =
      List.range' position (8 * (numBytes / 4)) := by
  induction numBytes using Nat.strongRecOn generalizing destination head position with
  | ind numBytes ih =>
      by_cases more : 4 ≤ numBytes
      · obtain ⟨rest, rfl⟩ := Nat.exists_eq_add_of_le' more
        have rounds : 8 * ((rest + 4) / 4) = 8 + 8 * (rest / 4) := by omega
        rw [rounds, ← List.range'_append_1]
        simp only [copyLongs, Reading.touched_bind, Reading.touched_word64, ih rest (by omega)]
      · have last : numBytes = 0 ∨ numBytes = 1 ∨ numBytes = 2 ∨ numBytes = 3 := by omega
        rcases last with rfl | rfl | rfl | rfl <;> rfl

theorem copyDefault_touched :
    (copyDefault destination head position numBytes).touched memory =
      List.range' position 8 ++ List.range' position
        (copyCount (takesLongs memory position destination head) numBytes) := by
  cases longs : takesLongs memory position destination head with
  | true =>
      have guard : (smallLong (memory.load64 position) &&
        smallLong (destination.load64 head)) = true := longs
      simp only [copyDefault, Reading.touched_bind, Reading.touched_word64, Reading.run_word64, guard,
        if_true, copyLongs_touched, copyLongs_run, copyBytes_touched, copyCount]
      rw [← List.range'_append_1]
  | false =>
      have guard : (smallLong (memory.load64 position) &&
        smallLong (destination.load64 head)) = false := longs
      simp only [copyDefault, Reading.touched_bind, Reading.touched_word64, Reading.run_word64, guard,
        Bool.false_eq_true, if_false, copyBytes_touched, copyCount]

theorem copyDefault_staysBelow :
    (copyDefault destination head position numBytes).StaysBelow bound memory ↔
      position + max 8 (copyCount (takesLongs memory position destination head) numBytes) ≤ bound := by
  generalize moved : copyCount (takesLongs memory position destination head) numBytes = count
  simp only [Reading.StaysBelow, copyDefault_touched, moved, List.mem_append, or_imp, forall_and,
    Reading.range'_below]
  simp only [List.mem_range'_1]
  constructor
  · intro both
    obtain ⟨word, bytes⟩ := both
    by_cases more : 8 < count
    · have last := bytes (position + count - 1) (by omega)
      omega
    · omega
  · intro room
    exact ⟨by omega, fun address inside => by omega⟩

end Copies

section Walk

variable {memory destination : Memory} {start index bound i : Nat}

theorem reaches_zero : Reaches memory start 0 :=
  fun earlier below => absurd below (Nat.not_lt_zero earlier)

theorem elementEnd_relative (memory : Memory) (i : Nat) :
    dtPos + (i + 2 + (memory (dtPos + i)).toNat) = elementEnd memory (dtPos + i) := by
  simp only [elementEnd]
  omega

theorem reaches_succ :
    Reaches memory start (index + 1) ↔
      memory (elementEnd memory start) = 0 ∧
        Reaches memory (elementEnd memory start + 1) index :=
  Nat.forall_lt_succ_left

theorem getPayload_staysBelow :
    (getPayload destination (start + 2) (memory start) (memory (start + 1))).StaysBelow
        bound memory ↔ start + 2 + payloadReach memory destination start ≤ bound := by
  unfold getPayload payloadReach fixedWidth
  generalize memory (start + 1) = typeCode
  by_cases word : typeCode ∈ [TypeCode.int32, TypeCode.uint32, TypeCode.float]
  · simp only [word, if_true, Reading.staysBelow_bind, Reading.staysBelow_word32,
      Reading.staysBelow_pure, and_true]
  by_cases byte : typeCode ∈ [TypeCode.char, TypeCode.uint8, TypeCode.int8, TypeCode.byteType]
  · simp only [word, byte, if_true, if_false, Reading.staysBelow_bind, Reading.staysBelow_byte,
      Reading.staysBelow_pure, and_true]
  by_cases half : typeCode ∈ [TypeCode.int16, TypeCode.bool]
  · simp only [word, byte, half, if_true, if_false, Reading.staysBelow_bind,
      Reading.staysBelow_word16, Reading.staysBelow_pure, and_true]
  · simp only [word, byte, half, if_false, Reading.staysBelow_bind, copyDefault_staysBelow,
      Reading.staysBelow_pure, and_true]

/-- The walk ends at the wanted element if the terminators lead there, and at
the first wrong terminator otherwise. -/
theorem skipElements_cases (memory : Memory) (index i : Nat) :
    (Reaches memory (dtPos + i) index ∧ ∃ stop, (skipElements index i).run memory = .ok stop ∧
      dtPos + stop = elementStart memory (dtPos + i) index) ∨
    (¬ Reaches memory (dtPos + i) index ∧
      (skipElements index i).run memory = .error .invalidTerminator) := by
  induction index generalizing i with
  | zero => exact Or.inl ⟨reaches_zero, i, rfl, rfl⟩
  | succ index ih =>
      have next := elementEnd_relative memory i
      -- The rest of the walk starts behind the terminator that this hop looks at.
      simp only [skipElements, Reading.run_bind, Reading.run_byte, next, reaches_succ, elementStart]
      by_cases closed : memory (elementEnd memory (dtPos + i)) = 0
      · simp only [closed, bne_self_eq_false, Bool.false_eq_true, if_false, true_and]
        rw [← next]
        exact ih (i + 2 + (memory (dtPos + i)).toNat + 1)
      · have wrong : (memory (elementEnd memory (dtPos + i)) != 0) = true := bne_iff_ne.mpr closed
        exact Or.inr ⟨fun reaches => closed reaches.1, by simp only [wrong, if_true, Reading.run_pure]⟩

/-- On its way the walk looks at the terminator of every element it reaches. -/
theorem skipElements_staysBelow :
    (skipElements index i).StaysBelow bound memory ↔
      ∀ earlier < index, Reaches memory (dtPos + i) earlier →
        elementEnd memory (elementStart memory (dtPos + i) earlier) < bound := by
  induction index generalizing i with
  | zero => simp [skipElements, Reading.staysBelow_pure]
  | succ index ih =>
      have next := elementEnd_relative memory i
      have endpoint : dtPos + i + 1 ≤ bound ∧ elementEnd memory (dtPos + i) + 1 ≤ bound ↔
          elementEnd memory (dtPos + i) < bound := by
        simp only [elementEnd]
        omega
      rw [Nat.forall_lt_succ_left]
      simp only [skipElements, Reading.staysBelow_bind, Reading.staysBelow_byte, Reading.run_byte,
        next, reaches_succ, elementStart, reaches_zero,
        true_implies]
      by_cases closed : memory (elementEnd memory (dtPos + i)) = 0
      · have later := ih (i := i + 2 + (memory (dtPos + i)).toNat + 1)
        rw [← Nat.add_assoc, next] at later
        simp only [closed, bne_self_eq_false, Bool.false_eq_true, if_false, true_and, later]
        rw [← and_assoc]
        exact and_congr_left' endpoint
      · have wrong : (memory (elementEnd memory (dtPos + i)) != 0) = true := bne_iff_ne.mpr closed
        simp only [wrong, closed, if_true, Reading.staysBelow_pure, and_true, false_and,
          false_implies, implies_true]
        exact endpoint

end Walk

section Safety

variable {memory destination : Memory} {index start : Nat}

def AcceptsIndex (memory : Memory) (index : Nat) : Prop :=
  (host16 (memory.load16 fldPos)).toNat < maxFields ∧ index < (host16 (memory.load16 fldPos)).toNat

/-! The three ways through `get_data`, each with what it returns and reads. -/

theorem fields_below : (Reading.word16 fldPos).StaysBelow messageSize memory :=
  Reading.staysBelow_word16.mpr (by decide)

theorem getData_refused (refused : ¬ AcceptsIndex memory index) :
    getData (some memory) (some destination) index = .error .invalidIndex ∧
      (readElement destination index).StaysBelow messageSize memory := by
  have guard : (decide ((host16 (memory.load16 fldPos)).toNat ≥ maxFields) ||
      decide (index ≥ (host16 (memory.load16 fldPos)).toNat)) = true := by
    simp only [AcceptsIndex, not_and_or, Nat.not_lt] at refused
    simpa only [Bool.or_eq_true, decide_eq_true_eq] using refused
  simp only [getData, readElement, Reading.run_bind, Reading.run_word16, Reading.staysBelow_bind,
    guard, if_true, Reading.run_pure, Reading.staysBelow_pure, fields_below, and_self]

theorem accepts_guard (accepts : AcceptsIndex memory index) :
    (decide ((host16 (memory.load16 fldPos)).toNat ≥ maxFields) ||
      decide (index ≥ (host16 (memory.load16 fldPos)).toNat)) = false := by
  obtain ⟨few, below⟩ := accepts
  exact Bool.or_eq_false_iff.mpr ⟨decide_eq_false (by omega), decide_eq_false (by omega)⟩

theorem getData_missed (accepts : AcceptsIndex memory index)
    (missed : ¬ Reaches memory dtPos index) :
    getData (some memory) (some destination) index = .error .invalidTerminator ∧
      ((readElement destination index).StaysBelow messageSize memory ↔
        (skipElements index 0).StaysBelow messageSize memory) := by
  rcases skipElements_cases memory index 0 with ⟨reaches, -⟩ | ⟨-, skipped⟩
  · exact absurd reaches missed
  · simp only [getData, readElement, Reading.run_bind, Reading.run_word16, Reading.staysBelow_bind,
      accepts_guard accepts, Bool.false_eq_true, if_false, skipped, Reading.run_pure,
      Reading.staysBelow_pure, fields_below, true_and, and_true]

theorem getData_reached (accepts : AcceptsIndex memory index)
    (reaches : Reaches memory dtPos index) (place : start = elementStart memory dtPos index) :
    (∃ written, getData (some memory) (some destination) index =
      .ok ({ size := memory start, typeCode := memory (start + 1), data := start + 2 }, written)) ∧
    ((readElement destination index).StaysBelow messageSize memory ↔
      (skipElements index 0).StaysBelow messageSize memory ∧ start + 2 ≤ messageSize ∧
        start + 2 + payloadReach memory destination start ≤ messageSize) := by
  rcases skipElements_cases memory index 0 with ⟨-, stop, skipped, stopped⟩ | ⟨missed, -⟩
  · have same : start = dtPos + stop := place.trans stopped.symm
    subst same
    have ordered : dtPos + stop + 1 ≤ messageSize ∧ dtPos + stop + 1 + 1 ≤ messageSize ↔
        dtPos + stop + 2 ≤ messageSize := by omega
    simp only [getData, readElement, Reading.run_bind, Reading.run_word16, Reading.staysBelow_bind,
      accepts_guard accepts, Bool.false_eq_true, if_false, skipped, Reading.run_byte,
      Reading.staysBelow_byte, getPayload_staysBelow, Reading.run_pure, Reading.staysBelow_pure,
      fields_below, true_and, and_true, ← and_assoc, ordered]
    exact ⟨_, rfl⟩
  · exact absurd reaches missed

theorem safeGet_error {error : DataError}
    (result : getData (some memory) (some destination) index = .error error)
    (reads : (readElement destination index).StaysBelow messageSize memory) :
    SafeGet memory destination index := by
  refine ⟨reads, ?_, ?_⟩
  · intro element written found
    rw [result] at found
    cases found
  · intro element written found
    rw [result] at found
    cases found

/-- `get_data` keeps its promise exactly when the walk to an accepted index
stays inside the storage and the element it gets to does. -/
theorem safeGet_iff (memory destination : Memory) (index : Nat) :
    SafeGet memory destination index ↔
      (AcceptsIndex memory index →
        (∀ earlier < index, Reaches memory dtPos earlier →
          elementEnd memory (elementStart memory dtPos earlier) < messageSize) ∧
        (Reaches memory dtPos index →
          ElementFits memory destination (elementStart memory dtPos index))) := by
  have walk : (skipElements index 0).StaysBelow messageSize memory ↔
      ∀ earlier < index, Reaches memory dtPos earlier →
        elementEnd memory (elementStart memory dtPos earlier) < messageSize :=
    skipElements_staysBelow
  by_cases accepts : AcceptsIndex memory index
  · by_cases reaches : Reaches memory dtPos index
    · generalize place : elementStart memory dtPos index = start
      obtain ⟨⟨written, result⟩, reads⟩ := getData_reached accepts reaches place.symm
      simp only [accepts, reaches, true_implies, ← walk]
      constructor
      · intro safe
        obtain ⟨skipped, -, reach⟩ := reads.mp safe.reads
        exact ⟨skipped, (safe.inside _ written result).2, safe.closed _ written result, reach⟩
      · intro all
        obtain ⟨skipped, fits⟩ := all
        have inside := fits.inside
        simp only [elementEnd] at inside
        refine ⟨reads.mpr ⟨skipped, by omega, fits.reach⟩, ?_, ?_⟩
        · intro element found read
          rw [result] at read
          cases read
          exact ⟨Nat.le_add_left 2 start, inside⟩
        · intro element found read
          rw [result] at read
          cases read
          exact fits.closed
    · obtain ⟨result, reads⟩ := getData_missed accepts reaches
      simp only [accepts, reaches, true_implies, false_implies, and_true, ← walk]
      constructor
      · intro safe
        exact reads.mp safe.reads
      · intro skipped
        exact safeGet_error result (reads.mpr skipped)
  · obtain ⟨result, reads⟩ := getData_refused accepts
    constructor
    · intro _ accepted
      exact absurd accepted accepts
    · intro _
      exact safeGet_error result reads

end Safety

def oversizedMessage : Memory :=
  Memory.store8 (Memory.store8 (fun _ => 0) fldPos 1) dtPos 255

/-- The element is returned, and its terminator lies behind the storage. -/
theorem oversizedMessage_unsafe :
    AcceptsIndex oversizedMessage 0 ∧ ¬ SafeGet oversizedMessage (fun _ => 0) 0 := by
  have accepts : AcceptsIndex oversizedMessage 0 := by
    constructor <;> decide
  refine ⟨accepts, ?_⟩
  intro safe
  have stops : (∃ written, getData (some oversizedMessage) (some fun _ => 0) 0 = .ok (_, written)) ∧ _ :=
    getData_reached accepts reaches_zero rfl
  obtain ⟨⟨written, result⟩, -⟩ := stops
  have inside := (safe.inside _ written result).2
  exact absurd inside (by decide)

end Sentinet.Messages
