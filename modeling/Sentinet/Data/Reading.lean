import Sentinet.Data.Memory

namespace Sentinet.Data

/-! Programs that read a memory one byte at a time.

A decoder written as a `Reading` can learn about the memory only through the
positions it asks for, so the positions it touches on a given memory are part of
its meaning, and two memories that agree there cannot be told apart.
-/

inductive Reading (α : Type) where
  | done (result : α)
  | read (position : Nat) (next : UInt8 → Reading α)

namespace Reading

variable {α β : Type}

def bind : Reading α → (α → Reading β) → Reading β
  | .done result, continuation => continuation result
  | .read position next, continuation => .read position fun byte => (next byte).bind continuation

instance : Monad Reading where
  pure := .done
  bind := bind

def run : Reading α → Memory → α
  | .done result, _ => result
  | .read position next, memory => (next (memory position)).run memory

def touched : Reading α → Memory → List Nat
  | .done _, _ => []
  | .read position next, memory => position :: (next (memory position)).touched memory

def StaysBelow (bound : Nat) (reading : Reading α) (memory : Memory) : Prop :=
  ∀ position ∈ reading.touched memory, position < bound

def byte (position : Nat) : Reading UInt8 := .read position .done

def bytes : (position count : Nat) → Reading (List UInt8)
  | _, 0 => .done []
  | position, count + 1 => .read position fun first =>
      (bytes (position + 1) count).bind fun rest => .done (first :: rest)

variable {memory other : Memory} {position count : Nat}

@[simp] theorem run_pure (result : α) : (pure result : Reading α).run memory = result := rfl

@[simp] theorem run_bind (memory : Memory) (reading : Reading α) (continuation : α → Reading β) :
    (reading >>= continuation).run memory = (continuation (reading.run memory)).run memory := by
  change (reading.bind continuation).run memory = _
  induction reading with
  | done result => rfl
  | read position next ih => exact ih (memory position)

@[simp] theorem touched_pure (result : α) : (pure result : Reading α).touched memory = [] := rfl

@[simp] theorem touched_bind (memory : Memory) (reading : Reading α) (continuation : α → Reading β) :
    (reading >>= continuation).touched memory =
      reading.touched memory ++ (continuation (reading.run memory)).touched memory := by
  change (reading.bind continuation).touched memory = _
  induction reading with
  | done result => rfl
  | read position next ih => exact congrArg (position :: ·) (ih (memory position))

@[simp] theorem run_byte : (byte position).run memory = memory position := rfl

@[simp] theorem touched_byte : (byte position).touched memory = [position] := rfl

@[simp] theorem run_bytes : (bytes position count).run memory = memory.load position count := by
  induction count generalizing position with
  | zero => rfl
  | succ count ih =>
      have rest := run_bind memory (bytes (position + 1) count)
        (fun rest => .done (memory position :: rest))
      rw [ih] at rest
      have split := Memory.load_add memory position 1 count
      rw [Nat.add_comm 1 count] at split
      exact rest.trans split.symm

@[simp] theorem touched_bytes :
    (bytes position count).touched memory = List.range' position count := by
  induction count generalizing position with
  | zero => rfl
  | succ count ih =>
      have rest := touched_bind memory (bytes (position + 1) count)
        (fun rest => .done (memory position :: rest))
      rw [ih] at rest
      rw [List.range'_succ]
      refine congrArg (position :: ·) (rest.trans ?_)
      simp [touched]

/-- Nothing outside the touched positions can influence a reading. -/
theorem run_congr {reading : Reading α}
    (agree : ∀ position ∈ reading.touched memory, memory position = other position) :
    reading.run memory = reading.run other ∧ reading.touched memory = reading.touched other := by
  induction reading with
  | done result => exact ⟨rfl, rfl⟩
  | read position next ih =>
      have first := agree position (by simp [touched])
      have rest := ih (memory position) fun later member => agree later (by simp [touched, member])
      simp only [run, touched, ← first]
      exact ⟨rest.1, congrArg (position :: ·) rest.2⟩

theorem run_congr_below {bound : Nat} {reading : Reading α}
    (stays : reading.StaysBelow bound memory)
    (agree : ∀ position < bound, memory position = other position) :
    reading.run memory = reading.run other :=
  (run_congr fun position member => agree position (stays position member)).1

theorem staysBelow_bind {bound : Nat} {reading : Reading α} {continuation : α → Reading β} :
    (reading >>= continuation).StaysBelow bound memory ↔
      reading.StaysBelow bound memory ∧
        (continuation (reading.run memory)).StaysBelow bound memory := by
  simp only [StaysBelow, touched_bind, List.mem_append, or_imp, forall_and]

/-! Typed loads through a pointer. -/

def word16 (position : Nat) : Reading UInt16 := do
  let loaded ← bytes position 2
  return UInt16.ofNat (LittleEndian.decode loaded)

def word32 (position : Nat) : Reading UInt32 := do
  let loaded ← bytes position 4
  return UInt32.ofNat (LittleEndian.decode loaded)

def word64 (position : Nat) : Reading UInt64 := do
  let loaded ← bytes position 8
  return UInt64.ofNat (LittleEndian.decode loaded)

@[simp] theorem run_word16 : (word16 position).run memory = memory.load16 position := by
  simp [word16, Memory.load16]

@[simp] theorem run_word32 : (word32 position).run memory = memory.load32 position := by
  simp [word32, Memory.load32]

@[simp] theorem run_word64 : (word64 position).run memory = memory.load64 position := by
  simp [word64, Memory.load64]

@[simp] theorem touched_word16 :
    (word16 position).touched memory = List.range' position 2 := by simp [word16]

@[simp] theorem touched_word32 :
    (word32 position).touched memory = List.range' position 4 := by simp [word32]

@[simp] theorem touched_word64 :
    (word64 position).touched memory = List.range' position 8 := by simp [word64]

theorem staysBelow_pure {bound : Nat} (result : α) :
    (pure result : Reading α).StaysBelow bound memory := by
  simp [StaysBelow]

theorem staysBelow_byte {bound : Nat} :
    (byte position).StaysBelow bound memory ↔ position + 1 ≤ bound := by
  simp only [StaysBelow, touched_byte, List.mem_singleton, forall_eq, Nat.add_one_le_iff]

theorem range'_below {bound : Nat} :
    (∀ address ∈ List.range' position (count + 1), address < bound) ↔
      position + (count + 1) ≤ bound := by
  simp only [List.mem_range'_1]
  refine ⟨?_, fun room address inside => by omega⟩
  intro stays
  have last := stays (position + count) (by omega)
  omega

theorem staysBelow_word16 {bound : Nat} :
    (word16 position).StaysBelow bound memory ↔ position + 2 ≤ bound := by
  simp only [StaysBelow, touched_word16, range'_below]

theorem staysBelow_word32 {bound : Nat} :
    (word32 position).StaysBelow bound memory ↔ position + 4 ≤ bound := by
  simp only [StaysBelow, touched_word32, range'_below]

theorem staysBelow_word64 {bound : Nat} :
    (word64 position).StaysBelow bound memory ↔ position + 8 ≤ bound := by
  simp only [StaysBelow, touched_word64, range'_below]

end Reading

end Sentinet.Data
