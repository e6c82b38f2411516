import Sentinet.Kernel.Serial

namespace Sentinet.Kernel

open Sentinet.Data

/-! `serialport_read` against what its caller expects of it, for every pattern of
empty reads.  The counter of its loop is the position in the buffer and the number
of reads made at once. -/

def ReadByte.attempt : ReadByte → Attempt
  | .byte _ => .ready
  | .empty => .empty
  | .failed => .failed

namespace SerialPort

/-- How the next reads turn out. -/
def nextReads (port : SerialPort) : Nat → List Attempt
  | 0 => []
  | count + 1 => port.read.1.attempt :: port.read.2.nextReads count

/-- The bytes that the device delivered until only those of `later` were left. -/
def deliveredUntil (port later : SerialPort) : List UInt8 :=
  port.output.take (port.output.length - later.output.length)

end SerialPort

/-- On success the buffer holds the first bytes delivered during the call; any
other result is -1 or -2; nothing behind the buffer is written. -/
structure DeliversPrefix (port : SerialPort) (buf : Memory) (bytes : Nat) (taken : SerialRead) :
    Prop where
  delivered : taken.stat = 0 → taken.buf.load 0 bytes = (port.deliveredUntil taken.port).take bytes
  status : taken.stat = 0 ∨ taken.stat = -1 ∨ taken.stat = -2
  bounded : ∀ address, bytes ≤ address → taken.buf address = buf address

section Loop

variable {port : SerialPort} {buf : Memory} {i remaining : Nat} {timeout : Int}

theorem serialportReadFrom_status (positive : timeout > 0) :
    (serialportReadFrom i remaining timeout port buf).stat = 0 ∧
        .failed ∉ port.nextReads remaining ∧
        ((port.nextReads remaining).count .empty : Int) < timeout ∨
      ((serialportReadFrom i remaining timeout port buf).stat = -1 ∨
          (serialportReadFrom i remaining timeout port buf).stat = -2) ∧
        (.failed ∈ port.nextReads remaining ∨
          timeout ≤ ((port.nextReads remaining).count .empty : Int)) := by
  induction remaining generalizing i port buf timeout with
  | zero => exact Or.inl ⟨rfl, List.not_mem_nil, positive⟩
  | succ remaining ih =>
      rw [serialportReadFrom, if_pos positive, SerialPort.nextReads]
      obtain ⟨value, rest, output, ready, found⟩ | found | found := port.read_cases
      · simp only [found, ReadByte.attempt]
        have later := @ih { output := rest, attempts := port.attempts.tail } (buf.store8 i value)
          (i + 1) timeout positive
        simpa using later
      · simp only [found, ReadByte.attempt]
        by_cases last : timeout - 1 = 0
        · rw [if_pos last]
          refine Or.inr ⟨Or.inr rfl, Or.inr ?_⟩
          simp only [List.count_cons_self]
          omega
        · rw [if_neg last]
          have later := @ih { port with attempts := port.attempts.tail } buf (i + 1) (timeout - 1)
            (by omega)
          simp only [List.mem_cons, reduceCtorEq, false_or, List.count_cons_self, Nat.cast_add,
            Nat.cast_one]
          rcases later with ⟨stat, reads, few⟩ | ⟨stat, reads⟩
          · exact Or.inl ⟨stat, reads, by omega⟩
          · exact Or.inr ⟨stat, reads.imp_right fun many => by omega⟩
      · simp only [found, ReadByte.attempt]
        exact Or.inr ⟨Or.inl trivial, Or.inl List.mem_cons_self⟩

theorem serialportReadFrom_bounded {address : Nat}
    (outside : address < i ∨ i + remaining ≤ address) :
    (serialportReadFrom i remaining timeout port buf).buf address = buf address := by
  induction remaining generalizing i port buf timeout with
  | zero => rfl
  | succ remaining ih =>
      unfold serialportReadFrom
      split
      · obtain ⟨value, rest, output, ready, found⟩ | found | found := port.read_cases
        · simp only [found]
          rw [ih (by omega), Memory.store8_outside (by omega)]
        · simp only [found]
          split
          · rfl
          · exact ih (by omega)
        · simp only [found]
      · rfl

/-- A success has made every read; those that found a byte took it. -/
theorem serialportReadFrom_taken (positive : timeout > 0)
    (succeeds : (serialportReadFrom i remaining timeout port buf).stat = 0) :
    (serialportReadFrom i remaining timeout port buf).port.output.length +
        (port.nextReads remaining).count .ready = port.output.length := by
  induction remaining generalizing i port buf timeout with
  | zero => rfl
  | succ remaining ih =>
      rw [serialportReadFrom, if_pos positive] at succeeds ⊢
      rw [SerialPort.nextReads]
      obtain ⟨value, rest, output, ready, found⟩ | found | found := port.read_cases
      · simp only [found, ReadByte.attempt] at succeeds ⊢
        rw [output, List.length_cons, List.count_cons_self, ← Nat.add_assoc]
        exact congrArg Nat.succ (ih positive succeeds)
      · simp only [found, ReadByte.attempt] at succeeds ⊢
        by_cases last : timeout - 1 = 0
        · rw [if_pos last] at succeeds
          simp at succeeds
        · rw [if_neg last] at succeeds ⊢
          have later := ih (by omega) succeeds
          simpa using later
      · simp [found] at succeeds

theorem serialportReadFrom_stored (positive : timeout > 0)
    (succeeds : (serialportReadFrom i remaining timeout port buf).stat = 0)
    (gapless : .empty ∉ port.nextReads remaining) :
    (serialportReadFrom i remaining timeout port buf).buf =
      buf.store i (port.output.take remaining) := by
  induction remaining generalizing i port buf timeout with
  | zero =>
      rw [List.take_zero, Memory.store_nil]
      rfl
  | succ remaining ih =>
      rw [serialportReadFrom, if_pos positive] at succeeds ⊢
      rw [SerialPort.nextReads] at gapless
      obtain ⟨value, rest, output, ready, found⟩ | found | found := port.read_cases
      · simp only [found, ReadByte.attempt, List.mem_cons, not_or] at succeeds gapless ⊢
        rw [ih positive succeeds gapless.2, output, List.take_succ_cons, ← List.singleton_append,
          Memory.store_append]
        rfl
      · simp [found, ReadByte.attempt] at gapless
      · simp [found] at succeeds

end Loop

namespace SerialPort

variable {port : SerialPort} {count : Nat}

theorem nextReads_length : (port.nextReads count).length = count := by
  induction count generalizing port with
  | zero => rfl
  | succ count ih => rw [nextReads, List.length_cons, ih]

theorem count_attempts (attempts : List Attempt) :
    attempts.count .ready + attempts.count .empty + attempts.count .failed = attempts.length := by
  induction attempts with
  | nil => rfl
  | cons attempt later ih => cases attempt <;> simp <;> omega

/-- Reads without a failure find a byte each, but for the empty ones. -/
theorem nextReads_ready (steady : .failed ∉ port.nextReads count) :
    (port.nextReads count).count .ready + (port.nextReads count).count .empty = count := by
  have all := count_attempts (port.nextReads count)
  rw [List.count_eq_zero_of_not_mem steady, nextReads_length] at all
  exact all

end SerialPort

section Prefix

variable {port : SerialPort} {buf : Memory} {bytes : Nat} {timeout : Int}

/-- A success with an empty read in between has taken too few bytes. -/
theorem serialportRead_delivered_iff (positive : timeout > 0)
    (succeeds : (serialportRead port buf bytes timeout).stat = 0)
    (steady : .failed ∉ port.nextReads bytes) :
    (serialportRead port buf bytes timeout).buf.load 0 bytes =
        (port.deliveredUntil (serialportRead port buf bytes timeout).port).take bytes ↔
      .empty ∉ port.nextReads bytes := by
  have taken : (serialportRead port buf bytes timeout).port.output.length +
      (port.nextReads bytes).count .ready = port.output.length :=
    serialportReadFrom_taken positive succeeds
  have reads := SerialPort.nextReads_ready steady
  constructor
  · intro delivered
    have lengths := congrArg List.length delivered
    simp only [Memory.load_length, List.length_take, SerialPort.deliveredUntil] at lengths
    exact List.count_eq_zero.mp (by omega)
  · intro gapless
    have none_empty := List.count_eq_zero_of_not_mem gapless
    have whole : port.output.length - (serialportRead port buf bytes timeout).port.output.length =
        bytes := by omega
    have stored : (serialportRead port buf bytes timeout).buf =
        buf.store 0 (port.output.take bytes) :=
      serialportReadFrom_stored positive succeeds gapless
    rw [stored, SerialPort.deliveredUntil, whole, List.take_take, Nat.min_self]
    exact Memory.load_store_of_length (by rw [List.length_take]; omega)

/-- A read delivers a prefix of the stream exactly when it fails or runs out of
tries within as many reads as bytes, or none of these is empty. -/
theorem serialportRead_deliversPrefix_iff (port : SerialPort) (buf : Memory) (bytes : Nat)
    (timeout : Int) (positive : timeout > 0) :
    DeliversPrefix port buf bytes (serialportRead port buf bytes timeout) ↔
      .failed ∈ port.nextReads bytes ∨
        timeout ≤ ((port.nextReads bytes).count .empty : Int) ∨ .empty ∉ port.nextReads bytes := by
  have bounded : ∀ address, bytes ≤ address →
      (serialportRead port buf bytes timeout).buf address = buf address := by
    intro address behind
    exact serialportReadFrom_bounded (Or.inr (by omega))
  rcases @serialportReadFrom_status port buf 0 bytes timeout positive with
    ⟨succeeds, steady, few⟩ | ⟨fails, reads⟩
  · have in_full := serialportRead_delivered_iff positive succeeds steady
    constructor
    · intro holds
      exact Or.inr (Or.inr (in_full.mp (holds.delivered succeeds)))
    · intro condition
      rcases condition with failed | many | gapless
      · exact absurd failed steady
      · omega
      · exact ⟨fun _ => in_full.mpr gapless, Or.inl succeeds, bounded⟩
  · have unsuccessful : (serialportRead port buf bytes timeout).stat ≠ 0 := by
      unfold serialportRead
      omega
    exact ⟨fun _ => reads.imp_right Or.inl,
      fun _ => ⟨fun succeeds => absurd succeeds unsuccessful, Or.inr fails, bounded⟩⟩

theorem serialportRead_deliversPrefix_piece :
    (0 : Int) < 5 ∧ DeliversPrefix { output := [7, 8], attempts := [] } (fun _ => 0) 2
      (serialportRead { output := [7, 8], attempts := [] } (fun _ => 0) 2 5) :=
  ⟨by decide, (serialportRead_deliversPrefix_iff _ _ _ _ (by decide)).mpr
    (Or.inr (Or.inr (by simp [SerialPort.nextReads, SerialPort.read, ReadByte.attempt])))⟩

/-- Two bytes asked for, one empty read, then the two bytes: the call succeeds with
one byte in the second place and nothing in the first. -/
theorem serialportRead_leaves_gap :
    ¬DeliversPrefix { output := [7, 8], attempts := [.empty] } (fun _ => 0) 2
      (serialportRead { output := [7, 8], attempts := [.empty] } (fun _ => 0) 2 5) := by
  intro holds
  have delivered := congrArg List.length (holds.delivered rfl)
  exact absurd delivered (by decide)

end Prefix

end Sentinet.Kernel
