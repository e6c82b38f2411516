import Sentinet.Data.Run
import Sentinet.Messages.RmtMessages

namespace Sentinet.Kernel

open Sentinet.Data Sentinet.Messages

/-! `serial.c`: the link to the motor controller.  The device writes a stream of
bytes; a read takes one of them, finds none or fails. -/

inductive Attempt where
  | ready | empty | failed
deriving DecidableEq, Repr

/-- What the device wrote and nobody read yet, and how the next reads turn out;
reads after those find a byte as long as there is one. -/
structure SerialPort where
  output : List UInt8
  attempts : List Attempt
deriving DecidableEq, Repr

inductive ReadByte where
  | byte (value : UInt8)
  | empty
  | failed

/-- `read(fd, b, 1)` -/
def SerialPort.read (port : SerialPort) : ReadByte × SerialPort :=
  let later := { port with attempts := port.attempts.tail }
  match port.attempts.headD .ready with
  | .failed => (.failed, later)
  | .empty => (.empty, later)
  | .ready =>
      match port.output with
      | [] => (.empty, later)
      | value :: rest => (.byte value, { later with output := rest })

structure SerialRead where
  stat : Int
  buf : Memory
  port : SerialPort

/-- The loop of `serialport_read`.  An empty read takes its turn of `i` with it. -/
def serialportReadFrom : (i remaining : Nat) → (timeout : Int) → SerialPort → Memory → SerialRead
  | _, 0, _, port, buf => { stat := 0, buf, port }
  | i, remaining + 1, timeout, port, buf =>
      if timeout > 0 then
        match port.read with
        | (.failed, port) => { stat := -1, buf, port }
        | (.empty, port) =>
            if timeout - 1 = 0 then { stat := -2, buf, port }
            else serialportReadFrom (i + 1) remaining (timeout - 1) port buf
        | (.byte value, port) =>
            serialportReadFrom (i + 1) remaining timeout port (buf.store8 i value)
      else { stat := 0, buf, port }

def serialportRead (port : SerialPort) (buf : Memory) (bytes : Nat) (timeout : Int) : SerialRead :=
  serialportReadFrom 0 bytes timeout port buf

structure StateResp where
  v : Word
  w : Word
  wErr : Word
  dt : Word
deriving DecidableEq, Repr

structure CmdVelMessage where
  lin : Word
  ang : Word

structure TeensyDevice where
  port : SerialPort
  msg : CmdVelMessage
  respMsg : StateResp
  buffer : Memory

/-- The variables of the caller that `read_teensy_response` writes through its
pointers. -/
structure MeasuredValues where
  omega : Word
  velocity : Word
  wErr : Word
  dt : Word
deriving DecidableEq, Repr

/-- `teensy_send_data`, with the bytes it writes to the port. -/
def teensySendData (device : TeensyDevice) : List UInt8 × TeensyDevice :=
  let buffer := device.buffer.store8 0 'd'.toUInt8
  let buffer := (buffer.store32 1 device.msg.lin).store32 5 device.msg.ang
  let buffer := (buffer.store8 9 '\n'.toUInt8).store8 10 0
  (buffer.load 0 11, { device with buffer })

def sendDrive (device : TeensyDevice) (lin ang : Word) : List UInt8 × TeensyDevice :=
  teensySendData { device with msg := { lin, ang } }

/-- The first byte of a response, `'r'`. -/
def responseMark : UInt8 := 'r'.toUInt8

/-- `1 + sizeof(float) * 4` -/
def responseSize : Nat := 17

def readTeensyResponse (device : TeensyDevice) (values : MeasuredValues) :
    Int × TeensyDevice × MeasuredValues :=
  let taken := serialportRead device.port device.buffer responseSize 1
  let device := { device with port := taken.port, buffer := taken.buf }
  if taken.stat < 0 then (taken.stat, device, values)
  else if device.buffer 0 ≠ responseMark then (taken.stat, device, values)
  else
    let respMsg :=
      { v := device.buffer.load32 1, w := device.buffer.load32 5
        wErr := device.buffer.load32 9, dt := device.buffer.load32 13 }
    (taken.stat, { device with respMsg },
      { velocity := device.buffer.load32 1, omega := device.buffer.load32 5
        wErr := device.buffer.load32 9, dt := device.buffer.load32 13 })

/-- The next reads all find a byte. -/
def SerialPort.DeliversInOnePiece (port : SerialPort) (count : Nat) : Prop :=
  count ≤ port.output.length ∧ ∀ attempt ∈ port.attempts.take count, attempt = .ready

instance (port : SerialPort) (count : Nat) : Decidable (port.DeliversInOnePiece count) :=
  inferInstanceAs (Decidable (_ ∧ _))

section Read

variable {port : SerialPort} {buf : Memory} {i remaining : Nat}

theorem SerialPort.read_cases (port : SerialPort) :
    (∃ value rest, port.output = value :: rest ∧ (∀ attempt ∈ port.attempts.take 1, attempt = .ready) ∧
        port.read = (.byte value, { output := rest, attempts := port.attempts.tail })) ∨
      port.read = (.empty, { port with attempts := port.attempts.tail }) ∨
      port.read = (.failed, { port with attempts := port.attempts.tail }) := by
  obtain ⟨output, attempts⟩ := port
  have ready : attempts.headD .ready = .ready → ∀ attempt ∈ attempts.take 1, attempt = .ready := by
    cases attempts with
    | nil => simp
    | cons attempt later => simp
  cases found : attempts.headD .ready with
  | failed => exact Or.inr (Or.inr (by simp only [read, found]))
  | empty => exact Or.inr (Or.inl (by simp only [read, found]))
  | ready =>
      cases output with
      | nil => exact Or.inr (Or.inl (by simp only [read, found]))
      | cons value rest =>
          exact Or.inl ⟨value, rest, rfl, ready found, by simp only [read, found]⟩

/-- With one try a read succeeds only when every byte is there at once, and then
takes those; what it took before it gave up is lost. -/
theorem serialportReadFrom_once :
    ((serialportReadFrom i remaining 1 port buf).stat = 0 ∧ port.DeliversInOnePiece remaining ∧
        (serialportReadFrom i remaining 1 port buf).buf = buf.store i (port.output.take remaining)) ∨
      (serialportReadFrom i remaining 1 port buf).stat < 0 := by
  induction remaining generalizing i port buf with
  | zero =>
      refine Or.inl ⟨rfl, ⟨Nat.zero_le _, by simp⟩, ?_⟩
      rw [List.take_zero, Memory.store_nil]
      rfl
  | succ remaining ih =>
      have positive : (1 : Int) > 0 := by decide
      obtain ⟨value, rest, output, ready, found⟩ | found | found := port.read_cases
      · simp only [serialportReadFrom, if_pos positive, found]
        obtain ⟨stat, piece, stored⟩ | failed :=
          @ih { output := rest, attempts := port.attempts.tail } (buf.store8 i value) (i + 1)
        · refine Or.inl ⟨stat, ⟨?_, fun attempt member => ?_⟩, ?_⟩
          · rw [output]
            exact Nat.succ_le_succ piece.1
          · rw [Nat.add_comm, List.take_add, List.mem_append, List.drop_one] at member
            exact member.elim (ready attempt) (piece.2 attempt)
          · rw [stored, output, List.take_succ_cons, ← List.singleton_append, Memory.store_append]
            rfl
        · exact Or.inr failed
      · simp [serialportReadFrom, found]
      · simp [serialportReadFrom, found]

/-- Whatever happens, a read takes bytes from the front of the output. -/
theorem serialportReadFrom_output {timeout : Int} :
    (serialportReadFrom i remaining timeout port buf).port.output <:+ port.output := by
  induction remaining generalizing i port buf timeout with
  | zero => exact List.suffix_refl _
  | succ remaining ih =>
      unfold serialportReadFrom
      split
      · obtain ⟨value, rest, output, ready, found⟩ | found | found := port.read_cases
        · simp only [found]
          rw [output]
          exact ih.trans (List.suffix_cons value rest)
        · simp only [found]
          split
          · exact List.suffix_refl _
          · exact ih
        · simp only [found]
          exact List.suffix_refl _
      · exact List.suffix_refl _

end Read

end Sentinet.Kernel
