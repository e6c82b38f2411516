import Sentinet.Messages.RmtCodec

namespace Sentinet.Messages

open Sentinet.Data

/-! `teensy_msg` over a connection.  The sizes of its fields set the length of
what is sent, the offsets and the type of its values what is read. -/

inductive TeensyMsg.Created : TeensyMsg → Prop where
  | create : TeensyMsg.Created createTeensyMsg
  | assign {msg : TeensyMsg} (lin ang : Word) : msg.Created → TeensyMsg.Created { msg with lin, ang }
  | toWire {msg : TeensyMsg} : msg.Created → TeensyMsg.Created (teensyMsgToWire msg)

namespace TeensyMsg

/-- The first `byte_length` bytes of the buffer after `teensy_msg_to_wire`. -/
def sent (msg : TeensyMsg) : List UInt8 := messageString (teensyMsgToWire msg).buff

/-- The bytes at the other end, in front of whatever that memory holds. -/
def received (msg : TeensyMsg) (behind : Memory) : Memory := behind.store 0 msg.sent

structure Survives (sender receiver : TeensyMsg) (behind : Memory) : Prop where
  reads : (teensyMsgFromWire receiver).StaysBelow sender.sent.length (sender.received behind)
  values : (teensyMsgFromWire receiver).run (sender.received behind) =
    { receiver with lin := sender.lin, ang := sender.ang }
  terminated : ∀ index element written,
    getData (some (sender.received behind)) (some fun _ => 0) index = .ok (element, written) →
      element.data + element.size.toNat < sender.sent.length ∧
        sender.received behind (element.data + element.size.toNat) = 0

variable {msg sender receiver : TeensyMsg} {behind : Memory} {position : Nat}

theorem Created.layout (created : msg.Created) :
    msg.indexes = #v[15, 22] ∧ msg.buff.byteLength = 25 := by
  induction created with
  | create => decide
  | assign lin ang _ ih => exact ih
  | toWire _ ih => exact ih

theorem Created.sent_length (created : msg.Created) : msg.sent.length = 25 := by
  simp only [sent, messageString, Memory.load_length, created.toWire.layout.2]
  rfl

theorem fromWire_staysBelow (created : receiver.Created) {memory : Memory} {bound : Nat} :
    (teensyMsgFromWire receiver).StaysBelow bound memory ↔ 26 ≤ bound := by
  simp only [teensyMsgFromWire, created.layout, Reading.staysBelow_bind, Reading.staysBelow_word32,
    Reading.staysBelow_pure, and_true]
  simp
  omega

theorem Created.toWire_data (created : sender.Created) :
    (teensyMsgToWire sender).buff.data =
      (sender.buff.data.store32 22 sender.ang).store32 15 sender.lin := by
  simp only [teensyMsgToWire, created.layout]
  rfl

theorem Created.toWire_top (created : sender.Created) :
    (teensyMsgToWire sender).buff.data 25 = UInt8.ofNat (sender.ang.toNat / 2 ^ 24) := by
  have digits : sender.ang.toNat / 256 / 256 / 256 = sender.ang.toNat / 2 ^ 24 := by
    simp only [Nat.div_div_eq_div_mul, Nat.reduceMul, Nat.reducePow]
  have inside : 3 < (LittleEndian.encode 4 sender.ang.toNat).length := by simp
  have stored := Memory.store_lane sender.buff.data 22 inside
  rw [created.toWire_data, Memory.store32_outside (Or.inr (by decide)), ← digits]
  exact stored

theorem Created.received_inside (created : sender.Created) (inside : position < 25) :
    sender.received behind position = (teensyMsgToWire sender).buff.data position := by
  have bound : position < sender.sent.length := by rw [created.sent_length]; exact inside
  have stored := Memory.store_lane behind 0 bound
  rw [Nat.zero_add] at stored
  rw [received, stored]
  simp [sent, messageString, Memory.load]

theorem Created.received_behind (created : sender.Created) :
    sender.received behind 25 = behind 25 :=
  Memory.store_outside (Or.inr (by rw [created.sent_length]))

theorem Created.lin_received (created : sender.Created) :
    (sender.received behind).load32 15 = sender.lin := by
  have inside : (sender.received behind).load32 15 = (teensyMsgToWire sender).buff.data.load32 15 := by
    apply Memory.load32_congr
    intro address _ upper
    exact created.received_inside (by omega)
  rw [inside, created.toWire_data, Memory.load32_store32]

/-- Three bytes of the second value are sent; the fourth is read from whatever
lies behind the message. -/
theorem Created.ang_received_iff (created : sender.Created) :
    (sender.received behind).load32 22 = sender.ang ↔
      behind 25 = UInt8.ofNat (sender.ang.toNat / 2 ^ 24) := by
  have written : (teensyMsgToWire sender).buff.data.load32 22 = sender.ang := by
    rw [created.toWire_data, Memory.load32_store32_disjoint (Or.inr (by decide)),
      Memory.load32_store32]
  have front : (sender.received behind).load 22 3 = (teensyMsgToWire sender).buff.data.load 22 3 := by
    apply Memory.load_congr
    intro address _ upper
    exact created.received_inside (by omega)
  have last : sender.received behind 25 = behind 25 := created.received_behind
  have split : (sender.received behind).load32 22 = (teensyMsgToWire sender).buff.data.load32 22 ↔ _ :=
    Memory.load32_eq_iff
  rw [written, Memory.load_add _ 22 3 1, Memory.load_add _ 22 3 1, front,
    List.append_cancel_left_eq] at split
  rw [split, ← created.toWire_top, ← last]
  exact List.singleton_inj

end TeensyMsg

/-- No `teensy_msg` survives: its first value arrives, but the last byte of the
second one is never sent. -/
theorem teensyMsg_never_survives {sender receiver : TeensyMsg} (created : sender.Created)
    (receives : receiver.Created) (behind : Memory) :
    ¬ sender.Survives receiver behind ∧
      ((teensyMsgFromWire receiver).run (sender.received behind)).lin = sender.lin ∧
      (((teensyMsgFromWire receiver).run (sender.received behind)).ang = sender.ang ↔
        behind 25 = UInt8.ofNat (sender.ang.toNat / 2 ^ 24)) := by
  refine ⟨?_, ?_, ?_⟩
  · intro survives
    have long := (TeensyMsg.fromWire_staysBelow receives).mp survives.reads
    rw [created.sent_length] at long
    contradiction
  · simpa [teensyMsgFromWire, receives.layout] using created.lin_received
  · simpa [teensyMsgFromWire, receives.layout] using created.ang_received_iff

theorem teensyMsg_never_survives_created :
    ¬ createTeensyMsg.Survives createTeensyMsg (fun _ => 0) ∧
      ((teensyMsgFromWire createTeensyMsg).run (createTeensyMsg.received fun _ => 0)).lin =
        createTeensyMsg.lin ∧
      (((teensyMsgFromWire createTeensyMsg).run (createTeensyMsg.received fun _ => 0)).ang =
          createTeensyMsg.ang ↔
        (0 : UInt8) = UInt8.ofNat (createTeensyMsg.ang.toNat / 2 ^ 24)) :=
  teensyMsg_never_survives .create .create fun _ => 0

def turningTeensyMsg : TeensyMsg := { createTeensyMsg with ang := 0x3f800000 }

/-- The value comes back without its top byte. -/
theorem turningTeensyMsg_lost :
    ((teensyMsgFromWire createTeensyMsg).run (turningTeensyMsg.received fun _ => 0)).ang =
        0x00800000 ∧
      ¬ turningTeensyMsg.Survives createTeensyMsg fun _ => 0 := by
  have decoded : ((teensyMsgFromWire createTeensyMsg).run
      (turningTeensyMsg.received fun _ => 0)).ang = 0x00800000 := by decide
  refine ⟨decoded, ?_⟩
  intro survives
  have lost := congrArg TeensyMsg.ang survives.values
  rw [decoded] at lost
  exact absurd lost (by decide)

end Sentinet.Messages
