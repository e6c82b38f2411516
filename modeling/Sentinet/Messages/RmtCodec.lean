import Sentinet.Messages.RmtMessages

namespace Sentinet.Messages

open Sentinet.Data

/-! The messages a program can hold: made by the create function, then assigned
to and serialized any number of times.  Their offsets and their length never
move, so what one such message puts on the wire any other can read.
-/

section CmdVel

inductive CmdVel.Created : CmdVel → Prop where
  | create : CmdVel.Created createCmdVel
  | assign {vel : CmdVel} (lin ang : Word) : vel.Created → CmdVel.Created { vel with lin, ang }
  | toWire {vel : CmdVel} : vel.Created → CmdVel.Created (cmdVelToWire vel)

variable {vel sender : CmdVel}

theorem CmdVel.Created.layout (created : vel.Created) :
    vel.indexes = #v[15, 22] ∧ vel.buff.byteLength = 27 := by
  induction created with
  | create => decide
  | assign lin ang _ ih => exact ih
  | toWire _ ih => exact ih

theorem cmdVelFromWire_created {memory : Memory} (created : vel.Created) :
    ((cmdVelFromWire vel).run memory).Created := by
  have assigned := CmdVel.Created.assign (memory.load32 vel.indexes[0])
    (memory.load32 vel.indexes[1]) created
  simpa only [cmdVelFromWire, Reading.run_bind, Reading.run_word32, Reading.run_pure] using assigned

/-- What one `cmd_vel` puts on the wire, any other reads back bit for bit. -/
theorem cmdVelFromWire_toWire (receiver : vel.Created) (created : sender.Created)
    (behind : Memory) :
    (cmdVelFromWire vel).run (Memory.ofString (messageString (cmdVelToWire sender).buff) behind) =
      { vel with lin := sender.lin, ang := sender.ang } := by
  have layout := receiver.layout
  have sent := created.layout
  simp (disch := decide) [cmdVelFromWire, cmdVelToWire, messageString, layout, sent,
    Memory.load32_ofString, Memory.load32_store32_disjoint]

theorem cmdVelFromWire_staysBelow (receiver : vel.Created) {memory : Memory} {bound : Nat} :
    (cmdVelFromWire vel).StaysBelow bound memory ↔ 26 ≤ bound := by
  simp only [cmdVelFromWire, receiver.layout, Reading.staysBelow_bind, Reading.staysBelow_word32,
    Reading.staysBelow_pure, and_true]
  simp
  omega

end CmdVel

section PathState

inductive PathState.Created : PathState → Prop where
  | create : PathState.Created createPathState
  | assign {path : PathState} (x y theta v w : Word) :
      path.Created → PathState.Created { path with x, y, theta, v, w }
  | toWire {path : PathState} : path.Created → PathState.Created (pathStateToWire path)

variable {path sender : PathState}

theorem PathState.Created.layout (created : path.Created) :
    path.indexes = #v[15, 22, 29, 36, 43] ∧ path.buff.byteLength = 48 := by
  induction created with
  | create => decide
  | assign x y theta v w _ ih => exact ih
  | toWire _ ih => exact ih

theorem pathStateFromWire_toWire (receiver : path.Created) (created : sender.Created)
    (behind : Memory) :
    (pathStateFromWire path).run
        (Memory.ofString (messageString (pathStateToWire sender).buff) behind) =
      { path with
        x := sender.x, y := sender.y, theta := sender.theta, v := sender.v, w := sender.w } := by
  have layout := receiver.layout
  have sent := created.layout
  simp (disch := decide) [pathStateFromWire, pathStateToWire, messageString, layout, sent,
    Memory.load32_ofString, Memory.load32_store32_disjoint]

theorem pathStateFromWire_staysBelow (receiver : path.Created) {memory : Memory} {bound : Nat} :
    (pathStateFromWire path).StaysBelow bound memory ↔ 47 ≤ bound := by
  simp only [pathStateFromWire, receiver.layout, Reading.staysBelow_bind, Reading.staysBelow_word32,
    Reading.staysBelow_pure, and_true]
  simp
  omega

end PathState

/-! The sensor messages share the offset of their tag. -/

theorem createSensorMsg_indexes : createSensorMsg.indexes = #v[15] := by decide

theorem sensorMsgFromWire_run {memory : Memory} :
    ((sensorMsgFromWire createSensorMsg).run memory).1 =
      if memory.load32 15 = cameraMessage then (cameraMessage.toNat : Int)
      else if memory.load32 15 = teensyMsg then (teensyMsg.toNat : Int)
      else -1 := by
  have offset : createSensorMsg.indexes[0] = 15 := by simp [createSensorMsg_indexes]
  simp only [sensorMsgFromWire, offset, Reading.run_bind, Reading.run_word32]
  split
  · rfl
  · split <;> rfl

theorem sensorMsgFromWire_staysBelow {memory : Memory} {bound : Nat} :
    (sensorMsgFromWire createSensorMsg).StaysBelow bound memory ↔ 19 ≤ bound := by
  have offset : createSensorMsg.indexes[0] = 15 := by simp [createSensorMsg_indexes]
  simp only [sensorMsgFromWire, offset, Reading.staysBelow_bind, Reading.staysBelow_word32,
    Nat.reduceAdd, and_iff_left_iff_imp]
  intro _
  split
  · exact Reading.staysBelow_pure _
  · split <;> exact Reading.staysBelow_pure _

section Teensy

inductive TeensySensorArray.Created : TeensySensorArray → Prop where
  | create : TeensySensorArray.Created createTeensySensorArray
  | assign {msg : TeensySensorArray} (v w dt : Word) :
      msg.Created → TeensySensorArray.Created { msg with v, w, dt }
  | toWire {msg : TeensySensorArray} :
      msg.Created → TeensySensorArray.Created (teensySensorArrayToWire msg)

variable {msg sender : TeensySensorArray}

theorem TeensySensorArray.Created.layout (created : msg.Created) :
    msg.indexes = #v[22, 29, 36, 0] ∧ msg.msg.indexes = #v[15] ∧
      msg.msg.type = teensyMsg ∧ msg.msg.buff.byteLength = 41 := by
  induction created with
  | create => decide
  | assign v w dt _ ih => exact ih
  | toWire _ ih => exact ih

theorem teensySensorArrayFromWire_created {memory : Memory} (created : msg.Created) :
    ((teensySensorArrayFromWire msg).run memory).2.Created := by
  have assigned := TeensySensorArray.Created.assign (memory.load32 msg.indexes[0])
    (memory.load32 msg.indexes[1]) (memory.load32 msg.indexes[2]) created
  by_cases tag : memory.load32 msg.msg.indexes[0] = teensyMsg
  · simpa [teensySensorArrayFromWire, tag] using assigned
  · simpa [teensySensorArrayFromWire, tag] using created

theorem teensySensorArrayToWire_tag (created : sender.Created) (behind : Memory) :
    (Memory.ofString (messageString (teensySensorArrayToWire sender).msg.buff) behind).load32 15 =
      teensyMsg := by
  have sent := created.layout
  simp (disch := decide) [teensySensorArrayToWire, messageString, sent,
    Memory.load32_ofString, Memory.load32_store32_disjoint]

theorem teensySensorArrayFromWire_toWire (receiver : msg.Created) (created : sender.Created)
    (behind : Memory) :
    (teensySensorArrayFromWire msg).run
        (Memory.ofString (messageString (teensySensorArrayToWire sender).msg.buff) behind) =
      (true, { msg with v := sender.v, w := sender.w, dt := sender.dt }) := by
  have layout := receiver.layout
  have sent := created.layout
  simp (disch := decide) [teensySensorArrayFromWire, teensySensorArrayToWire, messageString, layout,
    sent, Memory.load32_ofString, Memory.load32_store32_disjoint]

/-- A message without the tag is left after the tag. -/
theorem teensySensorArrayFromWire_staysBelow (receiver : msg.Created) {memory : Memory}
    {bound : Nat} :
    (teensySensorArrayFromWire msg).StaysBelow bound memory ↔
      19 ≤ bound ∧ (memory.load32 15 = teensyMsg → 40 ≤ bound) := by
  have layout := receiver.layout
  by_cases tag : memory.load32 15 = teensyMsg
  · simp [teensySensorArrayFromWire, layout, tag, Reading.staysBelow_bind,
      Reading.staysBelow_word32, Reading.staysBelow_pure]
    omega
  · simp [teensySensorArrayFromWire, layout, tag, Reading.staysBelow_bind,
      Reading.staysBelow_word32, Reading.staysBelow_pure]

end Teensy

section Camera

inductive CameraMsg.Created : CameraMsg → Prop where
  | create : CameraMsg.Created createCameraMsg
  | assign {msg : CameraMsg} (x y theta dt : Word) :
      msg.Created → CameraMsg.Created { msg with x, y, theta, dt }
  | toWire {msg : CameraMsg} : msg.Created → CameraMsg.Created (cameraMsgToWire msg)

variable {msg sender : CameraMsg}

theorem CameraMsg.Created.layout (created : msg.Created) :
    msg.indexes = #v[22, 29, 36, 0, 0] ∧ msg.msg.indexes = #v[15] ∧
      msg.msg.type = cameraMessage ∧ msg.msg.buff.byteLength = 48 := by
  induction created with
  | create => decide
  | assign x y theta dt _ ih => exact ih
  | toWire _ ih => exact ih

theorem cameraMsgFromWire_created {memory : Memory} (created : msg.Created) :
    ((cameraMsgFromWire msg).run memory).2.Created := by
  have assigned := CameraMsg.Created.assign (memory.load32 msg.indexes[0])
    (memory.load32 msg.indexes[1]) (memory.load32 msg.indexes[2]) (memory.load32 msg.indexes[3])
    created
  by_cases tag : memory.load32 msg.msg.indexes[0] = cameraMessage
  · simpa [cameraMsgFromWire, tag] using assigned
  · simpa [cameraMsgFromWire, tag] using created

/-- `dt` goes to offset 0, over the header; the tag lies behind it. -/
theorem cameraMsgToWire_tag (created : sender.Created) (behind : Memory) :
    (Memory.ofString (messageString (cameraMsgToWire sender).msg.buff) behind).load32 15 =
      cameraMessage := by
  have sent := created.layout
  simp (disch := decide) [cameraMsgToWire, messageString, sent,
    Memory.load32_ofString, Memory.load32_store32_disjoint]

theorem cameraMsgFromWire_toWire (receiver : msg.Created) (created : sender.Created)
    (behind : Memory) :
    (cameraMsgFromWire msg).run
        (Memory.ofString (messageString (cameraMsgToWire sender).msg.buff) behind) =
      (true, { msg with x := sender.x, y := sender.y, theta := sender.theta, dt := sender.dt }) := by
  have layout := receiver.layout
  have sent := created.layout
  simp (disch := decide) [cameraMsgFromWire, cameraMsgToWire, messageString, layout, sent,
    Memory.load32_ofString, Memory.load32_store32_disjoint]

theorem cameraMsgFromWire_staysBelow (receiver : msg.Created) {memory : Memory} {bound : Nat} :
    (cameraMsgFromWire msg).StaysBelow bound memory ↔
      19 ≤ bound ∧ (memory.load32 15 = cameraMessage → 40 ≤ bound) := by
  have layout := receiver.layout
  by_cases tag : memory.load32 15 = cameraMessage
  · simp [cameraMsgFromWire, layout, tag, Reading.staysBelow_bind,
      Reading.staysBelow_word32, Reading.staysBelow_pure]
    omega
  · simp [cameraMsgFromWire, layout, tag, Reading.staysBelow_bind,
      Reading.staysBelow_word32, Reading.staysBelow_pure]

end Camera

end Sentinet.Messages
