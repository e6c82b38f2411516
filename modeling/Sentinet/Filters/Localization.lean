import Sentinet.Filters.SimpleLocalizer

namespace Sentinet.Filters

open Sentinet.Data Sentinet.Messages SimpleLocalizer

/-! Runs of one localizer over messages of any kind. -/

/-- The 32-bit tag at the sensor type offset of a string that is long enough. -/
def sensorTag (message : List UInt8) : Word :=
  (Memory.ofString message fun _ => 0).load32 15

inductive Incoming where
  | teensy (sender : { msg : TeensySensorArray // msg.Created })
  | camera (sender : { msg : CameraMsg // msg.Created })
  | other (message : List UInt8) (long : 19 ≤ message.length)
      (notTeensy : sensorTag message ≠ teensyMsg) (notCamera : sensorTag message ≠ cameraMessage)

namespace Incoming

def string : Incoming → List UInt8
  | .teensy sender => messageString (teensySensorArrayToWire sender.val).msg.buff
  | .camera sender => messageString (cameraMsgToWire sender.val).msg.buff
  | .other message _ _ _ => message

def result : Incoming → Int
  | .teensy _ => teensyMsg.toNat
  | .camera _ => cameraMessage.toNat
  | .other _ _ _ _ => -1

def isTeensy : Incoming → Bool
  | .teensy _ => true
  | _ => false

def isCamera : Incoming → Bool
  | .camera _ => true
  | _ => false

def speeds : Incoming → Word × Word
  | .teensy sender => (sender.val.v, sender.val.w)
  | _ => (0, 0)

def pose : Incoming → Word × Word × Word
  | .camera sender => (sender.val.x, sender.val.y, sender.val.theta)
  | _ => (0, 0, 0)

end Incoming

namespace LocalizerState

def speeds (state : LocalizerState) : Word × Word := (state.v, state.w)

def pose (state : LocalizerState) : Word × Word × Word := (state.x, state.y, state.theta)

end LocalizerState

section Convert

variable {localizer : SimpleLocalizer} {incoming : Incoming} {data behind : Memory}
  {message : List UInt8}

theorem sensorTag_ofString (behind : Memory) (long : 19 ≤ message.length) :
    (Memory.ofString message behind).load32 15 = sensorTag message := by
  apply Memory.load32_congr
  intro address _ upper
  rw [Memory.ofString_inside (by omega), Memory.ofString_inside (by omega)]

theorem publish_state {ret : Int} :
    (localizer.publish ret).localizer.state = localizer.state := rfl

theorem publish_message {receiver : PathState} (created : receiver.Created) {ret : Int} :
    (pathStateFromWire receiver).run (Memory.ofString (localizer.publish ret).message behind) =
      { receiver with
        x := localizer.state.x, y := localizer.state.y, theta := localizer.state.theta,
        v := localizer.state.v, w := localizer.state.w } :=
  pathStateFromWire_toWire created localizer.outgoing.property behind

theorem convert_result :
    (localizer.convert incoming.string behind).ret = incoming.result := by
  cases incoming with
  | teensy sender =>
      have tag := teensySensorArrayToWire_tag sender.property behind
      simp only [convert, Incoming.string, sensorMsgFromWire_run, tag]
      rfl
  | camera sender =>
      have tag := cameraMsgToWire_tag sender.property behind
      simp only [convert, Incoming.string, sensorMsgFromWire_run, tag]
      rfl
  | other message long notTeensy notCamera =>
      have tag := sensorTag_ofString behind long
      simp only [convert, Incoming.string, sensorMsgFromWire_run, tag, notTeensy, notCamera]
      rfl

theorem convert_state :
    (localizer.convert incoming.string behind).localizer.state =
      match incoming with
      | .teensy sender => { localizer.state with v := sender.val.v, w := sender.val.w }
      | .camera sender =>
          { localizer.state with
            x := sender.val.x, y := sender.val.y, theta := sender.val.theta }
      | .other _ _ _ _ => localizer.state := by
  cases incoming with
  | teensy sender =>
      have tag := teensySensorArrayToWire_tag sender.property behind
      have decoded := teensySensorArrayFromWire_toWire localizer.sensor.property sender.property behind
      simp only [convert, Incoming.string, sensorMsgFromWire_run, tag, update, decoded]
      rfl
  | camera sender =>
      have tag := cameraMsgToWire_tag sender.property behind
      have decoded := cameraMsgFromWire_toWire localizer.camera.property sender.property behind
      simp only [convert, Incoming.string, sensorMsgFromWire_run, tag, update, decoded]
      rfl
  | other message long notTeensy notCamera =>
      have tag := sensorTag_ofString behind long
      simp only [convert, Incoming.string, sensorMsgFromWire_run, tag, notTeensy, notCamera]
      rfl

theorem convert_message {receiver : PathState} (created : receiver.Created) {memory : Memory} :
    let converted := localizer.convert message behind
    (pathStateFromWire receiver).run (Memory.ofString converted.message memory) =
      { receiver with
        x := converted.localizer.state.pose.1
        y := converted.localizer.state.pose.2.1
        theta := converted.localizer.state.pose.2.2
        v := converted.localizer.state.speeds.1
        w := converted.localizer.state.speeds.2 } := by
  obtain ⟨updated, ret, published⟩ : ∃ updated ret,
      localizer.convert message behind = SimpleLocalizer.publish updated ret := ⟨_, _, rfl⟩
  simp only [published, publish_state]
  exact publish_message created

end Convert

section Run

/-- One message with the memory behind its string. -/
abbrev Delivery := Incoming × Memory

def step (localizer : SimpleLocalizer) (delivery : Delivery) : SimpleLocalizer :=
  (localizer.convert delivery.1.string delivery.2).localizer

def latestSpeeds (deliveries : List Delivery) : Word × Word :=
  match Run.lastWhere (fun delivery => delivery.1.isTeensy) deliveries with
  | none => (0, 0)
  | some (_, last) => last.1.speeds

def latestPose (deliveries : List Delivery) : Word × Word × Word :=
  match Run.lastWhere (fun delivery => delivery.1.isCamera) deliveries with
  | none => (0, 0, 0)
  | some (_, last) => last.1.pose

theorem step_speeds (localizer : SimpleLocalizer) (delivery : Delivery) :
    (step localizer delivery).state.speeds =
      if delivery.1.isTeensy then delivery.1.speeds else localizer.state.speeds := by
  obtain ⟨incoming, behind⟩ := delivery
  rw [step, convert_state]
  cases incoming <;> rfl

theorem step_pose (localizer : SimpleLocalizer) (delivery : Delivery) :
    (step localizer delivery).state.pose =
      if delivery.1.isCamera then delivery.1.pose else localizer.state.pose := by
  obtain ⟨incoming, behind⟩ := delivery
  rw [step, convert_state]
  cases incoming <;> rfl

variable (deliveries : List Delivery)

theorem final_speeds :
    (Run.final step create deliveries).state.speeds = latestSpeeds deliveries := by
  have tracked : (Run.final step create deliveries).state.speeds = _ :=
    Run.view_final (fun localizer => localizer.state.speeds) (fun _ delivery => delivery.1.speeds)
      (fun delivery => delivery.1.isTeensy)
      (fun localizer delivery writes => (step_speeds localizer delivery).trans (if_pos writes))
      (fun localizer delivery keeps => (step_speeds localizer delivery).trans
        (if_neg (Bool.eq_false_iff.mp keeps)))
  rw [tracked, latestSpeeds]
  cases Run.lastWhere _ deliveries <;> rfl

theorem final_pose :
    (Run.final step create deliveries).state.pose = latestPose deliveries := by
  have tracked : (Run.final step create deliveries).state.pose = _ :=
    Run.view_final (fun localizer => localizer.state.pose) (fun _ delivery => delivery.1.pose)
      (fun delivery => delivery.1.isCamera)
      (fun localizer delivery writes => (step_pose localizer delivery).trans (if_pos writes))
      (fun localizer delivery keeps => (step_pose localizer delivery).trans
        (if_neg (Bool.eq_false_iff.mp keeps)))
  rw [tracked, latestPose]
  cases Run.lastWhere _ deliveries <;> rfl

/-- After any deliveries, the next message is answered by its kind, and what
replaces it decodes to the latest pose and the latest speeds so far. -/
theorem localizer_tracks_latest (next : Delivery) (receiver : { path : PathState // path.Created })
    (memory : Memory) :
    let converted := (Run.final step create deliveries).convert next.1.string next.2
    let pose := latestPose (deliveries ++ [next])
    let speeds := latestSpeeds (deliveries ++ [next])
    converted.ret = next.1.result ∧
      (pathStateFromWire receiver.val).run (Memory.ofString converted.message memory) =
        { receiver.val with
          x := pose.1, y := pose.2.1, theta := pose.2.2, v := speeds.1, w := speeds.2 } := by
  have arrived : ((Run.final step create deliveries).convert next.1.string next.2).localizer =
      Run.final step create (deliveries ++ [next]) := by
    rw [Run.final_append]
    rfl
  refine ⟨convert_result, ?_⟩
  rw [convert_message receiver.property, arrived, final_pose, final_speeds]

end Run

end Sentinet.Filters
