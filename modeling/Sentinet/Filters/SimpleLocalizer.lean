import Sentinet.Data.Run
import Sentinet.Messages.RmtCodec

namespace Sentinet.Filters

open Sentinet.Data Sentinet.Messages

/-! `Simple_Localizer`: a filter that replaces each sensor message by the path
state that the sensors gave last. -/

structure LocalizerState where
  x : Word
  y : Word
  theta : Word
  v : Word
  w : Word

/-- The messages a localizer works with are always created ones. -/
structure SimpleLocalizer where
  msg : { path : PathState // path.Created }
  sensor : { msg : TeensySensorArray // msg.Created }
  camera : { msg : CameraMsg // msg.Created }
  state : LocalizerState

namespace SimpleLocalizer

def create : SimpleLocalizer :=
  { msg := ⟨createPathState, .create⟩
    sensor := ⟨createTeensySensorArray, .create⟩
    camera := ⟨createCameraMsg, .create⟩
    state := { x := 0, y := 0, theta := 0, v := 0, w := 0 } }

def teensyUpdate (localizer : SimpleLocalizer) (v w _dt : Word) : SimpleLocalizer :=
  { localizer with state := { localizer.state with v, w } }

def cameraUpdate (localizer : SimpleLocalizer) (x y theta _dt : Word) : SimpleLocalizer :=
  { localizer with state := { localizer.state with x, y, theta } }

def update (localizer : SimpleLocalizer) (ret : Int) (data : Memory) : Int × SimpleLocalizer :=
  if ret = teensyMsg.toNat then
    let sensor := ((teensySensorArrayFromWire localizer.sensor.val).run data).2
    let localizer :=
      { localizer with sensor := ⟨sensor, teensySensorArrayFromWire_created localizer.sensor.property⟩ }
    (ret, localizer.teensyUpdate sensor.v sensor.w sensor.dt)
  else if ret = cameraMessage.toNat then
    let camera := ((cameraMsgFromWire localizer.camera.val).run data).2
    let localizer :=
      { localizer with camera := ⟨camera, cameraMsgFromWire_created localizer.camera.property⟩ }
    (ret, localizer.cameraUpdate camera.x camera.y camera.theta camera.dt)
  else (-1, localizer)

structure Converted where
  ret : Int
  message : List UInt8
  localizer : SimpleLocalizer

def outgoing (localizer : SimpleLocalizer) : { path : PathState // path.Created } :=
  let state := localizer.state
  ⟨{ localizer.msg.val with
      x := state.x, y := state.y, theta := state.theta, v := state.v, w := state.w },
    .assign state.x state.y state.theta state.v state.w localizer.msg.property⟩

/-- The end of `convert`: the incomming message becomes the path state. -/
def publish (localizer : SimpleLocalizer) (ret : Int) : Converted :=
  let path := pathStateToWire localizer.outgoing.val
  { ret, message := messageString path.buff
    localizer := { localizer with msg := ⟨path, .toWire localizer.outgoing.property⟩ } }

def convert (localizer : SimpleLocalizer) (incommingMessage : List UInt8) (behind : Memory) :
    Converted :=
  let data := Memory.ofString incommingMessage behind
  let (ret, _) := (sensorMsgFromWire createSensorMsg).run data
  let (ret, localizer) := localizer.update ret data
  localizer.publish ret

end SimpleLocalizer

end Sentinet.Filters
