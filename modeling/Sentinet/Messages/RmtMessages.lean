import Sentinet.Messages.Buffer

namespace Sentinet.Messages

open Sentinet.Data

/-! `rmt_messages.c`: messages with fixed fields, read and written at offsets
that `get_data` computed once when the message was created. -/

/-- A C `float` or `int` by its bit pattern. -/
abbrev Word := UInt32

def wordStorage (value : Word) : Memory := Memory.store32 (fun _ => 0) 0 value

/-- `serialize_data(&buff, &value, sizeof(value), type_code)` -/
def serializeWord (buff : DataBuffer) (value : Word) (typeCode : TypeCode) : DataBuffer :=
  serializeData buff (some (wordStorage value)) 4 typeCode

/-- `(size_t)(get_data(buff.data, &value, index).data - buff.data)`, with what
`get_data` leaves in `value`.  The error element holds a null pointer, whose
distance to the buffer means nothing; no message below gets there. -/
def fetchIndex (buff : DataBuffer) (value : Word) (index : Nat) : Nat × Word :=
  match getData (some buff.data) (some (wordStorage value)) index with
  | .ok (element, written) => (element.data, written.load32 0)
  | .error _ => (0, value)

/-- `std::string(buff.data, buff.byte_length)`, the part of a message that is sent. -/
def messageString (buff : DataBuffer) : List UInt8 :=
  buff.data.load 0 buff.byteLength.toNat

/-! `cmd_vel` -/

structure CmdVel where
  lin : Word
  ang : Word
  indexes : Vector Nat 2
  buff : DataBuffer

def createCmdVel : CmdVel :=
  let buff := serializeWord createBuffer 0 TypeCode.float
  let buff := toWire (serializeWord buff 0 TypeCode.float)
  let (index0, lin) := fetchIndex buff 0 0
  let (index1, ang) := fetchIndex buff 0 1
  { lin, ang, indexes := #v[index0, index1], buff }

def cmdVelToWire (vel : CmdVel) : CmdVel :=
  let data := vel.buff.data.store32 vel.indexes[0] vel.lin
  let data := data.store32 vel.indexes[1] vel.ang
  { vel with buff := { vel.buff with data } }

def cmdVelFromWire (vel : CmdVel) : Reading CmdVel := do
  let lin ← Reading.word32 vel.indexes[0]
  let ang ← Reading.word32 vel.indexes[1]
  return { vel with lin, ang }

/-! `teensy_msg` -/

structure TeensyMsg where
  lin : Word
  ang : Word
  indexes : Vector Nat 2
  buff : DataBuffer

/-- The second value is a float too, announced with `sizeof(int16_t)`. -/
def createTeensyMsg : TeensyMsg :=
  let buff := serializeWord createBuffer 0 TypeCode.float
  let buff := toWire (serializeData buff (some (wordStorage 0)) 2 TypeCode.float)
  let (index0, lin) := fetchIndex buff 0 0
  let (index1, ang) := fetchIndex buff 0 1
  { lin, ang, indexes := #v[index0, index1], buff }

def teensyMsgToWire (msg : TeensyMsg) : TeensyMsg :=
  let data := msg.buff.data.store32 msg.indexes[1] msg.ang
  let data := data.store32 msg.indexes[0] msg.lin
  { msg with buff := { msg.buff with data } }

def teensyMsgFromWire (msg : TeensyMsg) : Reading TeensyMsg := do
  let lin ← Reading.word32 msg.indexes[0]
  let ang ← Reading.word32 msg.indexes[1]
  return { msg with lin, ang }

/-! `path_state` -/

structure PathState where
  x : Word
  y : Word
  theta : Word
  v : Word
  w : Word
  indexes : Vector Nat 5
  buff : DataBuffer

def createPathState : PathState :=
  let buff := serializeWord createBuffer 0 TypeCode.float
  let buff := serializeWord buff 0 TypeCode.float
  let buff := serializeWord buff 0 TypeCode.float
  let buff := serializeWord buff 0 TypeCode.float
  let buff := toWire (serializeWord buff 0 TypeCode.float)
  let (index0, x) := fetchIndex buff 0 0
  let (index1, y) := fetchIndex buff 0 1
  let (index2, theta) := fetchIndex buff 0 2
  let (index3, v) := fetchIndex buff 0 3
  let (index4, w) := fetchIndex buff 0 4
  { x, y, theta, v, w, indexes := #v[index0, index1, index2, index3, index4], buff }

def pathStateToWire (path : PathState) : PathState :=
  let data := path.buff.data.store32 path.indexes[0] path.x
  let data := data.store32 path.indexes[1] path.y
  let data := data.store32 path.indexes[2] path.theta
  let data := data.store32 path.indexes[3] path.v
  let data := data.store32 path.indexes[4] path.w
  { path with buff := { path.buff with data } }

def pathStateFromWire (msg : PathState) : Reading PathState := do
  let x ← Reading.word32 msg.indexes[0]
  let y ← Reading.word32 msg.indexes[1]
  let theta ← Reading.word32 msg.indexes[2]
  let v ← Reading.word32 msg.indexes[3]
  let w ← Reading.word32 msg.indexes[4]
  return { msg with x, y, theta, v, w }

/-! `sensor_msg`, the common head of the sensor messages -/

def teensyMsg : Word := 1
def cameraMessage : Word := 2

structure SensorMsg where
  type : Word
  indexes : Vector Nat 1
  buff : DataBuffer

def createSensorMsg : SensorMsg :=
  let buff := toWire (serializeWord createBuffer 0 TypeCode.int32)
  let (index0, type) := fetchIndex buff 0 0
  { type, indexes := #v[index0], buff }

def sensorMsgFromWire (msg : SensorMsg) : Reading (Int × SensorMsg) := do
  let id ← Reading.word32 msg.indexes[0]
  if id = cameraMessage then return (cameraMessage.toNat, { msg with type := cameraMessage })
  else if id = teensyMsg then return (teensyMsg.toNat, { msg with type := teensyMsg })
  else return (-1, msg)

/-! `teensy_sensor_array` -/

structure TeensySensorArray where
  v : Word
  w : Word
  dt : Word
  indexes : Vector Nat 4
  msg : SensorMsg

def createTeensySensorArray : TeensySensorArray :=
  let msg := { createSensorMsg with type := teensyMsg }
  let buff := serializeWord msg.buff 0 TypeCode.float
  let buff := serializeWord buff 0 TypeCode.float
  let buff := toWire (serializeWord buff 0 TypeCode.float)
  let (index0, v) := fetchIndex buff 0 1
  let (index1, w) := fetchIndex buff 0 2
  let (index2, dt) := fetchIndex buff 0 3
  { v, w, dt, indexes := #v[index0, index1, index2, 0], msg := { msg with buff } }

def teensySensorArrayToWire (msg : TeensySensorArray) : TeensySensorArray :=
  let data := msg.msg.buff.data.store32 msg.msg.indexes[0] msg.msg.type
  let data := data.store32 msg.indexes[0] msg.v
  let data := data.store32 msg.indexes[1] msg.w
  let data := data.store32 msg.indexes[2] msg.dt
  { msg with msg := { msg.msg with buff := { msg.msg.buff with data } } }

/-- `teensy_sensor_array_from_wire`; `false` is the result -1. -/
def teensySensorArrayFromWire (msg : TeensySensorArray) : Reading (Bool × TeensySensorArray) := do
  let id ← Reading.word32 msg.msg.indexes[0]
  if id = teensyMsg then
    let v ← Reading.word32 msg.indexes[0]
    let w ← Reading.word32 msg.indexes[1]
    let dt ← Reading.word32 msg.indexes[2]
    return (true, { msg with v, w, dt })
  else return (false, msg)

/-! `camera_msg` -/

structure CameraMsg where
  x : Word
  y : Word
  theta : Word
  dt : Word
  indexes : Vector Nat 5
  msg : SensorMsg

/-- The source fetches three of the four offsets, each into the next variable;
the compound literal leaves the fourth offset zero. -/
def createCameraMsg : CameraMsg :=
  let msg := { createSensorMsg with type := cameraMessage }
  let buff := serializeWord msg.buff 0 TypeCode.float
  let buff := serializeWord buff 0 TypeCode.float
  let buff := serializeWord buff 0 TypeCode.float
  let buff := toWire (serializeWord buff 0 TypeCode.float)
  let (index0, y) := fetchIndex buff 0 1
  let (index1, theta) := fetchIndex buff 0 2
  let (index2, dt) := fetchIndex buff 0 3
  { x := 0, y, theta, dt, indexes := #v[index0, index1, index2, 0, 0], msg := { msg with buff } }

def cameraMsgToWire (msg : CameraMsg) : CameraMsg :=
  let data := msg.msg.buff.data.store32 msg.msg.indexes[0] msg.msg.type
  let data := data.store32 msg.indexes[0] msg.x
  let data := data.store32 msg.indexes[1] msg.y
  let data := data.store32 msg.indexes[2] msg.theta
  let data := data.store32 msg.indexes[3] msg.dt
  { msg with msg := { msg.msg with buff := { msg.msg.buff with data } } }

/-- `camera_msg_from_wire`; `false` is the result -1. -/
def cameraMsgFromWire (msg : CameraMsg) : Reading (Bool × CameraMsg) := do
  let id ← Reading.word32 msg.msg.indexes[0]
  if id = cameraMessage then
    let x ← Reading.word32 msg.indexes[0]
    let y ← Reading.word32 msg.indexes[1]
    let theta ← Reading.word32 msg.indexes[2]
    let dt ← Reading.word32 msg.indexes[3]
    return (true, { msg with x, y, theta, dt })
  else return (false, msg)

end Sentinet.Messages
