import Sentinet.Messages.WireImage

namespace Sentinet.Messages

open Sentinet.Data

/-! The typed codecs against the self-describing decoder.  The codecs write
through offsets taken from that decoder once; the fields they leave behind are
the ones it finds later. -/

def floatField (word : Word) : WordField := { typeCode := TypeCode.float, word }

def intField (word : Word) : WordField := { typeCode := TypeCode.int32, word }

theorem floatField_width (word : Word) : fixedWidth (floatField word).typeCode = some 4 := rfl

theorem intField_width (word : Word) : fixedWidth (intField word).typeCode = some 4 := rfl

section CmdVel

variable {vel sender : CmdVel}

def CmdVel.wireFields (vel : CmdVel) : List WordField := [floatField vel.lin, floatField vel.ang]

theorem cmdVelToWire_holds (created : vel.Created) {lin ang : Word}
    (words : HoldsWords vel.buff.data createCmdVel.buff [floatField lin, floatField ang]) :
    HoldsWords (cmdVelToWire vel).buff.data createCmdVel.buff vel.wireFields := by
  have first := words.store_word 0 (floatField vel.lin) (by simp) rfl
  have second := first.store_word 1 (floatField vel.ang) (by simp) rfl
  simp only [cmdVelToWire, created.layout]
  exact second

theorem CmdVel.Created.holds (created : vel.Created) :
    ∃ lin ang, HoldsWords vel.buff.data createCmdVel.buff [floatField lin, floatField ang] := by
  induction created with
  | create => exact ⟨0, 0, by constructor <;> decide, by decide⟩
  | assign lin ang _ ih => exact ih
  | toWire created ih =>
      obtain ⟨lin, ang, words⟩ := ih
      exact ⟨_, _, cmdVelToWire_holds created words⟩

theorem cmdVelToWire_wireImage (created : sender.Created) (behind : Memory) :
    WireImage (Memory.ofString (messageString (cmdVelToWire sender).buff) behind)
      createCmdVel.buff sender.wireFields := by
  obtain ⟨lin, ang, words⟩ := created.holds
  have length : (cmdVelToWire sender).buff.byteLength = 27 := created.toWire.layout.2
  have count : createCmdVel.buff.fields.toNat = 2 := by decide
  refine (cmdVelToWire_holds created words).wireImage ?_ count (show 2 < maxFields by decide) ?_ behind
  · rw [length]
    rfl
  · simp [CmdVel.wireFields, floatField_width]

end CmdVel

section PathState

variable {path sender : PathState}

def PathState.wireFields (path : PathState) : List WordField :=
  [floatField path.x, floatField path.y, floatField path.theta, floatField path.v,
    floatField path.w]

theorem pathStateToWire_holds (created : path.Created) {x y theta v w : Word}
    (words : HoldsWords path.buff.data createPathState.buff
      [floatField x, floatField y, floatField theta, floatField v, floatField w]) :
    HoldsWords (pathStateToWire path).buff.data createPathState.buff path.wireFields := by
  have first := words.store_word 0 (floatField path.x) (by simp) rfl
  have second := first.store_word 1 (floatField path.y) (by simp) rfl
  have third := second.store_word 2 (floatField path.theta) (by simp) rfl
  have fourth := third.store_word 3 (floatField path.v) (by simp) rfl
  have fifth := fourth.store_word 4 (floatField path.w) (by simp) rfl
  simp only [pathStateToWire, created.layout]
  exact fifth

theorem PathState.Created.holds (created : path.Created) :
    ∃ x y theta v w, HoldsWords path.buff.data createPathState.buff
      [floatField x, floatField y, floatField theta, floatField v, floatField w] := by
  induction created with
  | create => exact ⟨0, 0, 0, 0, 0, by constructor <;> decide, by decide⟩
  | assign x y theta v w _ ih => exact ih
  | toWire created ih =>
      obtain ⟨x, y, theta, v, w, words⟩ := ih
      exact ⟨_, _, _, _, _, pathStateToWire_holds created words⟩

theorem pathStateToWire_wireImage (created : sender.Created) (behind : Memory) :
    WireImage (Memory.ofString (messageString (pathStateToWire sender).buff) behind)
      createPathState.buff sender.wireFields := by
  obtain ⟨x, y, theta, v, w, words⟩ := created.holds
  have length : (pathStateToWire sender).buff.byteLength = 48 := created.toWire.layout.2
  have count : createPathState.buff.fields.toNat = 5 := by decide
  refine (pathStateToWire_holds created words).wireImage ?_ count (show 5 < maxFields by decide) ?_
    behind
  · rw [length]
    rfl
  · simp [PathState.wireFields, floatField_width]

end PathState

section Teensy

variable {msg sender : TeensySensorArray}

def TeensySensorArray.wireFields (msg : TeensySensorArray) : List WordField :=
  [intField teensyMsg, floatField msg.v, floatField msg.w, floatField msg.dt]

theorem teensySensorArrayToWire_holds (created : msg.Created) {tag v w dt : Word}
    (words : HoldsWords msg.msg.buff.data createTeensySensorArray.msg.buff
      [intField tag, floatField v, floatField w, floatField dt]) :
    HoldsWords (teensySensorArrayToWire msg).msg.buff.data createTeensySensorArray.msg.buff
      msg.wireFields := by
  have first := words.store_word 0 (intField teensyMsg) (by simp) rfl
  have second := first.store_word 1 (floatField msg.v) (by simp) rfl
  have third := second.store_word 2 (floatField msg.w) (by simp) rfl
  have fourth := third.store_word 3 (floatField msg.dt) (by simp) rfl
  simp only [teensySensorArrayToWire, created.layout]
  exact fourth

theorem TeensySensorArray.Created.holds (created : msg.Created) :
    ∃ tag v w dt, HoldsWords msg.msg.buff.data createTeensySensorArray.msg.buff
      [intField tag, floatField v, floatField w, floatField dt] := by
  induction created with
  | create => exact ⟨0, 0, 0, 0, by constructor <;> decide, by decide⟩
  | assign v w dt _ ih => exact ih
  | toWire created ih =>
      obtain ⟨tag, v, w, dt, words⟩ := ih
      exact ⟨_, _, _, _, teensySensorArrayToWire_holds created words⟩

theorem teensySensorArrayToWire_wireImage (created : sender.Created) (behind : Memory) :
    WireImage (Memory.ofString (messageString (teensySensorArrayToWire sender).msg.buff) behind)
      createTeensySensorArray.msg.buff sender.wireFields := by
  obtain ⟨tag, v, w, dt, words⟩ := created.holds
  have length : (teensySensorArrayToWire sender).msg.buff.byteLength = 41 :=
    created.toWire.layout.2.2.2
  have count : createTeensySensorArray.msg.buff.fields.toNat = 4 := by decide
  refine (teensySensorArrayToWire_holds created words).wireImage ?_ count
    (show 4 < maxFields by decide) ?_ behind
  · rw [length]
    rfl
  · simp [TeensySensorArray.wireFields, floatField_width, intField_width]

end Teensy

section Agreement

/-- A message read by a typed decoder and by the self-describing one, whatever
lies behind it in memory. -/
structure Agrees {α : Type} (message : List UInt8) (fromWire : Reading α) (expected : α)
    (header : DataBuffer) (fields : List WordField) : Prop where
  decoded : ∀ behind, fromWire.run (Memory.ofString message behind) = expected
  inside : ∀ behind, fromWire.StaysBelow message.length (Memory.ofString message behind)
  image : ∀ behind, WireImage (Memory.ofString message behind) header fields

theorem messageString_length (buff : DataBuffer) :
    (messageString buff).length = buff.byteLength.toNat := Memory.load_length

/-- What the last `to_wire` wrote is what every created receiver decodes, inside
the message, and what `get_data` finds behind an untouched header. -/
theorem typedCodecs_agree (vel velSender : { vel : CmdVel // vel.Created })
    (path pathSender : { path : PathState // path.Created })
    (teensy teensySender : { msg : TeensySensorArray // msg.Created }) :
    Agrees (messageString (cmdVelToWire velSender.val).buff) (cmdVelFromWire vel.val)
        { vel.val with lin := velSender.val.lin, ang := velSender.val.ang }
        createCmdVel.buff velSender.val.wireFields ∧
      Agrees (messageString (pathStateToWire pathSender.val).buff) (pathStateFromWire path.val)
        { path.val with
          x := pathSender.val.x, y := pathSender.val.y, theta := pathSender.val.theta,
          v := pathSender.val.v, w := pathSender.val.w }
        createPathState.buff pathSender.val.wireFields ∧
      Agrees (messageString (teensySensorArrayToWire teensySender.val).msg.buff)
        (teensySensorArrayFromWire teensy.val)
        (true, { teensy.val with
          v := teensySender.val.v, w := teensySender.val.w, dt := teensySender.val.dt })
        createTeensySensorArray.msg.buff teensySender.val.wireFields := by
  have velLength : (cmdVelToWire velSender.val).buff.byteLength = 27 :=
    velSender.property.toWire.layout.2
  have pathLength : (pathStateToWire pathSender.val).buff.byteLength = 48 :=
    pathSender.property.toWire.layout.2
  have teensyLength : (teensySensorArrayToWire teensySender.val).msg.buff.byteLength = 41 :=
    teensySender.property.toWire.layout.2.2.2
  refine ⟨⟨cmdVelFromWire_toWire vel.property velSender.property, ?_,
      cmdVelToWire_wireImage velSender.property⟩,
    ⟨pathStateFromWire_toWire path.property pathSender.property, ?_,
      pathStateToWire_wireImage pathSender.property⟩,
    ⟨teensySensorArrayFromWire_toWire teensy.property teensySender.property, ?_,
      teensySensorArrayToWire_wireImage teensySender.property⟩⟩
  · intro behind
    rw [cmdVelFromWire_staysBelow vel.property, messageString_length, velLength]
    decide
  · intro behind
    rw [pathStateFromWire_staysBelow path.property, messageString_length, pathLength]
    decide
  · intro behind
    rw [teensySensorArrayFromWire_staysBelow teensy.property, messageString_length, teensyLength]
    exact ⟨by decide, fun _ => by decide⟩

end Agreement

/-! The camera message.  Its creation fetches the first three of four offsets, so
`dt` is written at offset 0 and its own segment keeps the zero of the creation. -/

section Camera

variable {msg sender : CameraMsg}

def CameraMsg.wireFields (msg : CameraMsg) : List WordField :=
  [intField cameraMessage, floatField msg.x, floatField msg.y, floatField msg.theta,
    floatField msg.dt]

/-- The fields that a message leaves behind its header. -/
def CameraMsg.storedFields (msg : CameraMsg) : List WordField :=
  [intField cameraMessage, floatField msg.x, floatField msg.y, floatField msg.theta, floatField 0]

/-- The string that is sent, where it is received. -/
def CameraMsg.received (msg : CameraMsg) (behind : Memory) : Memory :=
  Memory.ofString (messageString (cameraMsgToWire msg).msg.buff) behind

theorem cameraMsgToWire_data (created : msg.Created) :
    (cameraMsgToWire msg).msg.buff.data =
      (((((msg.msg.buff.data.store32 (wordPosition 0) cameraMessage).store32 (wordPosition 1)
        msg.x).store32 (wordPosition 2) msg.y).store32 (wordPosition 3) msg.theta).store32 0
          msg.dt) := by
  simp only [cameraMsgToWire, created.layout]
  rfl

theorem cameraMsgToWire_holds (created : msg.Created) {tag x y theta : Word}
    (holds : HoldsAt msg.msg.buff.data dtPos (wordSegments
      [intField tag, floatField x, floatField y, floatField theta, floatField 0])) :
    HoldsAt (cameraMsgToWire msg).msg.buff.data dtPos (wordSegments msg.storedFields) := by
  have first := holds.store_word 0 (intField cameraMessage) (by simp) rfl
  have second := first.store_word 1 (floatField msg.x) (by simp) rfl
  have third := second.store_word 2 (floatField msg.y) (by simp) rfl
  have fourth := third.store_word 3 (floatField msg.theta) (by simp) rfl
  rw [cameraMsgToWire_data created]
  exact (Memory.load_store32_disjoint (Or.inr (by decide))).trans fourth

theorem CameraMsg.Created.holds (created : msg.Created) :
    ∃ tag x y theta, HoldsAt msg.msg.buff.data dtPos (wordSegments
      [intField tag, floatField x, floatField y, floatField theta, floatField 0]) := by
  induction created with
  | create => exact ⟨0, 0, 0, 0, by decide⟩
  | assign x y theta dt _ ih => exact ih
  | toWire created ih =>
      obtain ⟨tag, x, y, theta, holds⟩ := ih
      exact ⟨_, _, _, _, cameraMsgToWire_holds created holds⟩

/-- The header behind its first four bytes is never written again. -/
theorem CameraMsg.Created.header_rest (created : msg.Created) :
    msg.msg.buff.data.load 4 8 = createCameraMsg.msg.buff.data.load 4 8 := by
  induction created with
  | create => rfl
  | assign x y theta dt _ ih => exact ih
  | toWire created ih =>
      rw [cameraMsgToWire_data created, Memory.load_store32_disjoint (Or.inr (by decide)),
        Memory.load_store32_disjoint (Or.inl (by decide)),
        Memory.load_store32_disjoint (Or.inl (by decide)),
        Memory.load_store32_disjoint (Or.inl (by decide)),
        Memory.load_store32_disjoint (Or.inl (by decide)), ih]

theorem CameraMsg.Created.received_load (created : sender.Created) (behind : Memory)
    {position count : Nat} (inside : position + count ≤ 48) :
    (sender.received behind).load position count =
      (cameraMsgToWire sender).msg.buff.data.load position count := by
  have length : (cameraMsgToWire sender).msg.buff.byteLength = 48 := created.toWire.layout.2.2.2
  rw [CameraMsg.received, messageString, length]
  exact Memory.load_ofString_load inside

theorem received_carriesHeader_iff (created : sender.Created) (behind : Memory) :
    CarriesHeader (sender.received behind) createCameraMsg.msg.buff ↔ sender.dt = 0x101 := by
  have wired : CarriesHeader createCameraMsg.msg.buff.data createCameraMsg.msg.buff := by
    constructor <;> decide
  have front : (sender.received behind).load 0 4 = LittleEndian.encode 4 sender.dt.toNat := by
    rw [created.received_load behind (by decide), cameraMsgToWire_data created]
    exact Memory.load_store_of_length (LittleEndian.encode_length _ _)
  have rest : (sender.received behind).load 4 8 = createCameraMsg.msg.buff.data.load 4 8 :=
    (created.received_load behind (by decide)).trans created.toWire.header_rest
  have blank : createCameraMsg.msg.buff.data.load 0 4 =
      LittleEndian.encode 4 (0x101 : Word).toNat := by decide
  rw [carriesHeader_iff wired, show nullTermPos = 4 + 8 from rfl, Memory.load_add, Memory.load_add,
    front, Nat.zero_add, rest, blank, List.append_left_inj,
    LittleEndian.encode_eq_iff sender.dt.toNat_lt (UInt32.toNat_lt _)]
  exact UInt32.toNat_inj

theorem received_carriesFields (created : sender.Created) (behind : Memory) :
    CarriesFields (sender.received behind) sender.storedFields := by
  obtain ⟨tag, x, y, theta, holds⟩ := created.holds
  have count : (sender.received behind).load16 fldPos = createCameraMsg.msg.buff.data.load16 fldPos := by
    have rest := created.toWire.header_rest
    rw [← created.received_load behind (by decide)] at rest
    have tail := congrArg (List.drop 6) rest
    rw [Memory.load_drop, Memory.load_drop] at tail
    exact Memory.load16_eq_iff.mpr tail
  have decodable : Decodable (sender.received behind) (wordSegments sender.storedFields) := by
    refine ⟨?_, show 5 < maxFields by decide, ?_⟩
    · rw [count]
      exact show (createCameraMsg.msg.buff.data.load16 fldPos).toNat = 5 by decide
    · have stored := cameraMsgToWire_holds created holds
      rw [HoldsAt, encode_wordSegments_length] at stored ⊢
      exact (created.received_load behind (show dtPos + 7 * 5 ≤ 48 by decide)).trans stored
  exact decodable.carriesFields (by simp [CameraMsg.storedFields, floatField_width, intField_width])

theorem received_carriesFields_iff (created : sender.Created) (behind : Memory) :
    CarriesFields (sender.received behind) sender.wireFields ↔ sender.dt = 0 := by
  have stored := received_carriesFields created behind
  constructor
  · intro wired
    obtain ⟨after, found, word⟩ := stored (fun _ => 0) 4 (floatField 0) rfl
    obtain ⟨other, again, sent⟩ := wired (fun _ => 0) 4 (floatField sender.dt) rfl
    rw [found, Except.ok.injEq, Prod.mk.injEq] at again
    rw [← again.2, word] at sent
    exact sent.symm
  · intro zero
    have same : sender.wireFields = sender.storedFields := by
      rw [CameraMsg.wireFields, zero, CameraMsg.storedFields]
    rw [same]
    exact stored

/-- No camera message is sent whole: its header is kept only for one value of
`dt` and its last field is right only for another. -/
theorem cameraMsgToWire_never_wireImage (created : sender.Created) (behind : Memory) :
    ¬ WireImage (sender.received behind) createCameraMsg.msg.buff sender.wireFields ∧
      (CarriesHeader (sender.received behind) createCameraMsg.msg.buff ↔ sender.dt = 0x101) ∧
      (CarriesFields (sender.received behind) sender.wireFields ↔ sender.dt = 0) := by
  have header := received_carriesHeader_iff created behind
  have fields := received_carriesFields_iff created behind
  refine ⟨?_, header, fields⟩
  intro image
  have kept := header.mp image.header
  rw [fields.mp image.values] at kept
  exact absurd kept (by decide)

/-- A message with `dt` = 1.0. -/
def timedCameraMsg : CameraMsg := { createCameraMsg with dt := 0x3f800000 }

theorem cameraMsgToWire_never_wireImage_timed :
    ¬ WireImage (timedCameraMsg.received fun _ => 0) createCameraMsg.msg.buff
        timedCameraMsg.wireFields ∧
      (CarriesHeader (timedCameraMsg.received fun _ => 0) createCameraMsg.msg.buff ↔
        timedCameraMsg.dt = 0x101) ∧
      (CarriesFields (timedCameraMsg.received fun _ => 0) timedCameraMsg.wireFields ↔
        timedCameraMsg.dt = 0) :=
  cameraMsgToWire_never_wireImage (.assign 0 0 0 0x3f800000 .create) fun _ => 0

theorem timedCameraMsg_overwrites_header :
    (timedCameraMsg.received fun _ => 0) protPos = 0 ∧
      ¬ WireImage (timedCameraMsg.received fun _ => 0) createCameraMsg.msg.buff
        timedCameraMsg.wireFields := by
  have overwritten : (timedCameraMsg.received fun _ => 0) protPos = 0 := by decide
  refine ⟨overwritten, ?_⟩
  intro image
  have kept := image.header.protocolVersion
  rw [overwritten] at kept
  exact absurd kept (by decide)

end Camera

end Sentinet.Messages
