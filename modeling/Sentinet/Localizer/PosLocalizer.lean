import Sentinet.Data.SharedRecord
import Sentinet.Messages.RmtCodec

namespace Sentinet.Localizer

open Sentinet.Data Sentinet.Messages

/-! `PosLocalizer`: any threads set the pose and the publisher thread reads it, field by
field and all under `guard`. -/

inductive PosField where
  | x | y | theta
deriving DecidableEq, Repr

abbrev Pose := PosField → Word

/-- The order of the stores in `set_pos`, and of the loads in `get_pos`. -/
def posOrder : List PosField := [.x, .y, .theta]

/-- One string that `get_pos` returned, and the pose that was set when it took `guard`. -/
structure PublishedPose where
  message : List UInt8
  pose : Pose

inductive GuardHolder where
  | setter | getter
deriving DecidableEq, Repr

structure PosLocalizer where
  pos : SharedRecord PosField Word
  msg : { msg : CameraMsg // msg.Created }
  guard : Option GuardHolder
  published : List PublishedPose

inductive PosEvent where
  | setPos (pose : Pose)
  | store
  | getPos
  | load
  | publish

namespace PosLocalizer

/-- The constructor creates the message; the pose is whatever was in memory. -/
def create (initial : Pose) : PosLocalizer :=
  { pos := .start initial, msg := ⟨createCameraMsg, .create⟩, guard := none, published := [] }

/-- The next store of `set_pos`, or the end of its scope. -/
def store (localizer : PosLocalizer) : PosLocalizer :=
  match localizer.guard with
  | some .setter =>
      let pos := localizer.pos.store
      { localizer with pos, guard := if pos.writing.isSome then some .setter else none }
  | _ => localizer

/-- The rest of `get_pos`, once all is loaded. -/
def publish (localizer : PosLocalizer) : PosLocalizer :=
  if localizer.guard = some .getter ∧ localizer.pos.reader.todo = [] then
    let msg := { localizer.msg.val with
      x := localizer.pos.loaded .x, y := localizer.pos.loaded .y
      theta := localizer.pos.loaded .theta }
    { localizer with
      pos := localizer.pos.forget
      msg := ⟨cameraMsgToWire msg, .toWire (.assign _ _ _ _ localizer.msg.property)⟩
      guard := none
      published := localizer.published ++
        [{ message := messageString (cameraMsgToWire msg).msg.buff, pose := localizer.pos.complete }] }
  else localizer

/-- A call waits until `guard` is free. -/
def step (localizer : PosLocalizer) : PosEvent → PosLocalizer
  | .setPos pose =>
      match localizer.guard with
      | none => { localizer with pos := localizer.pos.begin posOrder pose, guard := some .setter }
      | some _ => localizer
  | .store => localizer.store
  | .getPos =>
      match localizer.guard with
      | none => { localizer with pos := localizer.pos.read posOrder, guard := some .getter }
      | some _ => localizer
  | .load =>
      match localizer.guard with
      | some .getter => { localizer with pos := localizer.pos.load }
      | _ => localizer
  | .publish => localizer.publish

end PosLocalizer

/-! The calls as they got `guard`, each in one go. -/

inductive PosCall where
  | setPos (pose : Pose)
  | getPos

/-- What the calls of `get_pos` read. -/
def reads : Pose → List PosCall → List Pose
  | _, [] => []
  | _, .setPos pose :: rest => reads pose rest
  | pose, .getPos :: rest => pose :: reads pose rest

def lastSet : Pose → List PosCall → Pose
  | pose, [] => pose
  | _, .setPos pose :: rest => lastSet pose rest
  | pose, .getPos :: rest => lastSet pose rest

namespace PosLocalizer

def acquires (localizer : PosLocalizer) (event : PosEvent) : List PosCall :=
  match event, localizer.guard with
  | .setPos pose, none => [.setPos pose]
  | .getPos, none => [.getPos]
  | _, _ => []

def acquired : PosLocalizer → List PosEvent → List PosCall
  | _, [] => []
  | localizer, event :: rest => localizer.acquires event ++ acquired (localizer.step event) rest

end PosLocalizer

/-- Whoever decodes the message finds the whole pose. -/
def PublishedPose.Decodes (published : PublishedPose) : Prop :=
  ∀ (receiver : { msg : CameraMsg // msg.Created }) (behind : Memory),
    (cameraMsgFromWire receiver.val).run (Memory.ofString published.message behind) =
      (true, { receiver.val with
        x := published.pose .x, y := published.pose .y, theta := published.pose .theta
        dt := createCameraMsg.dt })

section Steps

variable {localizer : PosLocalizer} {event : PosEvent} {initial : Pose} {calls : List PosCall}

theorem reads_append (before after : List PosCall) :
    reads initial (before ++ after) = reads initial before ++ reads (lastSet initial before) after := by
  induction before generalizing initial with
  | nil => rfl
  | cons call rest ih =>
      cases call with
      | setPos pose => exact ih
      | getPos => exact congrArg (initial :: ·) ih

theorem lastSet_append (before after : List PosCall) :
    lastSet initial (before ++ after) = lastSet (lastSet initial before) after := by
  induction before generalizing initial with
  | nil => rfl
  | cons call rest ih =>
      cases call with
      | setPos pose => exact ih
      | getPos => exact ih

theorem covers_posOrder (field : PosField) : field ∈ posOrder := by
  cases field <;> decide

namespace PosLocalizer

/-- The pose that is set, or about to be. -/
def latest (localizer : PosLocalizer) : Pose :=
  match localizer.pos.writing with
  | none => localizer.pos.complete
  | some (pose, _) => pose

/-- Under way when `guard` is taken by `get_pos`. -/
def pending (localizer : PosLocalizer) : List Pose :=
  match localizer.guard with
  | some .getter => [localizer.pos.complete]
  | _ => []

structure Sound (initial : Pose) (calls : List PosCall) (localizer : PosLocalizer) : Prop where
  pos : localizer.pos.Sound
  setter : localizer.guard = some .setter ↔ localizer.pos.writing ≠ none
  getter : localizer.guard = some .getter →
    localizer.pos.reader.window = [localizer.pos.complete] ∧
      localizer.pos.reader.taken.map Prod.fst ++ localizer.pos.reader.todo = posOrder
  idle : localizer.guard ≠ some .getter → localizer.pos.reader.todo = [] ∧
    localizer.pos.reader.taken = []
  dt : localizer.msg.val.dt = createCameraMsg.dt
  decodes : ∀ published ∈ localizer.published, published.Decodes
  latest : localizer.latest = lastSet initial calls
  answers : localizer.published.map PublishedPose.pose ++ localizer.pending = reads initial calls

theorem create_sound : (create initial).Sound initial [] where
  pos := SharedRecord.start_sound _
  setter := by simp [create, SharedRecord.start]
  getter taken := by cases taken
  idle _ := ⟨rfl, rfl⟩
  dt := rfl
  decodes _ member := by cases member
  latest := rfl
  answers := rfl

theorem Sound.unwritten (sound : localizer.Sound initial calls)
    (free : localizer.guard ≠ some .setter) : localizer.pos.writing = none :=
  Decidable.not_not.mp fun busy => free (sound.setter.mpr busy)

theorem Sound.settled (sound : localizer.Sound initial calls)
    (free : localizer.guard ≠ some .setter) : localizer.pos.complete = lastSet initial calls := by
  rw [← sound.latest, PosLocalizer.latest, sound.unwritten free]

theorem setPos_sound (sound : localizer.Sound initial calls) (pose : Pose)
    (free : localizer.guard = none) :
    Sound initial (calls ++ [.setPos pose])
      { localizer with pos := localizer.pos.begin posOrder pose, guard := some .setter } := by
  have unwritten := sound.unwritten (by simp [free])
  obtain ⟨todo, taken⟩ := sound.idle (by simp [free])
  have begun : localizer.pos.begin posOrder pose =
      { localizer.pos with
        writing := some (pose, posOrder)
        reader := { localizer.pos.reader with window := localizer.pos.reader.window ++ [pose] } } := by
    simp only [SharedRecord.begin, unwritten]
  have answers := sound.answers
  simp only [pending, free, List.append_nil] at answers
  rw [begun]
  refine ⟨?_, ?_, fun taken => (by cases taken), fun _ => ⟨todo, taken⟩, sound.dt, sound.decodes, ?_, ?_⟩
  · rw [← begun]
    exact sound.pos.begin covers_posOrder
  · simp
  · rw [lastSet_append]
    rfl
  · rw [reads_append]
    simpa [pending, reads] using answers

theorem getPos_sound (sound : localizer.Sound initial calls) (free : localizer.guard = none) :
    Sound initial (calls ++ [.getPos])
      { localizer with pos := localizer.pos.read posOrder, guard := some .getter } := by
  have unwritten := sound.unwritten (by simp [free])
  obtain ⟨todo, taken⟩ := sound.idle (by simp [free])
  have began : localizer.pos.read posOrder =
      { localizer.pos with
        reader := { todo := posOrder, taken := [], window := [localizer.pos.complete] } } := by
    simp only [SharedRecord.read, todo, SharedRecord.current, unwritten]
  have answers := sound.answers
  simp only [pending, free, List.append_nil] at answers
  rw [began]
  refine ⟨?_, ?_, fun _ => ⟨rfl, rfl⟩, fun other => absurd rfl other, sound.dt, sound.decodes, ?_, ?_⟩
  · rw [← began]
    exact sound.pos.read
  · simp [unwritten]
  · rw [lastSet_append]
    exact sound.latest
  · rw [reads_append, ← answers]
    simp [pending, reads, sound.settled (by simp [free])]

theorem store_sound (sound : localizer.Sound initial calls) :
    localizer.store.Sound initial calls := by
  unfold store
  split
  · next holds =>
      obtain ⟨idle, none⟩ := sound.idle (by simp [holds])
      have stored := sound.pos.store
      have latest := sound.latest
      have answers := sound.answers
      simp only [pending, holds, List.append_nil] at answers
      cases writing : localizer.pos.writing with
      | none => exact absurd writing (sound.setter.mp holds)
      | some busy =>
          obtain ⟨pose, rest⟩ := busy
          simp only [PosLocalizer.latest, writing] at latest
          cases rest with
          | nil =>
              simp only [SharedRecord.store, writing] at stored ⊢
              exact ⟨stored, by simp, fun taken => (by cases taken), fun _ => ⟨idle, none⟩, sound.dt,
                sound.decodes, latest, by simpa [pending] using answers⟩
          | cons field rest =>
              simp only [SharedRecord.store, writing] at stored ⊢
              exact ⟨stored, by simp, fun taken => (by cases taken), fun _ => ⟨idle, none⟩, sound.dt,
                sound.decodes, latest, by simpa [pending] using answers⟩
  · exact sound

theorem load_sound (sound : localizer.Sound initial calls) (holds : localizer.guard = some .getter) :
    Sound initial calls { localizer with pos := localizer.pos.load } := by
  obtain ⟨window, order⟩ := sound.getter holds
  have loaded := sound.pos.load
  cases todo : localizer.pos.reader.todo with
  | nil =>
      simp only [SharedRecord.load, todo]
      exact sound
  | cons field rest =>
      simp only [SharedRecord.load, todo] at loaded ⊢
      refine ⟨loaded, sound.setter, fun _ => ⟨window, ?_⟩, fun other => absurd holds other, sound.dt,
        sound.decodes, sound.latest, sound.answers⟩
      rw [← order, todo, List.map_append, List.append_assoc]
      rfl

/-- Nothing was stored between the loads. -/
theorem Sound.loaded (sound : localizer.Sound initial calls)
    (holds : localizer.guard = some .getter) (finished : localizer.pos.reader.todo = [])
    (field : PosField) : localizer.pos.loaded field = localizer.pos.complete field := by
  obtain ⟨window, order⟩ := sound.getter holds
  have alone : ∀ other ∈ localizer.pos.reader.window, other = localizer.pos.complete := by
    rw [window]
    exact fun other member => List.mem_singleton.mp member
  have fields : field ∈ localizer.pos.reader.taken.map Prod.fst := by
    rw [finished, List.append_nil] at order
    exact order ▸ covers_posOrder field
  exact sound.pos.taken_whole alone (SharedRecord.lookup_mem default fields)

theorem publish_sound (sound : localizer.Sound initial calls) :
    localizer.publish.Sound initial calls := by
  unfold publish
  split
  · next ready =>
      obtain ⟨holds, finished⟩ := ready
      have answers := sound.answers
      simp only [pending, holds] at answers
      have unwritten := sound.unwritten (by simp [holds])
      simp only [sound.loaded holds finished]
      refine ⟨sound.pos.forget, by simp [SharedRecord.forget, unwritten], fun taken => (by cases taken),
        fun _ => ⟨rfl, rfl⟩, sound.dt, ?_, sound.latest, ?_⟩
      · intro published member
        rcases List.mem_append.mp member with before | new
        · exact sound.decodes published before
        · intro receiver behind
          rw [List.mem_singleton.mp new, ← sound.dt]
          exact cameraMsgFromWire_toWire receiver.property
            (.assign _ _ _ _ localizer.msg.property) behind
      · simpa [pending] using answers
  · exact sound

theorem step_sound (sound : localizer.Sound initial calls) (event : PosEvent) :
    (localizer.step event).Sound initial (calls ++ localizer.acquires event) := by
  cases event with
  | setPos pose =>
      cases free : localizer.guard with
      | none => simpa only [step, acquires, free] using setPos_sound sound pose free
      | some holder => simpa only [step, acquires, free, List.append_nil] using sound
  | store => simpa only [step, acquires, List.append_nil] using store_sound sound
  | getPos =>
      cases free : localizer.guard with
      | none => simpa only [step, acquires, free] using getPos_sound sound free
      | some holder => simpa only [step, acquires, free, List.append_nil] using sound
  | load =>
      simp only [step, acquires, List.append_nil]
      split
      · next holds => exact load_sound sound holds
      · exact sound
  | publish => simpa only [step, acquires, List.append_nil] using publish_sound sound

theorem run_sound {events : List PosEvent} (sound : localizer.Sound initial calls) :
    (Run.final step localizer events).Sound initial (calls ++ localizer.acquired events) := by
  induction events generalizing localizer calls with
  | nil =>
      rw [acquired, List.append_nil]
      exact sound
  | cons event rest ih =>
      have next := ih (step_sound sound event)
      rwa [List.append_assoc] at next

end PosLocalizer

end Steps

end Sentinet.Localizer
