import Mathlib.Data.List.Induction
import Sentinet.Data.SharedRecord
import Sentinet.Kernel.Gate
import Sentinet.Kernel.Serial

namespace Sentinet.Kernel

open Sentinet.Data Sentinet.Messages KermitKernel

/-! The velocity on its way to the motors.  A callback stores it under `guard`, one
float after the other; the sender thread loads it without, in whatever order the
arguments of `send_drive` are evaluated, and does not look at what the port took. -/

inductive CommandField where
  | lin | ang
deriving DecidableEq, Repr

/-- The pair that the callbacks last decided on. -/
def KermitKernel.command (kernel : KermitKernel) : CommandField → Word
  | .lin => kernel.lin
  | .ang => kernel.ang

/-- The order of the stores in `update_teensy_message`. -/
def updateOrder : List CommandField := [.lin, .ang]

def argumentOrder (angFirst : Bool) : List CommandField :=
  if angFirst then [.ang, .lin] else [.lin, .ang]

def argumentOrders : List (List CommandField) := [argumentOrder true, argumentOrder false]

theorem argumentOrder_mem (angFirst : Bool) : argumentOrder angFirst ∈ argumentOrders := by
  cases angFirst <;> decide

inductive Callback where
  | drive (message : List UInt8) (behind : Memory)
  | request (asked : StateRequest)

namespace Callback

def run (kernel : KermitKernel) : Callback → KermitKernel
  | .drive message behind => kernel.driveMessageSubscribeCallback message behind
  | .request asked => kernel.request asked

/-- Ends in a call of `update_teensy_message`. -/
def updates : Callback → Bool
  | .drive _ _ => true
  | .request asked => asked.code = Kernel.stopEverything

end Callback

/-- `serialport_write`, with the bytes of `str` that the port took; a write that fails
takes none. -/
def serialportWrite (accepted : Nat) (str : List UInt8) : Int × List UInt8 :=
  (if (str.take accepted).length ≠ str.length then -1 else 0, str.take accepted)

/-- The eleven bytes that `teensy_send_data` puts together. -/
def driveFrame (lin ang : Word) : List UInt8 :=
  ['d'.toUInt8] ++ LittleEndian.encode 4 lin.toNat ++ LittleEndian.encode 4 ang.toNat ++
    ['\n'.toUInt8] ++ [0]

/-- One call of `send_drive`, and what its loads can have met. -/
structure SentFrame where
  lin : Word
  ang : Word
  accepted : Nat
  window : List (CommandField → Word)

namespace SentFrame

def bytes (frame : SentFrame) : List UInt8 := driveFrame frame.lin frame.ang

/-- What `teensy_send_data` does not look at. -/
def result (frame : SentFrame) : Int := (serialportWrite frame.accepted frame.bytes).1

end SentFrame

/-- Each float of a frame is that of an update its loads can have met. -/
def SentFrame.Loaded (frame : SentFrame) : Prop :=
  (∃ update ∈ frame.window, frame.lin = update .lin) ∧
    ∃ update ∈ frame.window, frame.ang = update .ang

/-- `kernel` is what the callbacks work on, `command` the two floats in memory. -/
structure DriveLink where
  kernel : KermitKernel
  command : SharedRecord CommandField Word
  device : TeensyDevice
  wire : List UInt8
  sent : List SentFrame

inductive DriveEvent where
  | callback (callback : Callback)
  | store
  | loadArguments (angFirst : Bool)
  | load
  | sendDrive (accepted : Nat)

namespace DriveLink

def create (device : TeensyDevice) : DriveLink :=
  { kernel := KermitKernel.create, command := .start KermitKernel.create.command, device
    wire := [], sent := [] }

/-- A callback waits for the one before it, which holds `mutex_lock` until its
stores are done. -/
def callback (link : DriveLink) (callback : Callback) : DriveLink :=
  match link.command.writing with
  | some _ => link
  | none =>
      let kernel := callback.run link.kernel
      { link with
        kernel
        command := if callback.updates then link.command.begin updateOrder kernel.command
          else link.command }

/-- The thread goes on to `send_drive` when it has loaded both arguments. -/
def sendDrive (link : DriveLink) (accepted : Nat) : DriveLink :=
  if link.command.reader.todo = [] ∧ link.command.reader.taken ≠ [] then
    let lin := link.command.loaded .lin
    let ang := link.command.loaded .ang
    let (buffer, device) := Kernel.sendDrive link.device lin ang
    let (_, taken) := serialportWrite accepted buffer
    { link with
      command := link.command.forget, device, wire := link.wire ++ taken
      sent := link.sent ++ [{ lin, ang, accepted, window := link.command.reader.window }] }
  else link

def step (link : DriveLink) : DriveEvent → DriveLink
  | .callback callback => link.callback callback
  | .store => { link with command := link.command.store }
  | .loadArguments angFirst =>
      if link.command.reader.taken = [] then
        { link with command := link.command.read (argumentOrder angFirst) }
      else link
  | .load => { link with command := link.command.load }
  | .sendDrive accepted => link.sendDrive accepted

end DriveLink

section Frames

variable {lin ang : Word} {device : TeensyDevice}

@[simp] theorem driveFrame_length : (driveFrame lin ang).length = 11 := rfl

theorem sendDrive_frame : (sendDrive device lin ang).1 = driveFrame lin ang := by
  have stored (memory : Memory) :
      ((((memory.store8 0 'd'.toUInt8).store32 1 lin).store32 5 ang).store8 9 '\n'.toUInt8).store8 10 0 =
        memory.store 0 (driveFrame lin ang) := by
    simp only [driveFrame, Memory.store8, Memory.store32, Memory.store_append, List.length_append,
      List.length_singleton, LittleEndian.encode_length, Nat.zero_add, Nat.reduceAdd]
  simp only [sendDrive, teensySendData, stored]
  exact Memory.load_store_of_length driveFrame_length

theorem serialportWrite_eq_zero {accepted : Nat} {str : List UInt8} :
    (serialportWrite accepted str).1 = 0 ↔ str.length ≤ accepted := by
  simp only [serialportWrite, List.length_take, ne_eq, ite_not]
  split <;> simp <;> omega

/-- No command passes for another, whatever bytes its floats have. -/
theorem driveFrame_inj {otherLin otherAng : Word}
    (same : driveFrame lin ang = driveFrame otherLin otherAng) : lin = otherLin ∧ ang = otherAng := by
  simp only [driveFrame, List.append_assoc, List.append_cancel_left_eq] at same
  obtain ⟨first, rest⟩ := List.append_inj same (by simp)
  obtain ⟨second, -⟩ := List.append_inj rest (by simp)
  have word {value other : Word}
      (equal : LittleEndian.encode 4 value.toNat = LittleEndian.encode 4 other.toNat) :
      value = other :=
    UInt32.toNat_inj.mp ((LittleEndian.encode_eq_iff value.toNat_lt other.toNat_lt).mp equal)
  exact ⟨word first, word second⟩

end Frames

section Loads

variable {link : DriveLink} {event : DriveEvent} {device : TeensyDevice}

namespace DriveLink

structure Sound (link : DriveLink) : Prop where
  command : link.command.Sound
  arguments : link.command.Reads argumentOrders
  sent : ∀ frame ∈ link.sent, frame.Loaded

theorem loaded_mem (sound : link.Sound) (finished : link.command.reader.todo = [])
    (begun : link.command.reader.taken ≠ []) (field : CommandField) :
    (field, link.command.loaded field) ∈ link.command.reader.taken := by
  refine sound.arguments.loaded_mem ?_ finished begun field
  intro order allowed field
  revert order
  cases field <;> decide

theorem covers_updateOrder (field : CommandField) : field ∈ updateOrder := by
  cases field <;> decide

theorem create_sound (device : TeensyDevice) : (create device).Sound where
  command := SharedRecord.start_sound _
  arguments := SharedRecord.start_reads _
  sent _ member := by cases member

theorem callback_cases (link : DriveLink) (callback : Callback) :
    link.callback callback = link ∨
      link.command.writing = none ∧
        link.callback callback =
          { link with
            kernel := callback.run link.kernel
            command := if callback.updates then
                link.command.begin updateOrder (callback.run link.kernel).command
              else link.command } := by
  cases writing : link.command.writing with
  | some busy => exact Or.inl (by simp only [DriveLink.callback, writing])
  | none => exact Or.inr ⟨rfl, by simp only [DriveLink.callback, writing]⟩

theorem sendDrive_cases (link : DriveLink) (accepted : Nat) :
    link.sendDrive accepted = link ∨
      (link.command.reader.todo = [] ∧ link.command.reader.taken ≠ []) ∧
        ∃ device, link.sendDrive accepted =
          { link with
            command := link.command.forget, device
            wire := link.wire ++ (driveFrame (link.command.loaded .lin) (link.command.loaded .ang)).take accepted
            sent := link.sent ++
              [{ lin := link.command.loaded .lin, ang := link.command.loaded .ang, accepted
                 window := link.command.reader.window }] } := by
  by_cases loaded : link.command.reader.todo = [] ∧ link.command.reader.taken ≠ []
  · refine Or.inr ⟨loaded, (Kernel.sendDrive link.device (link.command.loaded .lin) (link.command.loaded .ang)).2, ?_⟩
    have frame : (Kernel.sendDrive link.device (link.command.loaded .lin) (link.command.loaded .ang)).1 = _ :=
      sendDrive_frame
    rw [DriveLink.sendDrive, if_pos loaded, ← frame]
    rfl
  · exact Or.inl (if_neg loaded)

theorem callback_sound (sound : link.Sound) (callback : Callback) :
    (link.callback callback).Sound := by
  rcases link.callback_cases callback with same | ⟨_, ran⟩
  · rw [same]
    exact sound
  · rw [ran]
    split
    · exact ⟨sound.command.begin covers_updateOrder, sound.arguments.begin, sound.sent⟩
    · exact ⟨sound.command, sound.arguments, sound.sent⟩

theorem sendDrive_sound (sound : link.Sound) (accepted : Nat) :
    (link.sendDrive accepted).Sound := by
  rcases link.sendDrive_cases accepted with same | ⟨⟨finished, begun⟩, device, sends⟩
  · rw [same]
    exact sound
  · rw [sends]
    refine ⟨sound.command.forget, SharedRecord.forget_reads, ?_⟩
    intro frame member
    rcases List.mem_append.mp member with before | new
    · exact sound.sent frame before
    · rw [List.mem_singleton.mp new]
      exact ⟨sound.command.taken _ (loaded_mem sound finished begun .lin),
        sound.command.taken _ (loaded_mem sound finished begun .ang)⟩

theorem step_sound (sound : link.Sound) (event : DriveEvent) : (link.step event).Sound := by
  cases event with
  | callback callback => exact callback_sound sound callback
  | store => exact ⟨sound.command.store, sound.arguments.store, sound.sent⟩
  | loadArguments angFirst =>
      simp only [step]
      split
      · exact ⟨sound.command.read, sound.arguments.read (argumentOrder_mem angFirst), sound.sent⟩
      · exact sound
  | load => exact ⟨sound.command.load, sound.arguments.load, sound.sent⟩
  | sendDrive accepted => exact sendDrive_sound sound accepted

theorem run_sound (device : TeensyDevice) (events : List DriveEvent) :
    (Run.final step (create device) events).Sound :=
  Run.final_invariant Sound (fun event _ _ sound => step_sound sound event) (create_sound device)

/-- The updates that loads or frames have met. -/
def updates (link : DriveLink) : List (CommandField → Word) :=
  link.command.met ++ link.sent.flatMap SentFrame.window

theorem step_updates {other : CommandField → Word} (member : other ∈ (link.step event).updates) :
    other ∈ link.updates ∨ other = (link.step event).kernel.command := by
  have unsent {command : SharedRecord CommandField Word}
      (kept : other ∈ command.met → other ∈ link.command.met)
      (member : other ∈ ({ link with command } : DriveLink).updates) : other ∈ link.updates :=
    List.mem_append.mpr ((List.mem_append.mp member).imp_left kept)
  cases event with
  | callback callback =>
      simp only [step] at member ⊢
      rcases link.callback_cases callback with same | ⟨_, ran⟩
      · rw [same] at member
        exact Or.inl member
      · rw [ran] at member ⊢
        split at member
        · rcases List.mem_append.mp member with met | sent
          · exact (SharedRecord.mem_met_begin met).imp_left (List.mem_append_left _)
          · exact Or.inl (List.mem_append_right _ sent)
        · exact Or.inl member
  | store => exact Or.inl (unsent SharedRecord.mem_met_store member)
  | loadArguments angFirst =>
      simp only [step] at member
      split at member
      · exact Or.inl (unsent SharedRecord.mem_met_read member)
      · exact Or.inl member
  | load => exact Or.inl (unsent SharedRecord.mem_met_load member)
  | sendDrive accepted =>
      refine Or.inl ?_
      simp only [step] at member
      rcases link.sendDrive_cases accepted with same | ⟨_, device, sends⟩
      · rwa [same] at member
      · rw [sends, updates, List.flatMap_append, List.flatMap_singleton] at member
        rcases List.mem_append.mp member with met | sent
        · exact List.mem_append_left _ (SharedRecord.mem_met_forget met)
        · rcases List.mem_append.mp sent with before | window
          · exact List.mem_append_right _ before
          · exact List.mem_append_left _ (List.mem_append_right _ window)

/-- What the callbacks had decided on at some point of the run. -/
def Held (device : TeensyDevice) (events : List DriveEvent) (update : CommandField → Word) : Prop :=
  ∃ before, before <+: events ∧ (Run.final step (create device) before).kernel.command = update

theorem run_updates (device : TeensyDevice) (events : List DriveEvent) :
    ∀ update ∈ (Run.final step (create device) events).updates, Held device events update := by
  induction events using List.reverseRecOn with
  | nil =>
      intro update member
      have initial : update = KermitKernel.create.command := by
        simpa [create, updates, SharedRecord.met, SharedRecord.start, SharedRecord.current] using member
      exact ⟨[], List.prefix_refl _, initial.symm⟩
  | append_singleton events event ih =>
      intro update member
      rw [Run.final_append, Run.final_cons, Run.final_nil] at member
      rcases step_updates member with before | new
      · obtain ⟨earlier, isPrefix, held⟩ := ih update before
        exact ⟨earlier, isPrefix.trans (List.prefix_append _ _), held⟩
      · refine ⟨events ++ [event], List.prefix_refl _, ?_⟩
        rw [Run.final_append, Run.final_cons, Run.final_nil, new]

end DriveLink

end Loads

/-- In every interleaving each float on the wire was loaded from an update that was
complete when its turn began, under way then or begun during the turn, and every such
update is a pair that the callbacks had decided on. -/
theorem frames_between_updates (device : TeensyDevice) (events : List DriveEvent) :
    ∀ frame ∈ (Run.final DriveLink.step (.create device) events).sent,
      frame.Loaded ∧ ∀ update ∈ frame.window, DriveLink.Held device events update := by
  intro frame sent
  refine ⟨(DriveLink.run_sound device events).sent frame sent, ?_⟩
  intro update member
  refine DriveLink.run_updates device events update ?_
  exact List.mem_append_right _ (List.mem_flatMap.mpr ⟨frame, sent, member⟩)

/-- A device that says nothing. -/
def silentDevice : TeensyDevice :=
  { port := { output := [], attempts := [] }, msg := { lin := 0, ang := 0 }
    respMsg := { v := 0, w := 0, wErr := 0, dt := 0 }, buffer := fun _ => 0 }

/-- The thread loads `ang` behind its store and `lin` before. -/
def stitchedTurn : List DriveEvent :=
  [.callback (.request { code := moveToMine, excess := startDriving }),
    .loadArguments false, .load,
    .callback (.drive (messageString (cmdVelToWire
      { createCmdVel with lin := 0x3f800000, ang := 0x40000000 }).buff) fun _ => 0),
    .store, .store, .load, .sendDrive 11]

theorem frames_between_updates_stitched :
    ∃ frame ∈ (Run.final DriveLink.step (.create silentDevice) stitchedTurn).sent,
      frame.Loaded ∧ ∀ update ∈ frame.window, DriveLink.Held silentDevice stitchedTurn update :=
  ⟨_, List.mem_cons_self, frames_between_updates silentDevice stitchedTurn _ List.mem_cons_self⟩

/-- The frame turns on the spot, which neither the command before nor the one under way
does. -/
example : ((Run.final DriveLink.step (.create silentDevice) stitchedTurn).sent.map
    fun frame => (frame.lin, frame.ang)) = [(0, 0x40000000)] := by
  decide

section Stop

open DriveLink

variable {link : DriveLink} {event : DriveEvent}

/-- Not a request that opens the gate. -/
def DriveEvent.KeepsClosed : DriveEvent → Prop
  | .callback (.request asked) => ∀ handler, selectHandler asked.code = some handler →
      ¬ Opens handler asked.excess
  | _ => True

def still : CommandField → Word := fun _ => 0

namespace DriveLink

/-- The gate is closed, and the update under way stops the motors or, with none under
way, the last one did. -/
structure Halting (link : DriveLink) : Prop where
  closed : link.kernel.receivingCvels = false
  done : link.command.writing = none → link.command.complete = still
  storing : ∀ update rest, link.command.writing = some (update, rest) → update = still

/-- Nothing in memory moves the motors. -/
structure Halted (link : DriveLink) : Prop where
  halting : link.Halting
  complete : link.command.complete = still

/-- The sender thread is between two turns, or its turn met no moving update. -/
def Clean (link : DriveLink) : Prop :=
  link.command.reader.taken = [] ∧ link.command.reader.todo = [] ∨
    ∀ update ∈ link.command.reader.window, update = still

end DriveLink

theorem Callback.run_closed {kernel : KermitKernel} {callback : Callback}
    (closed : kernel.receivingCvels = false)
    (keeps : (DriveEvent.callback callback).KeepsClosed) :
    (callback.run kernel).receivingCvels = false ∧
      (callback.updates = true → (callback.run kernel).command = still) := by
  cases callback with
  | drive message behind =>
      have ran : (Callback.drive message behind).run kernel =
          { kernel with
            cvelBuffer := (cmdVelFromWire kernel.cvelBuffer).run (Memory.ofString message behind)
            created := cmdVelFromWire_created kernel.created, lin := 0, ang := 0 } := by
        simp [Callback.run, driveMessageSubscribeCallback, closed, updateTeensyMessage]
      rw [ran]
      refine ⟨closed, fun _ => ?_⟩
      funext field
      cases field <;> rfl
  | request asked =>
      cases selected : selectHandler asked.code with
      | none =>
          have other : asked.code ≠ Kernel.stopEverything :=
            selectHandler_eq_none selected .stopEverything
          rw [Callback.run, request_unselected selected]
          exact ⟨closed, fun updates => absurd (of_decide_eq_true updates) other⟩
      | some handler =>
          have gate := runHandler_receivingCvels kernel asked.excess handler
          obtain ⟨lin, ang⟩ := runHandler_velocity kernel asked.excess handler
          rw [Callback.run, request_selected selected]
          constructor
          · have shut := keeps handler selected
            simpa [closed, shut] using gate
          · intro updates
            have stops : handler = .stopEverything := by
              have code := selectHandler_eq_some selected
              rw [of_decide_eq_true updates] at code
              revert code
              cases handler <;> decide
            rw [if_pos stops] at lin ang
            funext field
            cases field with
            | lin => exact lin
            | ang => exact ang

namespace DriveLink

theorem Halting.store (halting : link.Halting) :
    Halting { link with command := link.command.store } := by
  cases writing : link.command.writing with
  | none => simpa only [SharedRecord.store, writing] using halting
  | some busy =>
      obtain ⟨update, rest⟩ := busy
      have stops := halting.storing update rest writing
      cases rest with
      | nil =>
          refine ⟨halting.closed, fun _ => ?_, fun other later same => ?_⟩
          · simpa only [SharedRecord.store, writing] using stops
          · simp only [SharedRecord.store, writing] at same
            cases same
      | cons field rest =>
          refine ⟨halting.closed, fun idle => ?_, fun other later same => ?_⟩
          · simp only [SharedRecord.store, writing] at idle
            cases idle
          · simp only [SharedRecord.store, writing] at same
            cases same
            exact stops

theorem callback_halting {callback : Callback} (halting : link.Halting)
    (keeps : (DriveEvent.callback callback).KeepsClosed) : (link.callback callback).Halting := by
  rcases link.callback_cases callback with same | ⟨idle, ran⟩
  · rw [same]
    exact halting
  · obtain ⟨closed, stops⟩ := Callback.run_closed halting.closed keeps
    rw [ran]
    split
    · next updates =>
        rcases SharedRecord.begin_cases link.command updateOrder (callback.run link.kernel).command
          with ⟨_, busy, _⟩ | ⟨_, begun⟩
        · rw [idle] at busy
          cases busy
        · rw [begun]
          refine ⟨closed, fun writing => (by cases writing), fun other rest same => ?_⟩
          cases same
          exact stops updates
    · exact ⟨closed, halting.done, halting.storing⟩

/-- What the sender thread does leaves the callbacks' side as it is. -/
theorem step_halting (halting : link.Halting) (keeps : event.KeepsClosed) :
    (link.step event).Halting := by
  cases event with
  | callback callback => exact callback_halting halting keeps
  | store => exact halting.store
  | loadArguments angFirst =>
      simp only [step]
      split
      · unfold SharedRecord.read
        split
        · exact halting
        · exact ⟨halting.closed, halting.done, halting.storing⟩
      · exact halting
  | load =>
      simp only [step]
      unfold SharedRecord.load
      split
      · exact halting
      · exact ⟨halting.closed, halting.done, halting.storing⟩
  | sendDrive accepted =>
      simp only [step]
      rcases link.sendDrive_cases accepted with same | ⟨_, device, sends⟩
      · rw [same]
        exact halting
      · rw [sends]
        exact ⟨halting.closed, halting.done, halting.storing⟩

theorem Halted.current (halted : link.Halted) : ∀ update ∈ link.command.current, update = still := by
  intro update member
  cases writing : link.command.writing with
  | none =>
      simp only [SharedRecord.current, writing, List.mem_singleton] at member
      exact member.trans halted.complete
  | some busy =>
      obtain ⟨storing, rest⟩ := busy
      simp only [SharedRecord.current, writing, List.mem_cons, List.not_mem_nil, or_false] at member
      rcases member with rfl | rfl
      · exact halted.complete
      · exact halted.halting.storing _ rest writing

theorem step_complete (halted : link.Halted) : (link.step event).command.complete = still := by
  cases event with
  | callback callback =>
      simp only [step]
      rcases link.callback_cases callback with same | ⟨_, ran⟩
      · rw [same]
        exact halted.complete
      · rw [ran]
        split
        · unfold SharedRecord.begin
          split <;> exact halted.complete
        · exact halted.complete
  | store =>
      cases writing : link.command.writing with
      | none => simpa only [step, SharedRecord.store, writing] using halted.complete
      | some busy =>
          obtain ⟨update, rest⟩ := busy
          cases rest with
          | nil =>
              simpa only [step, SharedRecord.store, writing] using
                halted.halting.storing update [] writing
          | cons field rest => simpa only [step, SharedRecord.store, writing] using halted.complete
  | loadArguments angFirst =>
      simp only [step]
      split
      · unfold SharedRecord.read
        split <;> exact halted.complete
      · exact halted.complete
  | load =>
      simp only [step]
      unfold SharedRecord.load
      split <;> exact halted.complete
  | sendDrive accepted =>
      simp only [step]
      rcases link.sendDrive_cases accepted with same | ⟨_, device, sends⟩
      · rw [same]
        exact halted.complete
      · rw [sends]
        exact halted.complete

theorem step_halted (halted : link.Halted) (keeps : event.KeepsClosed) : (link.step event).Halted :=
  ⟨step_halting halted.halting keeps, step_complete halted⟩

theorem begin_clean {callback : Callback} (clean : link.Clean)
    (stops : (callback.run link.kernel).command = still) :
    Clean { link with command := link.command.begin updateOrder (callback.run link.kernel).command } := by
  rcases SharedRecord.begin_cases link.command updateOrder (callback.run link.kernel).command
    with ⟨_, _, same⟩ | ⟨_, begun⟩
  · rw [same]
    exact clean
  · rw [begun]
    refine clean.imp id fun met update member => ?_
    rcases List.mem_append.mp member with before | new
    · exact met update before
    · exact (List.mem_singleton.mp new).trans stops

theorem step_clean (halted : link.Halted) (clean : link.Clean) (keeps : event.KeepsClosed) :
    (link.step event).Clean := by
  cases event with
  | callback callback =>
      simp only [step]
      rcases link.callback_cases callback with same | ⟨_, ran⟩
      · rw [same]
        exact clean
      · rw [ran]
        split
        · next updates =>
            exact begin_clean clean
              ((Callback.run_closed halted.halting.closed keeps).2 updates)
        · exact clean
  | store =>
      simpa only [step, Clean, SharedRecord.store_reader] using clean
  | loadArguments angFirst =>
      simp only [step]
      split
      · unfold SharedRecord.read
        split
        · exact clean
        · exact Or.inr halted.current
      · exact clean
  | load =>
      cases todo : link.command.reader.todo with
      | nil => simpa only [step, Clean, SharedRecord.load, todo] using clean
      | cons field rest =>
          have met := clean.resolve_left fun idle => by simp [todo] at idle
          refine Or.inr ?_
          simpa only [step, SharedRecord.load, todo] using met
  | sendDrive accepted =>
      simp only [step]
      rcases link.sendDrive_cases accepted with same | ⟨_, device, sends⟩
      · rw [same]
        exact clean
      · rw [sends]
        exact Or.inl ⟨rfl, rfl⟩

/-- A step sends a frame only when its turn is over. -/
theorem step_sent (sound : link.Sound) (event : DriveEvent) :
    (link.step event).sent = link.sent ∨
      ∃ frame, (link.step event).sent = link.sent ++ [frame] ∧ (link.step event).Clean ∧
        (link.Clean → frame.lin = 0 ∧ frame.ang = 0) := by
  cases event with
  | callback callback =>
      refine Or.inl ?_
      simp only [step]
      rcases link.callback_cases callback with same | ⟨_, ran⟩
      · rw [same]
      · rw [ran]
  | store => exact Or.inl rfl
  | loadArguments angFirst =>
      refine Or.inl ?_
      simp only [step]
      split <;> rfl
  | load => exact Or.inl rfl
  | sendDrive accepted =>
      simp only [step]
      rcases link.sendDrive_cases accepted with same | ⟨⟨finished, begun⟩, device, sends⟩
      · exact Or.inl (congrArg DriveLink.sent same)
      · rw [sends]
        refine Or.inr ⟨_, rfl, Or.inl ⟨rfl, rfl⟩, fun clean => ?_⟩
        have met := clean.resolve_left fun idle => begun idle.1
        exact ⟨sound.command.taken_whole met (loaded_mem sound finished begun .lin),
          sound.command.taken_whole met (loaded_mem sound finished begun .ang)⟩

/-- The frames that a run sends after a state. -/
def SendsBehind (link : DriveLink) (events : List DriveEvent) (frames : List SentFrame) : Prop :=
  (Run.final step link events).sent = link.sent ++ frames

theorem halted_sends_still {events : List DriveEvent} (sound : link.Sound) (halted : link.Halted)
    (clean : link.Clean) (keeps : ∀ event ∈ events, event.KeepsClosed) :
    ∃ frames, link.SendsBehind events frames ∧ ∀ frame ∈ frames, frame.lin = 0 ∧ frame.ang = 0 := by
  induction events generalizing link with
  | nil => exact ⟨[], (List.append_nil _).symm, fun _ member => by cases member⟩
  | cons event rest ih =>
      obtain ⟨first, later⟩ := List.forall_mem_cons.mp keeps
      obtain ⟨frames, sends, stops⟩ := ih (step_sound sound event) (step_halted halted first)
        (step_clean halted clean first) later
      rcases step_sent sound event with same | ⟨frame, new, _, zero⟩
      · exact ⟨frames, by rw [SendsBehind, Run.final_cons, sends, same], stops⟩
      · refine ⟨frame :: frames, ?_, List.forall_mem_cons.mpr ⟨zero clean, stops⟩⟩
        rw [SendsBehind, Run.final_cons, sends, new, List.append_assoc, List.singleton_append]

theorem create_halted (device : TeensyDevice) : (create device).Halted := by
  have initial : KermitKernel.create.command = still := by
    funext field
    cases field <;> rfl
  exact ⟨⟨rfl, fun _ => initial, fun _ _ writing => (by cases writing)⟩, initial⟩

/-- Until a request opens the gate for the first time every frame stops the motors. -/
theorem closed_sends_still (device : TeensyDevice) {events : List DriveEvent}
    (keeps : ∀ event ∈ events, event.KeepsClosed) :
    ∀ frame ∈ (Run.final step (create device) events).sent, frame.lin = 0 ∧ frame.ang = 0 := by
  have clean : (create device).Clean := Or.inl ⟨rfl, rfl⟩
  obtain ⟨frames, sends, stops⟩ :=
    halted_sends_still (create_sound device) (create_halted device) clean keeps
  rw [sends]
  exact stops

/-- A turn that was under way may still send what it loaded; every later one stops. -/
theorem halted_sends {events : List DriveEvent} (sound : link.Sound) (halted : link.Halted)
    (keeps : ∀ event ∈ events, event.KeepsClosed) :
    ∃ stale frames, link.SendsBehind events (stale ++ frames) ∧ stale.length ≤ 1 ∧
      (link.Clean → stale = []) ∧ ∀ frame ∈ frames, frame.lin = 0 ∧ frame.ang = 0 := by
  by_cases clean : link.Clean
  · obtain ⟨frames, sends, stops⟩ := halted_sends_still sound halted clean keeps
    exact ⟨[], frames, sends, Nat.zero_le _, fun _ => rfl, stops⟩
  · induction events generalizing link with
    | nil =>
        exact ⟨[], [], (List.append_nil _).symm, Nat.zero_le _, fun _ => rfl,
          fun _ member => by cases member⟩
    | cons event rest ih =>
        obtain ⟨first, later⟩ := List.forall_mem_cons.mp keeps
        have next_sound := step_sound sound event
        have next_halted : (link.step event).Halted := step_halted halted first
        by_cases next_clean : (link.step event).Clean
        · obtain ⟨frames, sends, stops⟩ :=
            halted_sends_still next_sound next_halted next_clean later
          rcases step_sent sound event with same | ⟨frame, new, _, _⟩
          · refine ⟨[], frames, ?_, Nat.zero_le _, fun _ => rfl, stops⟩
            rw [SendsBehind, Run.final_cons, sends, same, List.nil_append]
          · refine ⟨[frame], frames, ?_, Nat.le_refl _, fun now => absurd now clean, stops⟩
            rw [SendsBehind, Run.final_cons, sends, new, List.append_assoc]
        · obtain ⟨stale, frames, sends, one, _, stops⟩ := ih next_sound next_halted later next_clean
          rcases step_sent sound event with same | ⟨frame, _, ended, _⟩
          · refine ⟨stale, frames, ?_, one, fun now => absurd now clean, stops⟩
            rw [SendsBehind, Run.final_cons, sends, same]
          · exact absurd ended next_clean

end DriveLink

theorem stop_halting {asked : StateRequest} (stops : asked.code = Kernel.stopEverything)
    (free : link.command.writing = none) :
    (link.step (.callback (.request asked))).Halting := by
  have selected : selectHandler asked.code = some .stopEverything := by
    rw [stops]
    rfl
  have ran : (Callback.request asked).run link.kernel =
      (link.kernel.runHandler asked.excess .stopEverything) := request_selected selected
  have closed : ((Callback.request asked).run link.kernel).receivingCvels = false := by
    rw [ran]
    rfl
  have zero : ((Callback.request asked).run link.kernel).command = still := by
    rw [ran]
    funext field
    cases field <;> rfl
  simp only [DriveLink.step, DriveLink.callback, free, Callback.updates, stops, decide_true, if_true]
  rw [SharedRecord.begin, free]
  refine ⟨closed, fun writing => (by cases writing), fun update rest same => ?_⟩
  cases same
  exact zero

end Stop

/-- Once the handler of a request to stop everything has returned, and until a request
opens the gate again, every frame stops the motors, but for one whose turn was already
under way. -/
theorem stop_reaches_motors (device : TeensyDevice) (before during after : List DriveEvent)
    (asked : StateRequest) (stops : asked.code = Kernel.stopEverything)
    (free : (Run.final DriveLink.step (.create device) before).command.writing = none)
    (keeps : ∀ event ∈ during ++ after, event.KeepsClosed)
    (returned : (Run.final DriveLink.step (.create device)
      (before ++ .callback (.request asked) :: during)).command.writing = none) :
    let link := Run.final DriveLink.step (.create device)
      (before ++ .callback (.request asked) :: during)
    ∃ stale frames, link.SendsBehind after (stale ++ frames) ∧ stale.length ≤ 1 ∧
      (link.Clean → stale = []) ∧ ∀ frame ∈ frames, frame.lin = 0 ∧ frame.ang = 0 := by
  intro link
  have sound : link.Sound := DriveLink.run_sound device _
  have halting : link.Halting := by
    have stopped := stop_halting stops free
    have kept : ∀ event ∈ during, ∀ link : DriveLink, link.Halting → (link.step event).Halting :=
      fun event member _ halting =>
        DriveLink.step_halting halting (keeps event (List.mem_append_left _ member))
    simpa only [link, Run.final_append, Run.final_cons] using
      Run.final_invariant DriveLink.Halting kept stopped
  exact DriveLink.halted_sends sound ⟨halting, halting.done returned⟩
    fun event member => keeps event (List.mem_append_right _ member)

/-- The thread has loaded both floats when the stop comes. -/
theorem stop_reaches_motors_late :
    let link := Run.final DriveLink.step (.create silentDevice)
      ([.loadArguments true, .load, .load] ++
        .callback (.request { code := Kernel.stopEverything, excess := 0 }) :: [.store, .store, .store])
    ∃ stale frames,
      link.SendsBehind [.sendDrive 11, .loadArguments false, .load, .load, .sendDrive 11]
        (stale ++ frames) ∧ stale.length ≤ 1 ∧
      (link.Clean → stale = []) ∧ ∀ frame ∈ frames, frame.lin = 0 ∧ frame.ang = 0 :=
  stop_reaches_motors silentDevice [.loadArguments true, .load, .load] [.store, .store, .store]
    [.sendDrive 11, .loadArguments false, .load, .load, .sendDrive 11]
    { code := Kernel.stopEverything, excess := 0 } rfl rfl
    (by simp [DriveEvent.KeepsClosed]) rfl

section Wire

variable {frames : List SentFrame}

def driveFrames (commands : List (Word × Word)) : List UInt8 :=
  commands.flatMap fun command => driveFrame command.1 command.2

/-- The commands whose write went through. -/
def takenWhole (frames : List SentFrame) : List (Word × Word) :=
  (frames.filter fun frame => frame.result = 0).map fun frame => (frame.lin, frame.ang)

/-- What the port took of all frames. -/
def takenBytes (frames : List SentFrame) : List UInt8 :=
  frames.flatMap fun frame => frame.bytes.take frame.accepted

theorem driveFrames_injective : Function.Injective driveFrames := by
  intro commands
  induction commands with
  | nil =>
      intro others same
      cases others with
      | nil => rfl
      | cons other rest => simp [driveFrames, driveFrame] at same
  | cons command commands ih =>
      intro others same
      cases others with
      | nil => simp [driveFrames, driveFrame] at same
      | cons other rest =>
          simp only [driveFrames, List.flatMap_cons] at same
          obtain ⟨first, later⟩ := List.append_inj same rfl
          obtain ⟨lin, ang⟩ := driveFrame_inj first
          rw [Prod.ext lin ang, ih later]

/-- The bytes of the whole writes are there, and a short write shows in the length. -/
theorem takenBytes_length (frames : List SentFrame) :
    (driveFrames (takenWhole frames)).length ≤ (takenBytes frames).length ∧
      ((driveFrames (takenWhole frames)).length = (takenBytes frames).length →
        ∀ frame ∈ frames, frame.result = 0 ∨ frame.accepted = 0) := by
  induction frames with
  | nil => exact ⟨Nat.le_refl _, fun _ _ member => by cases member⟩
  | cons frame rest ih =>
      obtain ⟨bound, exact_rest⟩ := ih
      have taken : (takenBytes (frame :: rest)).length =
          min frame.accepted 11 + (takenBytes rest).length := by
        simp [takenBytes, SentFrame.bytes]
      by_cases whole : frame.result = 0
      · have full : 11 ≤ frame.accepted := serialportWrite_eq_zero.mp whole
        have framed : (driveFrames (takenWhole (frame :: rest))).length =
            11 + (driveFrames (takenWhole rest)).length := by
          simp [driveFrames, takenWhole, whole]
        refine ⟨by omega, fun same => ?_⟩
        exact List.forall_mem_cons.mpr ⟨Or.inl whole, exact_rest (by omega)⟩
      · have framed : takenWhole (frame :: rest) = takenWhole rest := by simp [takenWhole, whole]
        rw [framed]
        refine ⟨by omega, fun same => ?_⟩
        exact List.forall_mem_cons.mpr ⟨Or.inr (by omega), exact_rest (by omega)⟩

theorem takenBytes_whole (whole : ∀ frame ∈ frames, frame.result = 0 ∨ frame.accepted = 0) :
    takenBytes frames = driveFrames (takenWhole frames) := by
  induction frames with
  | nil => rfl
  | cons frame rest ih =>
      obtain ⟨first, later⟩ := List.forall_mem_cons.mp whole
      have kept := ih later
      simp only [takenBytes, takenWhole, driveFrames, List.flatMap_cons] at kept ⊢
      by_cases through : frame.result = 0
      · have full : frame.bytes.length ≤ frame.accepted := serialportWrite_eq_zero.mp through
        rw [List.take_of_length_le full, kept, List.filter_cons_of_pos (by simpa using through)]
        rfl
      · rw [first.resolve_left through, List.take_zero, List.nil_append, kept,
          List.filter_cons_of_neg (by simpa using through)]

theorem step_wire {link : DriveLink} (event : DriveEvent)
    (wired : link.wire = takenBytes link.sent) :
    (link.step event).wire = takenBytes (link.step event).sent := by
  cases event with
  | callback callback =>
      simp only [DriveLink.step]
      rcases link.callback_cases callback with same | ⟨_, ran⟩
      · rw [same, wired]
      · rw [ran, wired]
  | store => exact wired
  | loadArguments angFirst =>
      simp only [DriveLink.step]
      split <;> exact wired
  | load => exact wired
  | sendDrive accepted =>
      simp only [DriveLink.step]
      rcases link.sendDrive_cases accepted with same | ⟨_, device, sends⟩
      · rw [same, wired]
      · rw [sends, wired, takenBytes, takenBytes, List.flatMap_append, List.flatMap_singleton]
        rfl

end Wire

/-- The bytes on the wire read back as the commands whose write went through, and as no
others, exactly when no write of a run stopped in the middle of a frame. -/
theorem wire_reads_back_iff (device : TeensyDevice) (events : List DriveEvent) :
    let link := Run.final DriveLink.step (.create device) events
    (∀ commands, link.wire = driveFrames commands ↔ commands = takenWhole link.sent) ↔
      ∀ frame ∈ link.sent, frame.result = 0 ∨ frame.accepted = 0 := by
  intro link
  have wired : link.wire = takenBytes link.sent :=
    Run.final_invariant (fun link : DriveLink => link.wire = takenBytes link.sent)
      (fun event _ _ wired => step_wire event wired) rfl
  constructor
  · intro reads_back
    have read := (reads_back _).mpr rfl
    exact (takenBytes_length link.sent).2 (by rw [← read, wired])
  · intro whole commands
    rw [wired, takenBytes_whole whole]
    exact ⟨fun same => driveFrames_injective same.symm, fun same => by rw [same]⟩

end Sentinet.Kernel
