import Sentinet.Kernel.Gate

namespace Sentinet.Kernel

open Sentinet.Data Sentinet.Messages Sentinet.Control KermitKernel

/-! Runs of the kernel over drive messages and state requests, in any order.
The global mutex makes each callback one step. -/

inductive Event where
  | drive (sender : { vel : CmdVel // vel.Created }) (behind : Memory)
  | request (asked : StateRequest)

namespace KermitKernel

def step (kernel : KermitKernel) : Event → KermitKernel
  | .drive sender behind =>
      kernel.driveMessageSubscribeCallback (messageString (cmdVelToWire sender.val).buff) behind
  | .request asked => kernel.request asked

/-- What the sender thread keeps sending to the motors. -/
def velocity (kernel : KermitKernel) : Word × Word := (kernel.lin, kernel.ang)

variable {kernel : KermitKernel} {sender : { vel : CmdVel // vel.Created }} {behind : Memory}
  {asked : StateRequest}

@[simp] theorem drive_receivingCvels :
    (kernel.step (.drive sender behind)).receivingCvels = kernel.receivingCvels := by
  simp only [step, driveMessageSubscribeCallback]
  split <;> rfl

/-- An open gate lets the sender's velocity through bit for bit, a closed one stops. -/
theorem drive_velocity :
    (kernel.step (.drive sender behind)).velocity =
      if kernel.receivingCvels then (sender.val.lin, sender.val.ang) else (0, 0) := by
  have received := cmdVelFromWire_toWire kernel.created sender.property behind
  simp only [step, driveMessageSubscribeCallback, received]
  cases kernel.receivingCvels <;> rfl

theorem request_velocity (kernel : KermitKernel) (asked : StateRequest) :
    (kernel.step (.request asked)).velocity =
      if asked.code = Kernel.stopEverything then (0, 0) else kernel.velocity := by
  cases selected : selectHandler asked.code with
  | none =>
      have other : asked.code ≠ Kernel.stopEverything :=
        selectHandler_eq_none selected .stopEverything
      rw [step, request_unselected selected, if_neg other]
  | some handler =>
      obtain ⟨lin, ang⟩ := runHandler_velocity kernel asked.excess handler
      have stops : asked.code = Kernel.stopEverything ↔ handler = .stopEverything := by
        rw [selectHandler_eq_some selected]
        cases handler <;> decide
      rw [step, request_selected selected, velocity, lin, ang]
      simp only [stops]
      split <;> rfl

end KermitKernel

section Safety

/-- A closed gate means a robot that is told to stand still. -/
def Safe (kernel : KermitKernel) : Prop :=
  kernel.receivingCvels = false → kernel.velocity = (0, 0)

/-- The step does not close the gate on a moving robot, unless it is a request
to stop everything. -/
def ClosesAtRest (kernel : KermitKernel) : Event → Prop
  | .drive _ _ => True
  | .request asked =>
      kernel.receivingCvels = true → kernel.velocity ≠ (0, 0) → ∀ handler,
        selectHandler asked.code = some handler → Closes handler asked.excess →
          handler = .stopEverything

variable {kernel : KermitKernel} {asked : StateRequest}

theorem request_safe_iff (safe : Safe kernel) :
    Safe (kernel.step (.request asked)) ↔ ClosesAtRest kernel (.request asked) := by
  cases selected : selectHandler asked.code with
  | none =>
      rw [step, request_unselected selected]
      refine iff_of_true safe fun _ _ handler named => ?_
      rw [selected] at named
      contradiction
  | some handler =>
      have kept := request_velocity kernel asked
      by_cases stop : asked.code = Kernel.stopEverything
      · -- the one handler that zeroes the velocity with the gate
        rw [if_pos stop] at kept
        refine iff_of_true (fun _ => kept) fun _ _ other named _ => ?_
        rw [stop] at named
        exact (Option.some.inj named).symm
      · rw [if_neg stop] at kept
        cases gate : kernel.receivingCvels with
        | false =>
            refine iff_of_true (fun _ => kept.trans (safe gate)) fun opened => ?_
            rw [gate] at opened
            contradiction
        | true =>
            have shuts := request_shuts_iff selected gate
            constructor
            · intro after _ moving other named closes
              obtain rfl := Option.some.inj (selected.symm.trans named)
              exact absurd (kept.symm.trans (after (shuts.mpr closes))) moving
            · intro rest closed
              rw [kept]
              by_contra moving
              obtain rfl := rest gate moving handler selected (shuts.mp closed)
              exact stop (selectHandler_eq_some selected)

theorem step_safe_iff {event : Event} (safe : Safe kernel) :
    Safe (kernel.step event) ↔ ClosesAtRest kernel event := by
  cases event with
  | request asked => exact request_safe_iff safe
  | drive sender behind =>
      refine iff_of_true (fun closed => ?_) trivial
      rw [drive_receivingCvels] at closed
      rw [drive_velocity, closed]
      rfl

/-- Every state of a run is safe exactly when no step of it closes the gate on a
moving robot other than by stopping everything. -/
theorem safe_run_iff (events : List Event) :
    Run.EachState KermitKernel.step Safe KermitKernel.create events ↔
      Run.EachStep KermitKernel.step ClosesAtRest KermitKernel.create events :=
  Run.eachState_iff_eachStep (fun _ _ safe => step_safe_iff safe) fun _ => rfl

/-- A robot told to stop driving keeps the velocity it was last sent. -/
theorem stopDriving_keeps_moving :
    ¬ Run.EachState KermitKernel.step Safe KermitKernel.create
        [.request { code := moveToMine, excess := startDriving },
          .drive ⟨{ createCmdVel with lin := 0x3f800000, ang := 0 }, .assign _ _ .create⟩
            (fun _ => 0),
          .request { code := moveToMine, excess := stopDriving }] := by
  intro stoppedAtRest
  obtain ⟨-, -, -, stopped⟩ := stoppedAtRest
  exact absurd (stopped (by decide)) (by decide)

end Safety

section Provenance

def setsVelocity : Event → Bool
  | .drive _ _ => true
  | .request asked => asked.code = Kernel.stopEverything

def setVelocity (kernel : KermitKernel) : Event → Word × Word
  | .drive sender _ =>
      if kernel.receivingCvels then (sender.val.lin, sender.val.ang) else (0, 0)
  | .request _ => (0, 0)

theorem setsVelocity_writes (kernel : KermitKernel) (event : Event)
    (sets : setsVelocity event = true) : (kernel.step event).velocity = setVelocity kernel event := by
  cases event with
  | drive sender behind => exact drive_velocity
  | request asked => rw [request_velocity, if_pos (of_decide_eq_true sets), setVelocity]

theorem setsVelocity_keeps (kernel : KermitKernel) (event : Event)
    (keeps : setsVelocity event = false) : (kernel.step event).velocity = kernel.velocity := by
  cases event with
  | drive sender behind => contradiction
  | request asked => rw [request_velocity, if_neg (of_decide_eq_false keeps)]

/-- The velocity after any run is what the last drive message or request to stop
everything left: the sender's pair bit for bit when it came through an open gate,
and zero otherwise. -/
theorem velocity_provenance (events : List Event) :
    (Run.final KermitKernel.step KermitKernel.create events).velocity =
      match Run.lastWhere setsVelocity events with
      | none => (0, 0)
      | some (before, last) =>
          setVelocity (Run.final KermitKernel.step KermitKernel.create before) last := by
  have tracked : (Run.final KermitKernel.step KermitKernel.create events).velocity = _ :=
    Run.view_final velocity setVelocity setsVelocity setsVelocity_writes setsVelocity_keeps
  rw [tracked]
  cases Run.lastWhere setsVelocity events <;> rfl

end Provenance

end Sentinet.Kernel
