import Sentinet.Kernel.Gate

namespace Sentinet.Kernel

open Sentinet.Data Sentinet.Messages Sentinet.Control KermitKernel

/-! The rules that state requests are meant to follow. -/

section DriveGate

/-- A request to start driving that carries no flag against it. -/
def StateRequest.StartsDriving (asked : StateRequest) : Prop :=
  (asked.code = moveToMine ∨ asked.code = moveToDump) ∧ Carries asked.excess startDriving ∧
    ¬ Carries asked.excess stopDriving ∧ ¬ Carries asked.excess exitingState

/-- A request that carries a stopping flag of its own state. -/
def StateRequest.CarriesStop (asked : StateRequest) : Prop :=
  ((asked.code = moveToMine ∨ asked.code = moveToDump) ∧
      (Carries asked.excess stopDriving ∨ Carries asked.excess exitingState)) ∨
    (asked.code = Kernel.dump ∧ (Carries asked.excess abortDumping ∨
      Carries asked.excess cleanEndDumping ∨ Carries asked.excess exitingState)) ∨
    (asked.code = Kernel.mine ∧ (Carries asked.excess abortMining ∨
      Carries asked.excess cleanEndMining ∨ Carries asked.excess exitingState)) ∨
    (asked.code = Kernel.cleanExit ∧
      (Carries asked.excess stopAll ∨ Carries asked.excess sysOff))

/-- Only a request to start driving opens the gate, and a stopping flag closes it. -/
structure GateRule (kernel : KermitKernel) (asked : StateRequest) : Prop where
  opens : kernel.receivingCvels = false → (kernel.request asked).receivingCvels = true →
    asked.StartsDriving
  closes : asked.CarriesStop → (kernel.request asked).receivingCvels = false

/-- A clean exit that leaves the gate as the rule wants it: `SYS_OFF` closes it
last; without it, `RETRACT_ALL` opens the gate and `STOP_ALL` does nothing. -/
def CleanExitCovered (kernel : KermitKernel) (asked : StateRequest) : Prop :=
  asked.code = Kernel.cleanExit → Carries asked.excess sysOff ∨
    if Carries asked.excess retractAll then
      kernel.receivingCvels = true ∧ ¬ Carries asked.excess stopAll
    else
      Carries asked.excess stopAll →
        Carries asked.excess enteringState ∨ kernel.receivingCvels = false

variable {kernel : KermitKernel} {asked : StateRequest} {requests : List StateRequest}

theorem gateRule_unselected (unselected : selectHandler asked.code = none) :
    GateRule kernel asked := by
  have other := selectHandler_eq_none unselected
  constructor
  · intro closed opened
    rw [request_unselected unselected, closed] at opened
    contradiction
  · intro stop
    rcases stop with ⟨mine | dump, _⟩ | ⟨dump, _⟩ | ⟨mine, _⟩ | ⟨exit, _⟩
    · exact absurd mine (other .moveToMine)
    · exact absurd dump (other .moveToDump)
    · exact absurd dump (other .dump)
    · exact absurd mine (other .mine)
    · exact absurd exit (other .cleanExit)

theorem gateRule_selected {handler : StateHandler}
    (selected : selectHandler asked.code = some handler) :
    GateRule kernel asked ↔
      (¬ kernel.receivingCvels = true → Opens handler asked.excess → asked.StartsDriving) ∧
        (asked.CarriesStop → ¬ Opens handler asked.excess ∧
          (kernel.receivingCvels = true → Closes handler asked.excess)) := by
  have gate := runHandler_receivingCvels kernel asked.excess handler
  rw [← request_selected selected] at gate
  constructor
  · intro rule
    obtain ⟨opens, closes⟩ := rule
    simp only [← Bool.not_eq_true] at opens closes
    tauto
  · intro rule
    obtain ⟨opens, closes⟩ := rule
    constructor <;> simp only [← Bool.not_eq_true] <;> tauto

theorem gateRule_iff_cleanExitCovered :
    GateRule kernel asked ↔ CleanExitCovered kernel asked := by
  cases selected : selectHandler asked.code with
  | none =>
      have uncovered : asked.code ≠ Kernel.cleanExit := selectHandler_eq_none selected .cleanExit
      exact ⟨fun _ exit => absurd exit uncovered, fun _ => gateRule_unselected selected⟩
  | some handler =>
      have code := selectHandler_eq_some selected
      rw [gateRule_selected selected]
      -- in source order the last test that fires decides; only `CLEAN_EXIT` departs from the rule
      cases handler <;>
        simp only [StateRequest.StartsDriving, StateRequest.CarriesStop, CleanExitCovered, code,
          StateHandler.requestCode, Opens, Closes, Kernel.stopEverything, Kernel.dump, Kernel.mine,
          moveToDump, moveToMine, initState, Kernel.cleanExit] <;>
        grind

/-- Along a run of state requests the rule holds in every step exactly when
every clean exit is a covered one. -/
theorem gateRule_eachStep_iff :
    Run.EachStep KermitKernel.request GateRule kernel requests ↔
      Run.EachStep KermitKernel.request CleanExitCovered kernel requests :=
  Run.eachStep_congr (fun _ => True) (fun _ _ _ => trivial)
    (fun _ _ _ => gateRule_iff_cleanExitCovered) trivial

/-- A clean exit opens the gate of a new kernel, and one with `STOP_ALL` leaves
the gate of a driving kernel open. -/
theorem cleanExit_breaks_gateRule :
    ¬ Run.EachStep KermitKernel.request GateRule KermitKernel.create
        [{ code := Kernel.cleanExit, excess := retractAll }] ∧
      ¬ Run.EachStep KermitKernel.request GateRule KermitKernel.create
        [{ code := moveToMine, excess := startDriving },
          { code := Kernel.cleanExit, excess := stopAll }] := by
  constructor
  · intro both
    obtain ⟨rule, -⟩ := both
    exact absurd (rule.opens rfl (by decide)).1 (by decide)
  · intro covered
    obtain ⟨-, rule, -⟩ := covered
    have stops : StateRequest.CarriesStop { code := Kernel.cleanExit, excess := stopAll } :=
      .inr (.inr (.inr ⟨rfl, .inl (by decide)⟩))
    exact absurd (rule.closes stops) (by decide)

end DriveGate

section Acknowledgement

inductive RmtState where
  | stopEverything | dump | mine | moveToDump | moveToMine | initState | cleanExit | microMovement
deriving DecidableEq

namespace RmtState

def bit : RmtState → UInt16
  | .stopEverything => Kernel.stopEverything
  | .dump => Kernel.dump
  | .mine => Kernel.mine
  | .moveToDump => Kernel.moveToDump
  | .moveToMine => Kernel.moveToMine
  | .initState => Kernel.initState
  | .cleanExit => Kernel.cleanExit
  | .microMovement => Kernel.microMovement

/-- The handler written for a state; `MICRO_MOVEMENT` has none. -/
def handler : RmtState → Option StateHandler
  | .stopEverything => some .stopEverything
  | .dump => some .dump
  | .mine => some .mine
  | .moveToDump => some .moveToDump
  | .moveToMine => some .moveToMine
  | .initState => some .init
  | .cleanExit => some .cleanExit
  | .microMovement => none

end RmtState

def stateCode (states : List RmtState) : UInt16 :=
  states.foldr (fun state code => state.bit ||| code) 0

/-- The callback called this handler with the excess of the message, and the kernel
after it is what the handler makes of the kernel before. -/
structure Ran (kernel : KermitKernel) (p : Ping) (handler : StateHandler) : Prop where
  called : selectHandler p.code = some handler
  result : (robotPingHandler p kernel).2 = kernel.runHandler p.excess handler
  gate : (robotPingHandler p kernel).2.receivingCvels = true ↔
    Opens handler p.excess ∨ (kernel.receivingCvels = true ∧ ¬ Closes handler p.excess)
  lin : (robotPingHandler p kernel).2.lin =
    if handler = .stopEverything then 0 else kernel.lin
  ang : (robotPingHandler p kernel).2.ang =
    if handler = .stopEverything then 0 else kernel.ang

structure Applied (kernel : KermitKernel) (p : Ping) : Prop where
  ran : ∀ state : RmtState, p.code &&& state.bit ≠ 0 →
    ∃ handler, state.handler = some handler ∧ Ran kernel p handler
  stopped : p.code &&& Kernel.stopEverything ≠ 0 →
    (robotPingHandler p kernel).2.receivingCvels = false ∧
      (robotPingHandler p kernel).2.lin = 0 ∧ (robotPingHandler p kernel).2.ang = 0

variable {kernel : KermitKernel} {excess : UInt64} {states : List RmtState}

theorem stateCode_bit {state : RmtState} (member : state ∈ states) :
    stateCode states &&& state.bit ≠ 0 := by
  induction states with
  | nil => contradiction
  | cons first rest ih =>
      have split : stateCode (first :: rest) &&& state.bit =
          (first.bit &&& state.bit) ||| (stateCode rest &&& state.bit) :=
        UInt16.toBitVec_inj.mp BitVec.and_or_distrib_right
      rw [split, ne_eq, UInt16.or_eq_zero_iff]
      intro inEither
      obtain ⟨inFirst, inRest⟩ := inEither
      rcases List.mem_cons.mp member with rfl | later
      · cases state <;> contradiction
      · exact ih later inRest

theorem selectHandler_bit (state : RmtState) : selectHandler state.bit = state.handler := by
  cases state <;> rfl

theorem handler_state (handler : StateHandler) :
    ∃ state : RmtState, state ≠ .microMovement ∧ state.bit = handler.requestCode := by
  cases handler with
  | stopEverything => exact ⟨.stopEverything, by decide, rfl⟩
  | dump => exact ⟨.dump, by decide, rfl⟩
  | mine => exact ⟨.mine, by decide, rfl⟩
  | moveToDump => exact ⟨.moveToDump, by decide, rfl⟩
  | moveToMine => exact ⟨.moveToMine, by decide, rfl⟩
  | init => exact ⟨.initState, by decide, rfl⟩
  | cleanExit => exact ⟨.cleanExit, by decide, rfl⟩

theorem requestCode_bit {handler : StateHandler} (state : RmtState)
    (asked : handler.requestCode &&& state.bit ≠ 0) : state.handler = some handler := by
  revert asked
  cases handler <;> cases state <;> decide

theorem ran_of_selected {p : Ping} {handler : StateHandler}
    (selected : selectHandler p.code = some handler) : Ran kernel p handler := by
  have result : (robotPingHandler p kernel).2 = kernel.runHandler p.excess handler := by
    simp only [robotPingHandler, selected]
  obtain ⟨lin, ang⟩ := runHandler_velocity kernel p.excess handler
  have gate := runHandler_receivingCvels kernel p.excess handler
  rw [← result] at gate lin ang
  exact ⟨selected, result, gate, lin, ang⟩

/-- A handler of `STOP_EVERYTHING` that ran leaves the robot stopped. -/
theorem Ran.stopped {p : Ping} (ran : Ran kernel p .stopEverything) :
    (robotPingHandler p kernel).2.receivingCvels = false ∧
      (robotPingHandler p kernel).2.lin = 0 ∧ (robotPingHandler p kernel).2.ang = 0 := by
  refine ⟨?_, ran.lin, ran.ang⟩
  rw [← Bool.not_eq_true, ran.gate]
  simp [Opens, Closes]

theorem applied_of_selected {p : Ping} {handler : StateHandler}
    (selected : selectHandler p.code = some handler) : Applied kernel p := by
  have code := selectHandler_eq_some selected
  constructor
  · intro state asked
    rw [code] at asked
    exact ⟨handler, requestCode_bit state asked, ran_of_selected selected⟩
  · intro asked
    rw [code] at asked
    have stop : some StateHandler.stopEverything = some handler :=
      requestCode_bit .stopEverything asked
    obtain rfl := Option.some.inj stop
    exact (ran_of_selected selected).stopped

/-- Every request is acknowledged, and it was applied exactly when its code asks
for nothing or for one state that has a handler. -/
theorem acknowledged_applied_iff :
    ((robotPingHandler { type := PingType.stateRequest, code := stateCode states, excess } kernel).1.type =
          PingType.ack →
        Applied kernel { type := PingType.stateRequest, code := stateCode states, excess }) ↔
      stateCode states = 0 ∨
        ∃ state : RmtState, state ≠ .microMovement ∧ stateCode states = state.bit := by
  cases selected : selectHandler (stateCode states) with
  | none =>
      constructor
      · intro acknowledged
        have applied := acknowledged (by simp only [robotPingHandler, selected])
        cases states with
        | nil => exact Or.inl rfl
        | cons first rest =>
            obtain ⟨handler, _, ran⟩ := applied.ran first (stateCode_bit List.mem_cons_self)
            have called := ran.called
            rw [selected] at called
            contradiction
      · intro covered _
        rcases covered with nothing | ⟨state, handled, single⟩
        · rw [nothing]
          exact ⟨fun _ asked => absurd UInt16.zero_and asked, absurd UInt16.zero_and⟩
        · rw [single, selectHandler_bit] at selected
          cases state <;> contradiction
  | some handler =>
      obtain ⟨state, handled, bit⟩ := handler_state handler
      have code := selectHandler_eq_some selected
      exact ⟨fun _ => Or.inr ⟨state, handled, code.trans bit.symm⟩,
        fun _ _ => applied_of_selected selected⟩

/-- A stop request OR-ed with another state is acknowledged and dropped. -/
theorem stop_with_dump_dropped :
    ¬ ((robotPingHandler
            { type := PingType.stateRequest, code := stateCode [.stopEverything, .dump], excess := 0 }
            (KermitKernel.create.request { code := moveToMine, excess := startDriving })).1.type =
          PingType.ack →
        Applied (KermitKernel.create.request { code := moveToMine, excess := startDriving })
          { type := PingType.stateRequest, code := stateCode [.stopEverything, .dump], excess := 0 }) := by
  intro acknowledged
  have stopped := (acknowledged rfl).stopped (by decide)
  exact absurd stopped.1 (by decide)

end Acknowledgement

end Sentinet.Kernel
