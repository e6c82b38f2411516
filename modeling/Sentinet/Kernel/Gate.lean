import Sentinet.Kernel.Kermit

namespace Sentinet.Kernel

open Sentinet.Data Sentinet.Messages Sentinet.Control

/-! What a state request does to the drive gate. -/

structure StateRequest where
  code : UInt16
  excess : UInt64

namespace KermitKernel

variable {kernel : KermitKernel} {excess flag : UInt64} {receiving : Bool} {handler : StateHandler}
  {code : UInt16}

@[simp] theorem setOn_lin : (setOn excess flag receiving kernel).lin = kernel.lin := by
  unfold setOn
  split <;> rfl

@[simp] theorem setOn_ang : (setOn excess flag receiving kernel).ang = kernel.ang := by
  unfold setOn
  split <;> rfl

@[simp] theorem setOn_receivingCvels :
    (setOn excess flag receiving kernel).receivingCvels =
      if Carries excess flag then receiving else kernel.receivingCvels := by
  unfold setOn
  split <;> rfl

def StateHandler.requestCode : StateHandler → UInt16
  | .stopEverything => Kernel.stopEverything
  | .dump => Kernel.dump
  | .mine => Kernel.mine
  | .moveToDump => Kernel.moveToDump
  | .moveToMine => Kernel.moveToMine
  | .init => Kernel.initState
  | .cleanExit => Kernel.cleanExit

theorem selectHandler_code : selectHandler handler.requestCode = some handler := by
  cases handler <;> rfl

theorem selectHandler_eq_some (selected : selectHandler code = some handler) :
    code = handler.requestCode := by
  simp only [selectHandler] at selected
  split_ifs at selected <;> (cases selected; assumption)

theorem selectHandler_eq_none (unselected : selectHandler code = none) (handler : StateHandler) :
    code ≠ handler.requestCode := by
  intro same
  rw [same, selectHandler_code] at unselected
  contradiction

/-- A request with this excess opens a closed gate. -/
def Opens : StateHandler → UInt64 → Prop
  | .moveToDump, excess | .moveToMine, excess =>
      Carries excess startDriving ∧ ¬ Carries excess stopDriving ∧ ¬ Carries excess exitingState
  | .cleanExit, excess => Carries excess retractAll ∧ ¬ Carries excess sysOff
  | .stopEverything, _ | .dump, _ | .mine, _ | .init, _ => False

def Closes : StateHandler → UInt64 → Prop
  | .stopEverything, _ => True
  | .dump, excess =>
      Carries excess enteringState ∨ Carries excess startDumping ∨ Carries excess cleanEndDumping ∨
        Carries excess abortDumping ∨ Carries excess exitingState
  | .mine, excess =>
      Carries excess enteringState ∨ Carries excess startMining ∨ Carries excess cleanEndMining ∨
        Carries excess abortMining ∨ Carries excess exitingState
  | .moveToDump, excess | .moveToMine, excess =>
      Carries excess stopDriving ∨ Carries excess exitingState ∨
        (Carries excess enteringState ∧ ¬ Carries excess startDriving)
  | .init, excess =>
      Carries excess enteringState ∨ Carries excess sysOn ∨ Carries excess zeroAll ∨
        Carries excess deployCamera
  | .cleanExit, excess =>
      Carries excess sysOff ∨ (Carries excess enteringState ∧ ¬ Carries excess retractAll)

/-- The gate after a handler: its tests run in order and the last one that
fires decides. -/
theorem runHandler_receivingCvels (kernel : KermitKernel) (excess : UInt64)
    (handler : StateHandler) :
    (kernel.runHandler excess handler).receivingCvels = true ↔
      Opens handler excess ∨ (kernel.receivingCvels = true ∧ ¬ Closes handler excess) := by
  cases handler with
  | stopEverything => simp [runHandler, stopEverythingHandler, updateTeensyMessage, Opens, Closes]
  | dump => simp [runHandler, dumpHandler, Opens, Closes]; tauto
  | mine => simp [runHandler, mineHandler, Opens, Closes]; tauto
  | moveToDump => simp [runHandler, moveToDumpHandler, Opens, Closes]; tauto
  | moveToMine => simp [runHandler, moveToMineHandler, Opens, Closes]; tauto
  | init => simp [runHandler, initHandler, Opens, Closes]; tauto
  | cleanExit => simp [runHandler, cleanExitHandler, Opens, Closes]; tauto

theorem runHandler_velocity (kernel : KermitKernel) (excess : UInt64) (handler : StateHandler) :
    (kernel.runHandler excess handler).lin =
        (if handler = .stopEverything then 0 else kernel.lin) ∧
      (kernel.runHandler excess handler).ang =
        (if handler = .stopEverything then 0 else kernel.ang) := by
  cases handler <;>
    simp [runHandler, stopEverythingHandler, updateTeensyMessage, dumpHandler, mineHandler,
      moveToDumpHandler, moveToMineHandler, initHandler, cleanExitHandler]

def request (kernel : KermitKernel) (request : StateRequest) : KermitKernel :=
  (robotPingHandler { type := PingType.stateRequest, code := request.code, excess := request.excess }
    kernel).2

variable {asked : StateRequest}

theorem request_unselected (unselected : selectHandler asked.code = none) :
    kernel.request asked = kernel := by
  simp only [request, robotPingHandler, unselected]

theorem not_closes_of_opens (opens : Opens handler excess) : ¬ Closes handler excess := by
  cases handler with
  | moveToDump | moveToMine | cleanExit =>
      simp only [Opens, Closes] at opens ⊢
      tauto
  | stopEverything | dump | mine | init => exact opens.elim

theorem request_selected (selected : selectHandler asked.code = some handler) :
    kernel.request asked = kernel.runHandler asked.excess handler := by
  simp only [request, robotPingHandler, selected]

/-- A handler shuts an open gate exactly when its flags close it. -/
theorem request_shuts_iff (selected : selectHandler asked.code = some handler)
    (opened : kernel.receivingCvels = true) :
    (kernel.request asked).receivingCvels = false ↔ Closes handler asked.excess := by
  have gate := runHandler_receivingCvels kernel asked.excess handler
  have exclusive : Opens handler asked.excess → ¬ Closes handler asked.excess := not_closes_of_opens
  rw [← request_selected selected] at gate
  rw [← Bool.not_eq_true, gate]
  tauto

end KermitKernel

end Sentinet.Kernel
