import Sentinet.Data.Run
import Sentinet.Messages.RmtCodec
import Sentinet.Control.RmtControlClient

namespace Sentinet.Kernel

open Sentinet.Data Sentinet.Messages Sentinet.Control

/-! `KermitKernel`: the gate for drive messages, the velocity that the sender
thread keeps sending, and the callbacks that change them. -/

/-! States, as the `code` of a state request. -/

def stopEverything : UInt16 := 1
def dump : UInt16 := 2
def mine : UInt16 := 4
def moveToDump : UInt16 := 8
def moveToMine : UInt16 := 16
def initState : UInt16 := 32
def cleanExit : UInt16 := 64
def microMovement : UInt16 := 128

/-! Flags, as bits of its `excess`; the states give the same bits different meanings. -/

def enteringState : UInt64 := 1
def exitingState : UInt64 := 16

def startDumping : UInt64 := 2
def cleanEndDumping : UInt64 := 4
def abortDumping : UInt64 := 8

def startMining : UInt64 := 2
def abortMining : UInt64 := 4
def cleanEndMining : UInt64 := 8

def startDriving : UInt64 := 2
def stopDriving : UInt64 := 4

def sysOn : UInt64 := 2
def zeroAll : UInt64 := 4
def deployCamera : UInt64 := 8

def stopAll : UInt64 := 2
def retractAll : UInt64 := 4
def sysOff : UInt64 := 8

/-- `excess & flag`, as a test -/
def Carries (excess flag : UInt64) : Prop := excess &&& flag ≠ 0

instance (excess flag : UInt64) : Decidable (Carries excess flag) :=
  inferInstanceAs (Decidable (_ ≠ _))

/-- The fields of `KermitKernel` and its base that the callbacks touch.  The
message that received velocities are decoded into is always a created one. -/
structure KermitKernel where
  receivingCvels : Bool
  lin : Word
  ang : Word
  cvelBuffer : CmdVel
  created : cvelBuffer.Created

namespace KermitKernel

def updateTeensyMessage (kernel : KermitKernel) (lin ang : Word) : KermitKernel :=
  { kernel with lin, ang }

/-- `update_teensy_message(0.0, 0.0)` leaves nothing of the velocity that the
memory held before. -/
def create : KermitKernel :=
  { receivingCvels := false, lin := 0, ang := 0, cvelBuffer := createCmdVel, created := .create }

def driveMessageSubscribeCallback (kernel : KermitKernel) (message : List UInt8)
    (behind : Memory) : KermitKernel :=
  let kernel :=
    { kernel with
      cvelBuffer := (cmdVelFromWire kernel.cvelBuffer).run (Memory.ofString message behind)
      created := cmdVelFromWire_created kernel.created }
  let linear := kernel.cvelBuffer.lin
  let angular := kernel.cvelBuffer.ang
  if !kernel.receivingCvels then kernel.updateTeensyMessage 0 0
  else kernel.updateTeensyMessage linear angular

/-- `if (excess & flag) receiving_cvels = receiving;` -/
def setOn (excess flag : UInt64) (receiving : Bool) (kernel : KermitKernel) : KermitKernel :=
  if Carries excess flag then { kernel with receivingCvels := receiving } else kernel

def stopEverythingHandler (kernel : KermitKernel) (_excess : UInt64) : KermitKernel :=
  let kernel := { kernel with receivingCvels := false }
  kernel.updateTeensyMessage 0 0

def dumpHandler (kernel : KermitKernel) (excess : UInt64) : KermitKernel :=
  kernel
    |> setOn excess enteringState false
    |> setOn excess startDumping false
    |> setOn excess cleanEndDumping false
    |> setOn excess abortDumping false
    |> setOn excess exitingState false

def mineHandler (kernel : KermitKernel) (excess : UInt64) : KermitKernel :=
  kernel
    |> setOn excess enteringState false
    |> setOn excess startMining false
    |> setOn excess cleanEndMining false
    |> setOn excess abortMining false
    |> setOn excess exitingState false

def moveToMineHandler (kernel : KermitKernel) (excess : UInt64) : KermitKernel :=
  kernel
    |> setOn excess enteringState false
    |> setOn excess startDriving true
    |> setOn excess stopDriving false
    |> setOn excess exitingState false

def moveToDumpHandler (kernel : KermitKernel) (excess : UInt64) : KermitKernel :=
  kernel
    |> setOn excess enteringState false
    |> setOn excess startDriving true
    |> setOn excess stopDriving false
    |> setOn excess exitingState false

def initHandler (kernel : KermitKernel) (excess : UInt64) : KermitKernel :=
  kernel
    |> setOn excess enteringState false
    |> setOn excess sysOn false
    |> setOn excess zeroAll false
    |> setOn excess deployCamera false

/-- `STOP_ALL` is not tested. -/
def cleanExitHandler (kernel : KermitKernel) (excess : UInt64) : KermitKernel :=
  kernel
    |> setOn excess enteringState false
    |> setOn excess retractAll true
    |> setOn excess sysOff false

inductive StateHandler where
  | stopEverything | dump | mine | moveToDump | moveToMine | init | cleanExit
deriving DecidableEq, Repr

/-- The `switch` of `robot_ping_handler`; `none` is a code without a case. -/
def selectHandler (code : UInt16) : Option StateHandler :=
  if code = Kernel.stopEverything then some .stopEverything
  else if code = Kernel.dump then some .dump
  else if code = Kernel.mine then some .mine
  else if code = Kernel.moveToDump then some .moveToDump
  else if code = Kernel.moveToMine then some .moveToMine
  else if code = Kernel.initState then some .init
  else if code = Kernel.cleanExit then some .cleanExit
  else none

def runHandler (kernel : KermitKernel) (excess : UInt64) : StateHandler → KermitKernel
  | .stopEverything => kernel.stopEverythingHandler excess
  | .dump => kernel.dumpHandler excess
  | .mine => kernel.mineHandler excess
  | .moveToDump => kernel.moveToDumpHandler excess
  | .moveToMine => kernel.moveToMineHandler excess
  | .init => kernel.initHandler excess
  | .cleanExit => kernel.cleanExitHandler excess

/-- The callback registered for `STATE_REQUEST`. -/
def robotPingHandler : PingCallback KermitKernel := fun p kernel =>
  let ret := { type := PingType.ack, code := 0, excess := 0 }
  match selectHandler p.code with
  | some handler => (ret, kernel.runHandler p.excess handler)
  | none => (ret, kernel)

end KermitKernel

end Sentinet.Kernel
