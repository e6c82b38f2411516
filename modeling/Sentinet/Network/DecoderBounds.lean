import Sentinet.Control.PingServer
import Sentinet.Filters.SimpleLocalizer
import Sentinet.Kernel.Kermit

namespace Sentinet.Network

open Sentinet.Data Sentinet.Messages Sentinet.Control Sentinet.Kernel Sentinet.Filters

/-! The three places where a message from the network is decoded, and the bytes
they ask for.  None is told how long the message is. -/

section Convert

variable {localizer : SimpleLocalizer} {memory other : Memory}

/-- The reads of the fields, once the tag is known. -/
def fieldReads (localizer : SimpleLocalizer) (ret : Int) : Reading Unit :=
  if ret = teensyMsg.toNat then do
    let _ ← teensySensorArrayFromWire localizer.sensor.val
    return ()
  else if ret = cameraMessage.toNat then do
    let _ ← cameraMsgFromWire localizer.camera.val
    return ()
  else return ()

/-- The reads of `convert`. -/
def convertReads (localizer : SimpleLocalizer) : Reading Unit := do
  let tagged ← sensorMsgFromWire createSensorMsg
  fieldReads localizer tagged.1

theorem update_congr {ret : Int}
    (agree : ∀ position ∈ (fieldReads localizer ret).touched memory,
      memory position = other position) :
    localizer.update ret memory = localizer.update ret other := by
  unfold fieldReads at agree
  unfold SimpleLocalizer.update
  split at agree
  next teensy =>
    have same : (teensySensorArrayFromWire localizer.sensor.val).run memory =
        (teensySensorArrayFromWire localizer.sensor.val).run other :=
      (Reading.run_congr fun position member => agree position (by simp [member])).1
    rw [if_pos teensy, if_pos teensy]
    simp only [same]
  next noTeensy =>
    rw [if_neg noTeensy, if_neg noTeensy]
    split at agree
    next camera =>
      have same : (cameraMsgFromWire localizer.camera.val).run memory =
          (cameraMsgFromWire localizer.camera.val).run other :=
        (Reading.run_congr fun position member => agree position (by simp [member])).1
      rw [if_pos camera, if_pos camera]
      simp only [same]
    next noCamera => rw [if_neg noCamera, if_neg noCamera]

/-- What `convert` does depends on nothing else. -/
theorem convert_congr {message : List UInt8} {behind other : Memory}
    (agree : ∀ position ∈ (convertReads localizer).touched (Memory.ofString message behind),
      Memory.ofString message behind position = Memory.ofString message other position) :
    localizer.convert message behind = localizer.convert message other := by
  simp only [convertReads, Reading.touched_bind, List.mem_append, or_imp, forall_and] at agree
  obtain ⟨tagAgrees, fieldsAgree⟩ := agree
  have tag := (Reading.run_congr tagAgrees).1
  have updated := update_congr fieldsAgree
  unfold SimpleLocalizer.convert
  simp only [← tag, updated]

/-- Every tag but two ends the decoding behind the tag. -/
theorem convertReads_staysBelow {bound : Nat} :
    (convertReads localizer).StaysBelow bound memory ↔
      19 ≤ bound ∧
        (memory.load32 15 = teensyMsg ∨ memory.load32 15 = cameraMessage → 40 ≤ bound) := by
  have distinct : (cameraMessage.toNat : Int) ≠ teensyMsg.toNat := by decide
  have absent : (-1 : Int) ≠ teensyMsg.toNat ∧ (-1 : Int) ≠ cameraMessage.toNat := by decide
  rw [convertReads, Reading.staysBelow_bind, sensorMsgFromWire_staysBelow, sensorMsgFromWire_run,
    fieldReads]
  by_cases camera : memory.load32 15 = cameraMessage
  · rw [if_pos camera, if_neg distinct, if_pos rfl, Reading.staysBelow_bind,
      cameraMsgFromWire_staysBelow localizer.camera.property]
    simp only [Reading.staysBelow_pure, camera, or_true, true_implies, and_true, and_self_left]
  · by_cases teensy : memory.load32 15 = teensyMsg
    · rw [if_neg camera, if_pos teensy, if_pos rfl, Reading.staysBelow_bind,
        teensySensorArrayFromWire_staysBelow localizer.sensor.property]
      simp only [Reading.staysBelow_pure, teensy, true_or, true_implies, and_true, and_self_left]
    · rw [if_neg camera, if_neg teensy, if_neg absent.1, if_neg absent.2]
      simp only [Reading.staysBelow_pure, camera, teensy, or_self, false_implies]

end Convert

/-- A decoder asks for bytes of the message only, and what comes out of it does
not depend on the memory behind. -/
structure StaysInside {α ρ : Type} (reading : Reading α) (result : Memory → ρ)
    (message : List UInt8) : Prop where
  reads : ∀ behind, reading.StaysBelow message.length (Memory.ofString message behind)
  result : ∀ behind other, result behind = result other

/-- `drive_message_subscribe_callback`, for the velocity. -/
def DriveStaysInside (kernel : KermitKernel) (message : List UInt8) : Prop :=
  StaysInside (cmdVelFromWire kernel.cvelBuffer)
    (fun behind => ((kernel.driveMessageSubscribeCallback message behind).lin,
      (kernel.driveMessageSubscribeCallback message behind).ang)) message

/-- `convert`, for the position estimate. -/
def ConvertStaysInside (localizer : SimpleLocalizer) (message : List UInt8) : Prop :=
  StaysInside (convertReads localizer)
    (fun behind => (localizer.convert message behind).localizer.state) message

/-- `ping_server_callback`, for the input of the handlers. -/
def PingStaysInside {σ : Type} (client : RmtControlClient σ) (message : List UInt8) : Prop :=
  StaysInside (readPing client.buffers.incomming)
    (fun behind => decodedPing client.buffers.incomming message behind) message

section Bounds

variable {kernel : KermitKernel} {localizer : SimpleLocalizer} {message : List UInt8}
  {behind other : Memory}

theorem ofString_agree {position : Nat} (inside : position < message.length) :
    Memory.ofString message behind position = Memory.ofString message other position := by
  rw [Memory.ofString_inside inside, Memory.ofString_inside inside]

theorem run_ofString {α : Type} {reading : Reading α}
    (stays : reading.StaysBelow message.length (Memory.ofString message behind)) (other : Memory) :
    reading.run (Memory.ofString message behind) = reading.run (Memory.ofString message other) :=
  Reading.run_congr_below stays fun _ inside => ofString_agree inside

theorem driveStaysInside_iff : DriveStaysInside kernel message ↔ 26 ≤ message.length := by
  constructor
  · intro stays
    exact (cmdVelFromWire_staysBelow kernel.created).mp (stays.reads fun _ => 0)
  · intro long
    have stays (behind : Memory) : (cmdVelFromWire kernel.cvelBuffer).StaysBelow message.length
        (Memory.ofString message behind) := (cmdVelFromWire_staysBelow kernel.created).mpr long
    refine ⟨stays, ?_⟩
    intro behind other
    simp only [KermitKernel.driveMessageSubscribeCallback, run_ofString (stays behind) other]

/-- The tag of a sensor message that is long enough to hold one. -/
def messageTag (message : List UInt8) : Word :=
  UInt32.ofNat (LittleEndian.decode ((message.drop 15).take 4))

theorem messageTag_eq (long : 19 ≤ message.length) :
    (Memory.ofString message behind).load32 15 = messageTag message := by
  rw [Memory.load32, Memory.load_ofString (by omega), messageTag]

theorem convertStaysInside_iff :
    ConvertStaysInside localizer message ↔ 19 ≤ message.length ∧
      (messageTag message = teensyMsg ∨ messageTag message = cameraMessage →
        40 ≤ message.length) := by
  constructor
  · intro stays
    obtain ⟨tagged, fields⟩ := convertReads_staysBelow.mp (stays.reads fun _ => 0)
    rw [messageTag_eq tagged] at fields
    exact ⟨tagged, fields⟩
  · intro long
    have stays (behind : Memory) : (convertReads localizer).StaysBelow message.length
        (Memory.ofString message behind) := by
      rw [convertReads_staysBelow, messageTag_eq long.1]
      exact long
    refine ⟨stays, ?_⟩
    intro behind other
    rw [convert_congr fun position member => ofString_agree (stays behind position member)]

theorem pingStaysInside_iff {σ : Type} {client : RmtControlClient σ} :
    PingStaysInside client message ↔ 1 ≤ message.length ∧
      (message.getD protoPosPing 0 = 1 → pingMessageSize ≤ message.length) := by
  constructor
  · intro stays
    obtain ⟨first, rest⟩ := readPing_staysBelow.mp (stays.reads fun _ => 0)
    rw [ofString_getD first] at rest
    exact ⟨first, rest⟩
  · intro long
    have stays (behind : Memory) : (readPing client.buffers.incomming).StaysBelow message.length
        (Memory.ofString message behind) := by
      rw [readPing_staysBelow, ofString_getD long.1]
      exact long
    refine ⟨stays, ?_⟩
    intro behind other
    exact congrArg receivedPing (run_ofString (stays behind) other)

end Bounds

/-- How long a message has to be for each decoder to stay inside it. -/
theorem decoders_stayInside_iff {σ : Type} (kernel : KermitKernel) (localizer : SimpleLocalizer)
    (client : RmtControlClient σ) (message : List UInt8) :
    (DriveStaysInside kernel message ↔ 26 ≤ message.length) ∧
      (ConvertStaysInside localizer message ↔ 19 ≤ message.length ∧
        (messageTag message = teensyMsg ∨ messageTag message = cameraMessage →
          40 ≤ message.length)) ∧
      (PingStaysInside client message ↔ 1 ≤ message.length ∧
        (message.getD protoPosPing 0 = 1 → pingMessageSize ≤ message.length)) :=
  ⟨driveStaysInside_iff, convertStaysInside_iff, pingStaysInside_iff⟩

def receivingKernel : KermitKernel := { KermitKernel.create with receivingCvels := true }

/-- A state request as a peer puts it on the wire. -/
def statePing : List UInt8 :=
  wireString createBufferPing { type := PingType.stateRequest, code := 8, excess := 2 }

/-- An empty drive message sets a velocity, and eleven bytes of a ping give the
handler a ping, from bytes that nobody sent. -/
theorem unsent_bytes_decoded :
    (receivingKernel.driveMessageSubscribeCallback [] fun _ => 0).lin ≠
        (receivingKernel.driveMessageSubscribeCallback [] fun _ => 1).lin ∧
      (decodedPing createBufferPing statePing fun _ => 0) ≠
        (decodedPing createBufferPing statePing fun _ => 1) ∧
      ¬ DriveStaysInside receivingKernel [] ∧
      ¬ ConvertStaysInside SimpleLocalizer.create [] ∧
      ¬ PingStaysInside (createRmtControlClient : RmtControlClient Unit) statePing := by
  have drive : (receivingKernel.driveMessageSubscribeCallback [] fun _ => 0).lin ≠
      (receivingKernel.driveMessageSubscribeCallback [] fun _ => 1).lin := by decide
  have handler : (decodedPing createBufferPing statePing fun _ => 0) ≠
      (decodedPing createBufferPing statePing fun _ => 1) := by decide
  refine ⟨drive, handler, ?_, ?_, ?_⟩
  · intro stays
    exact drive (congrArg Prod.fst (stays.result (fun _ => 0) fun _ => 1))
  · intro stays
    exact absurd (convertStaysInside_iff.mp stays).1 (by decide)
  · intro stays
    exact handler (stays.result (fun _ => 0) fun _ => 1)

end Sentinet.Network
