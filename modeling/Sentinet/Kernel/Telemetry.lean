import Sentinet.Data.SharedRecord
import Sentinet.Kernel.MotorFeedback
import Sentinet.Messages.RmtCodec

namespace Sentinet.Kernel

open Sentinet.Data Sentinet.Messages

/-! What the motors measured on its way to the localizer.  The sender thread writes it
through the pointers of `read_teensy_response`, without `guard`; the publisher thread
takes `guard` to load it, which keeps nobody out. -/

inductive MeasuredField where
  | velocity | omega | wErr | dt
deriving DecidableEq, Repr

def MeasuredValues.field (values : MeasuredValues) : MeasuredField → Word
  | .velocity => values.velocity
  | .omega => values.omega
  | .wErr => values.wErr
  | .dt => values.dt

def measuredValues (field : MeasuredField → Word) : MeasuredValues :=
  { velocity := field .velocity, omega := field .omega, wErr := field .wErr, dt := field .dt }

/-- The order of the stores at the end of `read_teensy_response`, and of the loads in
`get_teensy_measured_vals`. -/
def measuredOrder : List MeasuredField := [.velocity, .omega, .wErr, .dt]

instance (device : TeensyDevice) : Decidable device.Updates := inferInstanceAs (Decidable (_ ∧ _))

/-- One message of the publisher, and what its loads can have met. -/
structure PublishedTelemetry where
  message : List UInt8
  window : List (MeasuredField → Word)

structure Telemetry where
  dev : TeensyDevice
  measured : SharedRecord MeasuredField Word
  teensyBuffer : { msg : TeensySensorArray // msg.Created }
  published : List PublishedTelemetry

inductive TelemetryEvent where
  | sendDrive (lin ang : Word)
  | readTeensyResponse
  | store
  | getTeensyMeasuredVals
  | load
  | publish

namespace Telemetry

/-- The variables hold whatever was in the memory of the object. -/
def create (dev : TeensyDevice) (initial : MeasuredField → Word) : Telemetry :=
  { dev, measured := .start initial, teensyBuffer := ⟨createTeensySensorArray, .create⟩
    published := [] }

/-- The sender thread's device and variables. -/
def teensy (telemetry : Telemetry) : Teensy :=
  { dev := telemetry.dev, values := measuredValues telemetry.measured.memory }

/-- A response is taken over by four stores; the thread makes them before it goes on. -/
def readTeensyResponse (telemetry : Telemetry) : Telemetry :=
  match telemetry.measured.writing with
  | some _ => telemetry
  | none =>
      let after := LinkCall.readTeensyResponse.apply telemetry.teensy
      { telemetry with
        dev := after.dev
        measured := if telemetry.dev.Updates then
            telemetry.measured.begin measuredOrder after.values.field
          else telemetry.measured }

/-- The end of `localizer_cmd_get_data`, once all is loaded. -/
def publish (telemetry : Telemetry) : Telemetry :=
  if telemetry.measured.reader.todo = [] ∧ telemetry.measured.reader.taken ≠ [] then
    let v := telemetry.measured.loaded .velocity
    let w := telemetry.measured.loaded .omega
    let dt := telemetry.measured.loaded .dt
    let msg := { telemetry.teensyBuffer.val with v, w, dt }
    { telemetry with
      measured := telemetry.measured.forget
      teensyBuffer := ⟨teensySensorArrayToWire msg, .toWire (.assign v w dt telemetry.teensyBuffer.property)⟩
      published := telemetry.published ++
        [{ message := messageString (teensySensorArrayToWire msg).msg.buff
           window := telemetry.measured.reader.window }] }
  else telemetry

def step (telemetry : Telemetry) : TelemetryEvent → Telemetry
  | .sendDrive lin ang =>
      match telemetry.measured.writing with
      | some _ => telemetry
      | none => { telemetry with dev := ((LinkCall.sendDrive lin ang).apply telemetry.teensy).dev }
  | .readTeensyResponse => telemetry.readTeensyResponse
  | .store => { telemetry with measured := telemetry.measured.store }
  | .getTeensyMeasuredVals =>
      if telemetry.measured.reader.taken = [] then
        { telemetry with measured := telemetry.measured.read measuredOrder }
      else telemetry
  | .load => { telemetry with measured := telemetry.measured.load }
  | .publish => telemetry.publish

end Telemetry

namespace TelemetryEvent

/-- No read finds the mark in the middle of a response. -/
def StartsCleanly (telemetry : Telemetry) : TelemetryEvent → Prop
  | .readTeensyResponse => LinkCall.readTeensyResponse.StartsCleanly telemetry.teensy
  | _ => True

end TelemetryEvent

namespace PublishedTelemetry

/-- Whoever decodes the message finds three words, each of an update in the window. -/
def Decodes (published : PublishedTelemetry) : Prop :=
  ∀ (receiver : { msg : TeensySensorArray // msg.Created }) (behind : Memory),
    ∃ v ∈ published.window, ∃ w ∈ published.window, ∃ dt ∈ published.window,
      (teensySensorArrayFromWire receiver.val).run (Memory.ofString published.message behind) =
        (true, { receiver.val with v := v .velocity, w := w .omega, dt := dt .dt })

end PublishedTelemetry

section Steps

variable {telemetry : Telemetry} {event : TelemetryEvent} {sent : List StateResp}
  {initial : MeasuredField → Word}

namespace Telemetry

/-- What was in memory first, or a response as the device sent it. -/
def Measured (initial : MeasuredField → Word) (sent : List StateResp)
    (update : MeasuredField → Word) : Prop :=
  update = initial ∨ ∃ response ∈ sent, update = response.values.field

structure Sound (initial : MeasuredField → Word) (sent : List StateResp) (telemetry : Telemetry) :
    Prop where
  measured : telemetry.measured.Sound
  loads : telemetry.measured.Reads [measuredOrder]
  output : telemetry.dev.port.output <:+ frames sent
  published : ∀ published ∈ telemetry.published, published.Decodes
  met : ∀ update ∈ telemetry.measured.met ++ telemetry.published.flatMap PublishedTelemetry.window,
    Measured initial sent update

theorem covers_measuredOrder (field : MeasuredField) : field ∈ measuredOrder := by
  cases field <;> decide

theorem create_sound {dev : TeensyDevice} (output : dev.port.output = frames sent) :
    (create dev initial).Sound initial sent where
  measured := SharedRecord.start_sound _
  loads := SharedRecord.start_reads _
  output := output ▸ List.suffix_refl _
  published _ member := by cases member
  met update member := by
    refine Or.inl ?_
    simpa [create, SharedRecord.met, SharedRecord.start, SharedRecord.current] using member

theorem publish_decodes (sound : telemetry.Sound initial sent)
    (finished : telemetry.measured.reader.todo = []) (begun : telemetry.measured.reader.taken ≠ []) :
    PublishedTelemetry.Decodes
      { message := messageString (teensySensorArrayToWire
          { telemetry.teensyBuffer.val with
            v := telemetry.measured.loaded .velocity, w := telemetry.measured.loaded .omega
            dt := telemetry.measured.loaded .dt }).msg.buff
        window := telemetry.measured.reader.window } := by
  intro receiver behind
  have loaded (field : MeasuredField) : ∃ update ∈ telemetry.measured.reader.window,
      telemetry.measured.loaded field = update field := by
    have covers : ∀ order ∈ [measuredOrder], ∀ field, field ∈ order := by
      intro order member field
      rw [List.mem_singleton.mp member]
      exact covers_measuredOrder field
    exact sound.measured.taken _ (sound.loads.loaded_mem covers finished begun field)
  obtain ⟨v, inV, velocity⟩ := loaded .velocity
  obtain ⟨w, inW, omega⟩ := loaded .omega
  obtain ⟨dt, inDt, time⟩ := loaded .dt
  refine ⟨v, inV, w, inW, dt, inDt, ?_⟩
  rw [← velocity, ← omega, ← time]
  exact teensySensorArrayFromWire_toWire receiver.property
    (.assign _ _ _ telemetry.teensyBuffer.property) behind

theorem readTeensyResponse_sound (sound : telemetry.Sound initial sent)
    (clean : LinkCall.readTeensyResponse.StartsCleanly telemetry.teensy) :
    telemetry.readTeensyResponse.Sound initial sent := by
  have takes : LinkCall.readTeensyResponse.TakesOneResponse sent telemetry.teensy :=
    LinkCall.readTeensyResponse.takesOneResponse sound.output clean
  unfold readTeensyResponse
  split
  · exact sound
  · have output : (LinkCall.readTeensyResponse.apply telemetry.teensy).dev.port.output <:+
        frames sent := LinkCall.readTeensyResponse.apply_output sound.output
    dsimp only
    by_cases updates : telemetry.dev.Updates
    · obtain ⟨response, member, _, values⟩ := takes.1 updates
      rw [if_pos updates, values]
      refine ⟨sound.measured.begin covers_measuredOrder, sound.loads.begin, output, sound.published,
        fun update met => ?_⟩
      rcases List.mem_append.mp met with met | published
      · rcases SharedRecord.mem_met_begin met with before | new
        · exact sound.met update (List.mem_append_left _ before)
        · exact Or.inr ⟨response, member, new⟩
      · exact sound.met update (List.mem_append_right _ published)
    · rw [if_neg updates]
      exact ⟨sound.measured, sound.loads, output, sound.published, sound.met⟩

theorem publish_sound (sound : telemetry.Sound initial sent) :
    telemetry.publish.Sound initial sent := by
  unfold publish
  split
  · next loaded =>
      obtain ⟨finished, begun⟩ := loaded
      refine ⟨sound.measured.forget, SharedRecord.forget_reads, sound.output, ?_, ?_⟩
      · intro published member
        rcases List.mem_append.mp member with before | new
        · exact sound.published published before
        · rw [List.mem_singleton.mp new]
          exact publish_decodes sound finished begun
      · intro update member
        rw [List.flatMap_append, List.flatMap_singleton] at member
        rcases List.mem_append.mp member with met | published
        · exact sound.met update (List.mem_append_left _ (SharedRecord.mem_met_forget met))
        · rcases List.mem_append.mp published with before | window
          · exact sound.met update (List.mem_append_right _ before)
          · exact sound.met update
              (List.mem_append_left _ (List.mem_append_right _ window))
  · exact sound

theorem Sound.reread (sound : telemetry.Sound initial sent)
    {measured : SharedRecord MeasuredField Word} (kept : measured.Sound)
    (loads : measured.Reads [measuredOrder])
    (met : ∀ update ∈ measured.met, update ∈ telemetry.measured.met) :
    Sound initial sent { telemetry with measured } :=
  ⟨kept, loads, sound.output, sound.published, fun update member => sound.met update
    (List.mem_append.mpr ((List.mem_append.mp member).imp_left (met update)))⟩

theorem step_sound (sound : telemetry.Sound initial sent) (clean : event.StartsCleanly telemetry) :
    (telemetry.step event).Sound initial sent := by
  cases event with
  | sendDrive lin ang =>
      simp only [step]
      split
      · exact sound
      · exact ⟨sound.measured, sound.loads, sound.output, sound.published, sound.met⟩
  | readTeensyResponse => exact readTeensyResponse_sound sound clean
  | store =>
      exact sound.reread sound.measured.store sound.loads.store
        fun _ => SharedRecord.mem_met_store
  | getTeensyMeasuredVals =>
      simp only [step]
      split
      · exact sound.reread sound.measured.read (sound.loads.read (List.mem_singleton_self _))
          fun _ => SharedRecord.mem_met_read
      · exact sound
  | load =>
      exact sound.reread sound.measured.load sound.loads.load fun _ => SharedRecord.mem_met_load
  | publish => exact publish_sound sound

theorem run_sound {dev : TeensyDevice} {events : List TelemetryEvent}
    (output : dev.port.output = frames sent)
    (clean : Run.EachStep step TelemetryEvent.StartsCleanly (create dev initial) events) :
    (Run.final step (create dev initial) events).Sound initial sent := by
  have every : Run.EachState step (Telemetry.Sound initial sent) (create dev initial) events :=
    Run.eachState_of_eachStep (Telemetry.Sound initial sent)
      (fun _ _ sound clean => step_sound sound clean) (fun _ sound => sound)
      (create_sound output) clean
  exact Run.eachState_final every

end Telemetry

end Steps

/-- In every interleaving of the sender thread with the publisher each word of a
published message is that of one response, as the device sent it, or of what memory
held before the first: the one complete when the loads began, or one that was taken
over while they went on. -/
theorem telemetry_between_responses (sent : List StateResp) (dev : TeensyDevice)
    (initial : MeasuredField → Word) (output : dev.port.output = frames sent)
    (events : List TelemetryEvent)
    (clean : Run.EachStep Telemetry.step TelemetryEvent.StartsCleanly (.create dev initial) events) :
    ∀ published ∈ (Run.final Telemetry.step (.create dev initial) events).published,
      published.Decodes ∧
        ∀ update ∈ published.window, Telemetry.Measured initial sent update := by
  have sound := Telemetry.run_sound output clean
  intro published member
  refine ⟨sound.published published member, fun update inWindow => sound.met update ?_⟩
  exact List.mem_append_right _ (List.mem_flatMap.mpr ⟨published, member, inWindow⟩)

/-- The second response is taken over between the loads of the first one's speeds. -/
def overtakenLoads : List TelemetryEvent :=
  [.readTeensyResponse, .store, .store, .store, .store, .store, .getTeensyMeasuredVals, .load,
    .sendDrive 8 9, .readTeensyResponse, .store, .store, .load, .load, .load, .publish]

theorem telemetry_between_responses_overtaken :
    ∃ published ∈ (Run.final Telemetry.step
        (.create (freshTeensy markedResponses []).dev fun _ => 0) overtakenLoads).published,
      published.Decodes ∧
        ∀ update ∈ published.window, Telemetry.Measured (fun _ => 0) markedResponses update :=
  ⟨_, List.mem_cons_self, telemetry_between_responses markedResponses
    (freshTeensy markedResponses []).dev (fun _ => 0) rfl overtakenLoads
    ⟨Or.inl (by decide), trivial, trivial, trivial, trivial, trivial, trivial, trivial, trivial,
      Or.inl (by decide), trivial, trivial, trivial, trivial, trivial, trivial, trivial⟩
    _ List.mem_cons_self⟩

/-- The linear speed of the first response goes out with the angular speed of the second. -/
example : (Run.final Telemetry.step
      (.create (freshTeensy markedResponses []).dev fun _ => 0) overtakenLoads).published.map
        (fun published => ((Memory.ofString published.message fun _ => 0).load32 22,
          (Memory.ofString published.message fun _ => 0).load32 29)) =
    [(0x3F800072, 5)] := by
  decide

end Sentinet.Kernel
