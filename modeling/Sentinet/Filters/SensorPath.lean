import Sentinet.Filters.LocalizerProxy
import Sentinet.Kernel.Telemetry
import Sentinet.Localizer.PosLocalizer

namespace Sentinet.Filters

open Sentinet.Data Sentinet.Messages Sentinet.Network Sentinet.Kernel Sentinet.Localizer

/-! From the motors and the camera to the path states: the kernel publishes what the
motors measured and `PosLocalizer` its poses, both through the proxy with the localizer. -/

variable {κ ι : Type}

/-- The first `telemetryHanded` and `cameraHanded` strings that `get_data` returned went
out to the proxy. -/
structure SensorPath (κ ι : Type) where
  telemetry : Telemetry
  camera : PosLocalizer
  network : SpinningProxy κ ι LocalizerFilter
  telemetryHanded : Nat
  cameraHanded : Nat

inductive SensorEvent (κ ι : Type) where
  | telemetry (event : TelemetryEvent)
  | camera (event : PosEvent)
  | publishTelemetry (publisher : κ)
  | publishCamera (publisher : κ)
  | spin
  | turn (subscriber : ι)
  | addFilter (behind : Nat → Memory)
  | addTurn

namespace SensorEvent

def telemetryEvents : SensorEvent κ ι → List TelemetryEvent
  | .telemetry event => [event]
  | _ => []

def cameraEvents : SensorEvent κ ι → List PosEvent
  | .camera event => [event]
  | _ => []

def Adds : SensorEvent κ ι → Prop
  | .addFilter _ => True
  | _ => False

end SensorEvent

namespace SensorPath

def create (dev : TeensyDevice) (measured : MeasuredField → Word) (pose : Pose)
    (topics : ι → Frame) : SensorPath κ ι :=
  { telemetry := .create dev measured, camera := .create pose, network := .start topics
    telemetryHanded := 0, cameraHanded := 0 }

/-- What an event is to the network.  A publisher sends the next string, if it got one. -/
def networkEvents (topic : Frame) (path : SensorPath κ ι) :
    SensorEvent κ ι → List (FilteredEvent κ ι LocalizerFilter)
  | .publishTelemetry publisher =>
      (path.telemetry.published[path.telemetryHanded]?).toList.map fun published =>
        .periodicPublish publisher topic published.message
  | .publishCamera publisher =>
      (path.camera.published[path.cameraHanded]?).toList.map fun published =>
        .periodicPublish publisher topic published.message
  | .spin => [.spin]
  | .turn subscriber => [.turn subscriber]
  | .addFilter behind => [.addFilter (.create behind)]
  | .addTurn => [.addTurn]
  | _ => []

variable [DecidableEq κ] [DecidableEq ι]

def step (topic : Frame) (path : SensorPath κ ι) (event : SensorEvent κ ι) : SensorPath κ ι :=
  let moves := path.networkEvents topic event
  let network := Run.final (SpinningProxy.step LocalizerFilter.convert) path.network moves
  match event with
  | .telemetry event => { path with telemetry := path.telemetry.step event }
  | .camera event => { path with camera := path.camera.step event }
  | .publishTelemetry _ =>
      { path with network, telemetryHanded := path.telemetryHanded + moves.length }
  | .publishCamera _ => { path with network, cameraHanded := path.cameraHanded + moves.length }
  | _ => { path with network }

def networkRun (topic : Frame) : SensorPath κ ι → List (SensorEvent κ ι) →
    List (FilteredEvent κ ι LocalizerFilter)
  | _, [] => []
  | path, event :: rest =>
      path.networkEvents topic event ++ networkRun topic (path.step topic event) rest

/-- A message of a sensor that went through the publishers. -/
def Origin (path : SensorPath κ ι) (incoming : Incoming) : Prop :=
  (incoming.isTeensy = true ∧
      ∃ published ∈ path.telemetry.published, published.message = incoming.string) ∨
    incoming.isCamera = true ∧
      ∃ published ∈ path.camera.published, published.message = incoming.string

/-- What the publishers got are sensor messages. -/
structure Sensed (path : SensorPath κ ι) : Prop where
  telemetry : ∀ published ∈ path.telemetry.published,
    ∃ sender, published.message = (Incoming.teensy sender).string
  camera : ∀ published ∈ path.camera.published,
    ∃ sender, published.message = (Incoming.camera sender).string

end SensorPath

/-- Speeds nobody sent yet, or each that of a response or of the memory before. -/
def Driven (measured : MeasuredField → Word) (sent : List StateResp) (speeds : Word × Word) : Prop :=
  speeds = (0, 0) ∨ ∃ first second, Telemetry.Measured measured sent first ∧
    Telemetry.Measured measured sent second ∧ speeds = (first .velocity, second .omega)

/-- A pose nobody set yet, or one whole pose that was set. -/
def Posed (initial : Pose) (events : List PosEvent) (place : Word × Word × Word) : Prop :=
  place = (0, 0, 0) ∨ ∃ pose : Pose, (pose = initial ∨ .setPos pose ∈ events) ∧
    place = (pose .x, pose .y, pose .theta)

/-- The string reads as a path state of this place and these speeds. -/
def ReadsPath (string : Frame) (place : Word × Word × Word) (speeds : Word × Word) : Prop :=
  ∀ (receiver : { path : PathState // path.Created }) (memory : Memory),
    (pathStateFromWire receiver.val).run (Memory.ofString string memory) =
      { receiver.val with
        x := place.1, y := place.2.1, theta := place.2.2, v := speeds.1, w := speeds.2 }

section Publishers

variable {telemetry : Telemetry} {localizer : PosLocalizer}

/-- The telemetry only grows by sensor messages. -/
theorem telemetry_published (telemetry : Telemetry) (event : TelemetryEvent) :
    (telemetry.step event).published = telemetry.published ∨
      ∃ sender window, (telemetry.step event).published = telemetry.published ++
        [{ message := (Incoming.teensy sender).string, window }] := by
  cases event with
  | publish =>
      simp only [Telemetry.step, Telemetry.publish]
      split
      · exact Or.inr ⟨⟨_, .assign _ _ _ telemetry.teensyBuffer.property⟩, _, rfl⟩
      · exact Or.inl rfl
  | readTeensyResponse =>
      simp only [Telemetry.step, Telemetry.readTeensyResponse]
      split <;> exact Or.inl rfl
  | sendDrive lin ang =>
      simp only [Telemetry.step]
      split <;> exact Or.inl rfl
  | getTeensyMeasuredVals =>
      simp only [Telemetry.step]
      split <;> exact Or.inl rfl
  | store => exact Or.inl rfl
  | load => exact Or.inl rfl

theorem camera_published (localizer : PosLocalizer) (event : PosEvent) :
    (localizer.step event).published = localizer.published ∨
      ∃ sender pose, (localizer.step event).published = localizer.published ++
        [{ message := (Incoming.camera sender).string, pose }] := by
  cases event with
  | publish =>
      simp only [PosLocalizer.step, PosLocalizer.publish]
      split
      · exact Or.inr ⟨⟨_, .assign _ _ _ _ localizer.msg.property⟩, _, rfl⟩
      · exact Or.inl rfl
  | store =>
      simp only [PosLocalizer.step, PosLocalizer.store]
      split <;> exact Or.inl rfl
  | setPos pose =>
      simp only [PosLocalizer.step]
      split <;> exact Or.inl rfl
  | getPos =>
      simp only [PosLocalizer.step]
      split <;> exact Or.inl rfl
  | load =>
      simp only [PosLocalizer.step]
      split <;> exact Or.inl rfl

end Publishers

namespace SensorPath

/-- What an event sends to the proxy comes from a sensor. -/
theorem sends_sensed {topic : Frame} {path : SensorPath κ ι} (sensed : path.Sensed)
    (event : SensorEvent κ ι) :
    ∃ sensors : List (Frame × Incoming),
      (path.networkEvents topic event).flatMap FilteredEvent.publishes =
        sensors.map (fun sensor => (sensor.1, sensor.2.string)) ∧
      ∀ sensor ∈ sensors, path.Origin sensor.2 := by
  cases event with
  | publishTelemetry publisher =>
      cases next : path.telemetry.published[path.telemetryHanded]? with
      | none => exact ⟨[], by simp [networkEvents, next], by simp⟩
      | some published =>
          have member := List.mem_of_getElem? next
          obtain ⟨sender, message⟩ := sensed.telemetry published member
          refine ⟨[(topic, .teensy sender)], ?_, ?_⟩
          · simp [networkEvents, next, FilteredEvent.publishes, message]
          · intro sensor inside
            rw [List.mem_singleton.mp inside]
            exact Or.inl ⟨rfl, published, member, message⟩
  | publishCamera publisher =>
      cases next : path.camera.published[path.cameraHanded]? with
      | none => exact ⟨[], by simp [networkEvents, next], by simp⟩
      | some published =>
          have member := List.mem_of_getElem? next
          obtain ⟨sender, message⟩ := sensed.camera published member
          refine ⟨[(topic, .camera sender)], ?_, ?_⟩
          · simp [networkEvents, next, FilteredEvent.publishes, message]
          · intro sensor inside
            rw [List.mem_singleton.mp inside]
            exact Or.inr ⟨rfl, published, member, message⟩
  | telemetry event => exact ⟨[], rfl, by simp⟩
  | camera event => exact ⟨[], rfl, by simp⟩
  | spin => exact ⟨[], rfl, by simp⟩
  | turn subscriber => exact ⟨[], rfl, by simp⟩
  | addFilter behind => exact ⟨[], rfl, by simp⟩
  | addTurn => exact ⟨[], rfl, by simp⟩

section Runs

variable [DecidableEq κ] [DecidableEq ι] {topic : Frame} {path : SensorPath κ ι}
  {event : SensorEvent κ ι} {events : List (SensorEvent κ ι)} {incoming : Incoming}

@[simp] theorem step_telemetry :
    (path.step topic event).telemetry =
      Run.final Telemetry.step path.telemetry event.telemetryEvents := by
  cases event <;> rfl

@[simp] theorem step_camera :
    (path.step topic event).camera =
      Run.final PosLocalizer.step path.camera event.cameraEvents := by
  cases event <;> rfl

theorem step_network :
    (path.step topic event).network =
      Run.final (SpinningProxy.step LocalizerFilter.convert) path.network
        (path.networkEvents topic event) := by
  cases event <;> rfl

theorem final_telemetry :
    (Run.final (step topic) path events).telemetry =
      Run.final Telemetry.step path.telemetry (events.flatMap SensorEvent.telemetryEvents) := by
  induction events generalizing path with
  | nil => rfl
  | cons event rest ih => rw [Run.final_cons, ih, step_telemetry, List.flatMap_cons, Run.final_append]

theorem final_camera :
    (Run.final (step topic) path events).camera =
      Run.final PosLocalizer.step path.camera (events.flatMap SensorEvent.cameraEvents) := by
  induction events generalizing path with
  | nil => rfl
  | cons event rest ih => rw [Run.final_cons, ih, step_camera, List.flatMap_cons, Run.final_append]

theorem final_network :
    (Run.final (step topic) path events).network =
      Run.final (SpinningProxy.step LocalizerFilter.convert) path.network
        (path.networkRun topic events) := by
  induction events generalizing path with
  | nil => rfl
  | cons event rest ih => rw [Run.final_cons, ih, step_network, networkRun, Run.final_append]

theorem networkRun_append {before after : List (SensorEvent κ ι)} :
    path.networkRun topic (before ++ after) =
      path.networkRun topic before ++
        networkRun topic (Run.final (step topic) path before) after := by
  induction before generalizing path with
  | nil => rfl
  | cons event rest ih => rw [List.cons_append, networkRun, ih, networkRun, List.append_assoc,
      Run.final_cons]

theorem networkRun_quiet (quiet : ∀ event ∈ events, ¬event.Adds) :
    ∀ move ∈ path.networkRun topic events, ¬move.Adds := by
  induction events generalizing path with
  | nil => exact fun _ member => (by cases member)
  | cons event rest ih =>
      obtain ⟨first, later⟩ := List.forall_mem_cons.mp quiet
      intro move member
      rcases List.mem_append.mp member with here | after
      · cases event with
        | addFilter behind => exact absurd trivial first
        | publishTelemetry publisher =>
            obtain ⟨published, _, rfl⟩ := List.mem_map.mp here
            exact id
        | publishCamera publisher =>
            obtain ⟨published, _, rfl⟩ := List.mem_map.mp here
            exact id
        | telemetry event => cases here
        | camera event => cases here
        | spin => exact (List.mem_singleton.mp here) ▸ id
        | turn subscriber => exact (List.mem_singleton.mp here) ▸ id
        | addTurn => exact (List.mem_singleton.mp here) ▸ id
      · exact ih later move after

theorem step_sensed (sensed : path.Sensed) : (path.step topic event).Sensed := by
  constructor
  · rw [step_telemetry]
    cases event with
    | telemetry event =>
        intro published member
        rcases telemetry_published path.telemetry event with same | ⟨sender, window, more⟩
        · exact sensed.telemetry published (same ▸ member)
        · have listed : published ∈ path.telemetry.published ++ _ := more ▸ member
          rcases List.mem_append.mp listed with before | new
          · exact sensed.telemetry published before
          · exact ⟨sender, congrArg PublishedTelemetry.message (List.mem_singleton.mp new)⟩
    | _ => exact sensed.telemetry
  · rw [step_camera]
    cases event with
    | camera event =>
        intro published member
        rcases camera_published path.camera event with same | ⟨sender, pose, more⟩
        · exact sensed.camera published (same ▸ member)
        · have listed : published ∈ path.camera.published ++ _ := more ▸ member
          rcases List.mem_append.mp listed with before | new
          · exact sensed.camera published before
          · exact ⟨sender, congrArg PublishedPose.message (List.mem_singleton.mp new)⟩
    | _ => exact sensed.camera

theorem step_origin (origin : path.Origin incoming) : (path.step topic event).Origin incoming := by
  rcases origin with ⟨teensy, published, member, string⟩ | ⟨camera, published, member, string⟩
  · refine Or.inl ⟨teensy, published, ?_, string⟩
    rw [step_telemetry]
    cases event with
    | telemetry event =>
        rcases telemetry_published path.telemetry event with same | ⟨sender, window, more⟩
        · exact same.symm ▸ member
        · exact more.symm ▸ List.mem_append_left _ member
    | _ => exact member
  · refine Or.inr ⟨camera, published, ?_, string⟩
    rw [step_camera]
    cases event with
    | camera event =>
        rcases camera_published path.camera event with same | ⟨sender, pose, more⟩
        · exact same.symm ▸ member
        · exact more.symm ▸ List.mem_append_left _ member
    | _ => exact member

theorem final_origin (origin : path.Origin incoming) :
    (Run.final (step topic) path events).Origin incoming := by
  induction events generalizing path with
  | nil => exact origin
  | cons event rest ih => exact ih (step_origin origin)

theorem run_sends (sensed : path.Sensed) (topic : Frame) (events : List (SensorEvent κ ι)) :
    ∃ sensors : List (Frame × Incoming),
      (path.networkRun topic events).flatMap FilteredEvent.publishes =
        sensors.map (fun sensor => (sensor.1, sensor.2.string)) ∧
      ∀ sensor ∈ sensors, (Run.final (step topic) path events).Origin sensor.2 := by
  induction events generalizing path with
  | nil => exact ⟨[], rfl, by simp⟩
  | cons event rest ih =>
      obtain ⟨first, sent, origins⟩ := sends_sensed sensed event
      obtain ⟨later, others, kept⟩ := ih (step_sensed sensed)
      refine ⟨first ++ later, ?_, ?_⟩
      · rw [networkRun, List.flatMap_append, sent, others, List.map_append]
      · intro sensor member
        rcases List.mem_append.mp member with here | after
        · exact final_origin (origins sensor here)
        · exact kept sensor after

end Runs

end SensorPath

section Origins

variable {incoming : Incoming} {deliveries seen : List Delivery} {string : Frame}

/-- A message of the localizer's proxy is as it came, or a path state of what came. -/
theorem Localized.cases {arrivals : List (Handled × Incoming)} {out : List Handled}
    (localized : Localized seen arrivals out) :
    ∀ handled ∈ out, (∃ arrival ∈ arrivals, handled = arrival.1) ∨
      ∃ deliveries : List Delivery, ReadsAs handled.req deliveries ∧
        ∀ delivery ∈ deliveries, delivery ∈ seen ∨ ∃ arrival ∈ arrivals, delivery.1 = arrival.2 := by
  induction localized with
  | nil => exact fun _ member => (by cases member)
  | @left seen first incoming rest out adding later ih =>
      intro handled member
      rcases List.mem_cons.mp member with here | after
      · exact Or.inl ⟨_, List.mem_cons_self, here⟩
      · rcases ih handled after with ⟨arrival, inRest, same⟩ | ⟨deliveries, reads, from_⟩
        · exact Or.inl ⟨arrival, List.mem_cons_of_mem _ inRest, same⟩
        · refine Or.inr ⟨deliveries, reads, fun delivery inside => ?_⟩
          exact (from_ delivery inside).imp_right fun ⟨arrival, inRest, same⟩ =>
            ⟨arrival, List.mem_cons_of_mem _ inRest, same⟩
  | @converted seen first incoming behind rest out req settled reads later ih =>
      intro handled member
      have grown : ∀ delivery ∈ seen ++ [(incoming, behind)], delivery ∈ seen ∨
          ∃ arrival ∈ (first, incoming) :: rest, delivery.1 = arrival.2 := by
        intro delivery inside
        rcases List.mem_append.mp inside with before | new
        · exact Or.inl before
        · exact Or.inr ⟨_, List.mem_cons_self, congrArg Prod.fst (List.mem_singleton.mp new)⟩
      rcases List.mem_cons.mp member with here | after
      · exact Or.inr ⟨_, by rw [here]; exact reads, grown⟩
      · rcases ih handled after with ⟨arrival, inRest, same⟩ | ⟨deliveries, reads, from_⟩
        · exact Or.inl ⟨arrival, List.mem_cons_of_mem _ inRest, same⟩
        · refine Or.inr ⟨deliveries, reads, fun delivery inside => ?_⟩
          rcases from_ delivery inside with known | ⟨arrival, inRest, same⟩
          · exact grown delivery known
          · exact Or.inr ⟨arrival, List.mem_cons_of_mem _ inRest, same⟩

theorem latestSpeeds_cases (deliveries : List Delivery) :
    latestSpeeds deliveries = (0, 0) ∨ ∃ delivery ∈ deliveries,
      delivery.1.isTeensy = true ∧ latestSpeeds deliveries = delivery.1.speeds := by
  unfold latestSpeeds
  cases last : Run.lastWhere (fun delivery : Delivery => delivery.1.isTeensy) deliveries with
  | none => exact Or.inl rfl
  | some entry =>
      obtain ⟨member, teensy⟩ := Run.lastWhere_mem last
      exact Or.inr ⟨entry.2, member, teensy, rfl⟩

theorem latestPose_cases (deliveries : List Delivery) :
    latestPose deliveries = (0, 0, 0) ∨ ∃ delivery ∈ deliveries,
      delivery.1.isCamera = true ∧ latestPose deliveries = delivery.1.pose := by
  unfold latestPose
  cases last : Run.lastWhere (fun delivery : Delivery => delivery.1.isCamera) deliveries with
  | none => exact Or.inl rfl
  | some entry =>
      obtain ⟨member, camera⟩ := Run.lastWhere_mem last
      exact Or.inr ⟨entry.2, member, camera, rfl⟩

/-- A published message says each speed of one of its updates. -/
theorem speeds_driven {measured : MeasuredField → Word} {sent : List StateResp}
    {published : PublishedTelemetry} (teensy : incoming.isTeensy = true)
    (message : published.message = incoming.string) (decodes : published.Decodes)
    (window : ∀ update ∈ published.window, Telemetry.Measured measured sent update) :
    Driven measured sent incoming.speeds := by
  cases incoming with
  | teensy sender =>
      obtain ⟨v, inV, w, inW, dt, -, read⟩ :=
        decodes ⟨createTeensySensorArray, .create⟩ fun _ => 0
      rw [message, Incoming.string, teensySensorArrayFromWire_toWire .create sender.property] at read
      have fields := congrArg Prod.snd read
      have velocity : sender.val.v = v .velocity := congrArg TeensySensorArray.v fields
      have omega : sender.val.w = w .omega := congrArg TeensySensorArray.w fields
      refine Or.inr ⟨v, w, window v inV, window w inW, ?_⟩
      rw [Incoming.speeds, velocity, omega]
  | camera sender => cases teensy
  | other message long notTeensy notCamera => cases teensy

theorem pose_decoded {published : PublishedPose} (camera : incoming.isCamera = true)
    (message : published.message = incoming.string) (decodes : published.Decodes) :
    incoming.pose = (published.pose .x, published.pose .y, published.pose .theta) := by
  cases incoming with
  | camera sender =>
      have read := decodes ⟨createCameraMsg, .create⟩ fun _ => 0
      rw [message, Incoming.string, cameraMsgFromWire_toWire .create sender.property] at read
      have fields := congrArg Prod.snd read
      have x : sender.val.x = published.pose .x := congrArg CameraMsg.x fields
      have y : sender.val.y = published.pose .y := congrArg CameraMsg.y fields
      have theta : sender.val.theta = published.pose .theta := congrArg CameraMsg.theta fields
      rw [Incoming.pose, x, y, theta]
  | teensy sender => cases camera
  | other message long notTeensy notCamera => cases camera

end Origins

section Poses

variable {initial pose : Pose} {calls : List PosCall}

theorem mem_reads (member : pose ∈ reads initial calls) : pose = initial ∨ .setPos pose ∈ calls := by
  induction calls generalizing initial with
  | nil => cases member
  | cons call rest ih =>
      cases call with
      | setPos later =>
          rcases ih member with rfl | inRest
          · exact Or.inr List.mem_cons_self
          · exact Or.inr (List.mem_cons_of_mem _ inRest)
      | getPos =>
          rcases List.mem_cons.mp member with here | after
          · exact Or.inl here
          · exact (ih after).imp_right (List.mem_cons_of_mem _)

theorem mem_acquired {localizer : PosLocalizer} {events : List PosEvent}
    (member : .setPos pose ∈ localizer.acquired events) : .setPos pose ∈ events := by
  induction events generalizing localizer with
  | nil => cases member
  | cons event rest ih =>
      rcases List.mem_append.mp member with here | after
      · have same : event = .setPos pose := by
          cases event <;> cases guard : localizer.guard <;>
            simp_all [PosLocalizer.acquires]
        exact same ▸ List.mem_cons_self
      · exact List.mem_cons_of_mem event (ih after)

/-- A published pose was set as a whole, or was there before. -/
theorem published_posed {events : List PosEvent} {published : PublishedPose}
    (member : published ∈ (Run.final PosLocalizer.step (.create initial) events).published) :
    published.Decodes ∧
      Posed initial events (published.pose .x, published.pose .y, published.pose .theta) := by
  have sound : (Run.final PosLocalizer.step (.create initial) events).Sound initial
      (PosLocalizer.acquired (.create initial) events) :=
    PosLocalizer.run_sound PosLocalizer.create_sound
  have answered : published.pose ∈ reads initial (PosLocalizer.acquired (.create initial) events) := by
    rw [← sound.answers]
    exact List.mem_append_left _ (List.mem_map_of_mem member)
  refine ⟨sound.decodes published member, Or.inr ⟨published.pose, ?_, rfl⟩⟩
  exact (mem_reads answered).imp_right mem_acquired

end Poses

section Delivered

variable [DecidableEq κ] [DecidableEq ι] {topic : Frame} {dev : TeensyDevice}
  {measured : MeasuredField → Word} {initial : Pose} {sent : List StateResp} {topics : ι → Frame}
  {events : List (SensorEvent κ ι)} {incoming : Incoming}

/-- What a sensor's message says, in every run whose reads start cleanly. -/
theorem origin_holds (output : dev.port.output = frames sent)
    (clean : Run.EachStep Telemetry.step TelemetryEvent.StartsCleanly (.create dev measured)
      (events.flatMap SensorEvent.telemetryEvents))
    (origin : (Run.final (SensorPath.step topic) (.create dev measured initial topics)
      events).Origin incoming) :
    (incoming.isTeensy = true → Driven measured sent incoming.speeds) ∧
      (incoming.isCamera = true →
        Posed initial (events.flatMap SensorEvent.cameraEvents) incoming.pose) := by
  rw [SensorPath.Origin, SensorPath.final_telemetry, SensorPath.final_camera] at origin
  rcases origin with ⟨teensy, published, member, message⟩ | ⟨camera, published, member, message⟩
  · have sound : (Run.final Telemetry.step (.create dev measured)
        (events.flatMap SensorEvent.telemetryEvents)).Sound measured sent :=
      Telemetry.run_sound output clean
    refine ⟨fun _ => ?_, fun camera => ?_⟩
    · refine speeds_driven teensy message (sound.published published member) fun update inside => ?_
      exact sound.met update (List.mem_append_right _ (List.mem_flatMap.mpr ⟨published, member, inside⟩))
    · cases incoming <;> simp_all [Incoming.isTeensy, Incoming.isCamera]
  · obtain ⟨decodes, posed⟩ := published_posed member
    refine ⟨fun teensy => ?_, fun _ => ?_⟩
    · cases incoming <;> simp_all [Incoming.isTeensy, Incoming.isCamera]
    · rw [pose_decoded camera message decodes]
      exact posed

/-- A path state of sensor messages. -/
theorem readsPath_of_origins {string : Frame} {deliveries : List Delivery}
    (output : dev.port.output = frames sent)
    (clean : Run.EachStep Telemetry.step TelemetryEvent.StartsCleanly (.create dev measured)
      (events.flatMap SensorEvent.telemetryEvents))
    (reads : ReadsAs string deliveries)
    (origins : ∀ delivery ∈ deliveries, (Run.final (SensorPath.step topic)
      (.create dev measured initial topics) events).Origin delivery.1) :
    ∃ place speeds, Posed initial (events.flatMap SensorEvent.cameraEvents) place ∧
      Driven measured sent speeds ∧ ReadsPath string place speeds := by
  refine ⟨latestPose deliveries, latestSpeeds deliveries, ?_, ?_, reads⟩
  · rcases latestPose_cases deliveries with none | ⟨delivery, member, camera, same⟩
    · exact Or.inl none
    · rw [same]
      exact (origin_holds output clean (origins delivery member)).2 camera
  · rcases latestSpeeds_cases deliveries with none | ⟨delivery, member, teensy, same⟩
    · exact Or.inl none
    · rw [same]
      exact (origin_holds output clean (origins delivery member)).1 teensy

end Delivered

/-- When the reads of the motors start cleanly and the localizer is added between
messages, whatever a subscriber of its proxy is given is a message as a sensor published
it, or a path state: its place is one whole pose that was set, its speeds are each that
of one response of the motors. -/
theorem path_states_from_sensors [DecidableEq κ] [DecidableEq ι] (topic : Frame)
    (dev : TeensyDevice) (measured : MeasuredField → Word) (initial : Pose) (topics : ι → Frame)
    (sent : List StateResp) (output : dev.port.output = frames sent)
    (before after : List (SensorEvent κ ι)) (behind : Nat → Memory)
    (once : ∀ event ∈ before ++ after, ¬event.Adds)
    (began : (Run.final (SensorPath.step topic) (.create dev measured initial topics)
      before).network.BeginsBetween (.addFilter (.create behind)))
    (clean : Run.EachStep Telemetry.step TelemetryEvent.StartsCleanly (.create dev measured)
      ((before ++ .addFilter behind :: after).flatMap SensorEvent.telemetryEvents))
    (subscriber : ι) :
    let events := before ++ .addFilter behind :: after
    let path := Run.final (SensorPath.step topic) (.create dev measured initial topics) events
    ∀ string ∈ (path.network.system.subscribers subscriber).given,
      (∃ published ∈ path.telemetry.published, published.message = string) ∨
      (∃ published ∈ path.camera.published, published.message = string) ∨
      ∃ place speeds, Posed initial (events.flatMap SensorEvent.cameraEvents) place ∧
        Driven measured sent speeds ∧ ReadsPath string place speeds := by
  intro events path string given
  let start : SensorPath κ ι := .create dev measured initial topics
  have sensed : start.Sensed :=
    ⟨fun _ member => (by cases member), fun _ member => (by cases member)⟩
  obtain ⟨sensors, sends, origins⟩ := SensorPath.run_sends sensed topic events
  have moves : start.networkRun topic events = start.networkRun topic before ++
      .addFilter (.create behind) ::
        (Run.final (SensorPath.step topic) start before |>.step topic (.addFilter behind)).networkRun
          topic after :=
    SensorPath.networkRun_append
  have quiet : ∀ move ∈ start.networkRun topic before ++
      (Run.final (SensorPath.step topic) start before |>.step topic (.addFilter behind)).networkRun
        topic after, ¬move.Adds := by
    intro move member
    rcases List.mem_append.mp member with first | later
    · exact SensorPath.networkRun_quiet
        (fun event inside => once event (List.mem_append_left _ inside)) move first
    · exact SensorPath.networkRun_quiet
        (fun event inside => once event (List.mem_append_right _ inside)) move later
  have network : path.network = Run.final (SpinningProxy.step LocalizerFilter.convert)
      (.start topics) (start.networkRun topic events) := SensorPath.final_network
  have idle : (Run.final (SpinningProxy.step LocalizerFilter.convert) (.start topics)
      (start.networkRun topic before)).BeginsBetween (.addFilter (.create behind)) := by
    rw [SensorPath.final_network] at began
    exact began
  rw [moves] at sends network
  obtain ⟨took, out, localized, holds⟩ := run_localized topics behind quiet idle sends
  have listed := (holds subscriber).1.subset (network ▸ given)
  obtain ⟨entry, kept, rfl⟩ := List.mem_map.mp listed
  obtain ⟨handled, member, rfl⟩ := List.mem_map.mp (List.mem_filter.mp kept).1
  -- A string that went through as it came was published by a sensor.
  have raw : ∀ handled : Handled, handled.sent ∈ sensors.map (fun sensor =>
      (sensor.1, sensor.2.string)) → (∃ published ∈ path.telemetry.published,
        published.message = handled.req) ∨
      ∃ published ∈ path.camera.published, published.message = handled.req := by
    intro handled arrived
    obtain ⟨sensor, inside, same⟩ := List.mem_map.mp arrived
    have string : sensor.2.string = handled.req := congrArg Prod.snd same
    rw [← string]
    exact (origins sensor inside).imp And.right And.right
  rcases List.mem_append.mp member with early | late
  · have arrived := took.subset (List.mem_map_of_mem (List.mem_of_mem_take early))
    exact (raw handled arrived).imp_right Or.inl
  · rcases localized.cases handled late with ⟨arrival, inside, rfl⟩ | ⟨deliveries, reads, from_⟩
    · have zipped := List.of_mem_zip (List.mem_of_mem_drop inside)
      have arrived := took.subset (List.mem_map_of_mem zipped.1)
      exact (raw arrival.1 arrived).imp_right Or.inl
    · have known : ∀ delivery ∈ deliveries, path.Origin delivery.1 := by
        intro delivery inside
        rcases from_ delivery inside with none | ⟨arrival, member, same⟩
        · cases none
        · have zipped := List.mem_of_mem_drop member
          obtain ⟨sensor, known, sensed⟩ := List.mem_map.mp (List.of_mem_zip zipped).2
          rw [same, ← sensed]
          exact origins sensor known
      exact Or.inr (Or.inr (readsPath_of_origins output clean reads known))

/-- The motors report twice, the camera once, and all goes through the localizer. -/
def sensedBefore : List (SensorEvent Unit Unit) := overtakenLoads.map .telemetry

def sensedAfter : List (SensorEvent Unit Unit) :=
  [.addTurn, .addTurn, .publishTelemetry (), .spin, .spin, .spin, .spin, .turn (),
    .camera (.setPos fun _ => 0x3f800000), .camera .store, .camera .store, .camera .store,
    .camera .store, .camera .getPos, .camera .load, .camera .load, .camera .load, .camera .publish,
    .publishCamera (), .spin, .spin, .spin, .spin, .turn ()]

/-- The first string behind the localizer has the speeds, the second also the place. -/
theorem path_states_from_sensors_fused :
    let events := sensedBefore ++ .addFilter (fun _ _ => 0) :: sensedAfter
    let path := Run.final (SensorPath.step cmdTopic) (.create
      (freshTeensy markedResponses []).dev (fun _ => 0) (fun _ => 0) fun _ => cmdTopic) events
    ∃ string ∈ (path.network.system.subscribers ()).given,
      (∃ published ∈ path.telemetry.published, published.message = string) ∨
      (∃ published ∈ path.camera.published, published.message = string) ∨
      ∃ place speeds, Posed (fun _ => 0) (events.flatMap SensorEvent.cameraEvents) place ∧
        Driven (fun _ => 0) markedResponses speeds ∧ ReadsPath string place speeds :=
  ⟨_, List.mem_cons_self, path_states_from_sensors cmdTopic
    (freshTeensy markedResponses []).dev (fun _ => 0) (fun _ => 0) (fun _ => cmdTopic)
    markedResponses rfl sensedBefore sensedAfter (fun _ _ => 0)
    (by simp [sensedBefore, sensedAfter, overtakenLoads, SensorEvent.Adds])
    (fun _ _ _ _ at_ => (by cases at_))
    ⟨Or.inl (by decide), trivial, trivial, trivial, trivial, trivial, trivial, trivial, trivial,
      Or.inl (by decide), trivial, trivial, trivial, trivial, trivial, trivial, trivial⟩
    () _ List.mem_cons_self⟩

end Sentinet.Filters
