import Sentinet.Filters.Localization
import Sentinet.Network.FilterStream

namespace Sentinet.Filters

open Sentinet.Data Sentinet.Messages Sentinet.Network SimpleLocalizer

/-! `kermit_proxy --localizer`: the sensors publish, and the proxy gets the localizer
as its only filter while it already runs. -/

variable {κ ι : Type}

/-- The localizer of the proxy, with the memory behind each string that it is given. -/
structure LocalizerFilter where
  localizer : SimpleLocalizer
  behind : Nat → Memory
  calls : Nat

def LocalizerFilter.create (behind : Nat → Memory) : LocalizerFilter :=
  { localizer := .create, behind, calls := 0 }

def LocalizerFilter.convert (filter : LocalizerFilter) (req : Frame) : Frame × LocalizerFilter :=
  let converted := filter.localizer.convert req (filter.behind filter.calls)
  (converted.message, { filter with localizer := converted.localizer, calls := filter.calls + 1 })

/-- A string reads as the path state of the deliveries so far. -/
def ReadsAs (req : Frame) (deliveries : List Delivery) : Prop :=
  ∀ (receiver : { path : PathState // path.Created }) (memory : Memory),
    (pathStateFromWire receiver.val).run (Memory.ofString req memory) =
      { receiver.val with
        x := (latestPose deliveries).1
        y := (latestPose deliveries).2.1
        theta := (latestPose deliveries).2.2
        v := (latestSpeeds deliveries).1
        w := (latestSpeeds deliveries).2 }

/-- What a localizer that has had some deliveries makes of the messages that come. -/
inductive Localized : List Delivery → List (Handled × Incoming) → List Handled → Prop where
  | nil {seen : List Delivery} : Localized seen [] []
  | left {seen : List Delivery} {handled : Handled} {incoming : Incoming}
      {rest : List (Handled × Incoming)} {out : List Handled} (adding : handled.adding = true)
      (later : Localized seen rest out) :
      Localized seen ((handled, incoming) :: rest) (handled :: out)
  | converted {seen : List Delivery} {handled : Handled} {incoming : Incoming} {behind : Memory}
      {rest : List (Handled × Incoming)} {out : List Handled} {req : Frame}
      (settled : handled.adding = false) (reads : ReadsAs req (seen ++ [(incoming, behind)]))
      (later : Localized (seen ++ [(incoming, behind)]) rest out) :
      Localized seen ((handled, incoming) :: rest) ({ handled with req } :: out)

section Convert

variable {filter : LocalizerFilter} {seen : List Delivery}

theorem convert_reads (incoming : Incoming)
    (tracks : filter.localizer = Run.final step create seen) :
    ReadsAs (filter.convert incoming.string).1
        (seen ++ [(incoming, filter.behind filter.calls)]) ∧
      (filter.convert incoming.string).2.localizer =
        Run.final step create (seen ++ [(incoming, filter.behind filter.calls)]) := by
  have next : (filter.localizer.convert incoming.string (filter.behind filter.calls)).localizer =
      Run.final step create (seen ++ [(incoming, filter.behind filter.calls)]) := by
    rw [Run.final_append, ← tracks, Run.final_cons, Run.final_nil, step]
  simp only [LocalizerFilter.convert]
  refine ⟨fun receiver memory => ?_, next⟩
  rw [convert_message receiver.property, next, final_pose, final_speeds]

theorem outputs_localized {arrivals : List (Handled × Incoming)}
    (sensors : ∀ arrival ∈ arrivals, arrival.1.req = arrival.2.string)
    (tracks : filter.localizer = Run.final step create seen) :
    Localized seen arrivals
      (Run.outputs (convertHandled LocalizerFilter.convert) filter (arrivals.map Prod.fst)) := by
  induction arrivals generalizing filter seen with
  | nil => exact .nil
  | cons arrival rest ih =>
      obtain ⟨handled, incoming⟩ := arrival
      obtain ⟨first, later⟩ := List.forall_mem_cons.mp sensors
      dsimp only at first
      cases adding : handled.adding with
      | true =>
          have left : convertHandled LocalizerFilter.convert filter handled = (handled, filter) :=
            if_pos adding
          rw [List.map_cons, Run.outputs, left]
          exact .left adding (ih later tracks)
      | false =>
          obtain ⟨reads, next⟩ := convert_reads incoming tracks
          have converted : convertHandled LocalizerFilter.convert filter handled =
              ({ handled with req := (filter.convert incoming.string).1 },
                (filter.convert incoming.string).2) := by
            simp only [convertHandled, adding, first, Bool.false_eq_true, if_false]
          rw [List.map_cons, Run.outputs, converted]
          exact .converted adding reads (ih later next)

end Convert

/-- What was handled are the strings of the first sensors. -/
theorem handled_arrivals {handled : List Handled} {onward : List (Frame × Frame)}
    {sensors : List (Frame × Incoming)}
    (total : handled.map Handled.sent ++ onward =
      sensors.map fun sensor => (sensor.1, sensor.2.string)) :
    (handled.zip (sensors.map Prod.snd)).map Prod.fst = handled ∧
      ∀ arrival ∈ handled.zip (sensors.map Prod.snd), arrival.1.req = arrival.2.string := by
  induction handled generalizing sensors with
  | nil => exact ⟨rfl, fun _ member => (by cases member)⟩
  | cons first rest ih =>
      cases sensors with
      | nil => cases total
      | cons sensor later =>
          simp only [List.map_cons, List.cons_append, List.cons.injEq] at total
          obtain ⟨same, total⟩ := total
          obtain ⟨arrived, strings⟩ := ih total
          simp only [List.map_cons, List.zip_cons_cons, arrived, true_and]
          exact List.forall_mem_cons.mpr ⟨congrArg Prod.snd same, strings⟩

/-- A run in which the localizer is added once: what the proxy took are the strings of
sensors, and what went on from the call is localized. -/
theorem run_localized [DecidableEq κ] [DecidableEq ι] (topics : ι → Frame)
    {before after : List (FilteredEvent κ ι LocalizerFilter)} (behind : Nat → Memory)
    {sensors : List (Frame × Incoming)} (once : ∀ event ∈ before ++ after, ¬event.Adds)
    (began : (Run.final (SpinningProxy.step LocalizerFilter.convert) (.start topics)
      before).BeginsBetween (.addFilter (.create behind)))
    (published : (before ++ .addFilter (.create behind) :: after).flatMap FilteredEvent.publishes =
      sensors.map fun sensor => (sensor.1, sensor.2.string)) :
    let convert := LocalizerFilter.convert
    let events := before ++ .addFilter (.create behind) :: after
    let proxy := Run.final (SpinningProxy.step convert) (.start topics) events
    let handled := FilterChain.messages (SpinningProxy.stream convert (.start topics) events)
    let late := (FilterChain.messages (SpinningProxy.stream convert (.start topics) before)).length
    handled.map Handled.sent <+: sensors.map (fun sensor => (sensor.1, sensor.2.string)) ∧
    ∃ out, Localized [] ((handled.zip (sensors.map Prod.snd)).drop late) out ∧
      ∀ subscriber, (proxy.system.subscribers subscriber).given <+:
          taken (topics subscriber) ((handled.take late ++ out).map Handled.sent) ∧
        (proxy.point = .idle → (proxy.system.subscribers subscriber).socket.queue = [] →
          (proxy.system.subscribers subscriber).given =
            taken (topics subscriber) ((handled.take late ++ out).map Handled.sent)) := by
  intro convert events proxy handled late
  have between : Run.EachStep (SpinningProxy.step convert) SpinningProxy.BeginsBetween
      (.start topics) events := SpinningProxy.once_between once began
  obtain ⟨⟨onward, _, total⟩, whole, rest, split, finished, holds⟩ :=
    SpinningProxy.run_converted convert topics between
  have converted := SpinningProxy.added_once convert topics (.create behind) once
  obtain ⟨arrived, strings⟩ := handled_arrivals (total.trans published)
  rw [converted, FilterChain.convertAfter] at split
  let arrivals := (handled.zip (sensors.map Prod.snd)).drop late
  have localized : Localized [] arrivals (Run.outputs (convertHandled convert) (.create behind)
      (arrivals.map Prod.fst)) :=
    outputs_localized (fun arrival member => strings arrival (List.mem_of_mem_drop member)) rfl
  rw [List.map_drop, arrived] at localized
  refine ⟨⟨onward, total.trans published⟩, _, localized, fun subscriber => ?_⟩
  obtain ⟨given, all⟩ := (holds subscriber).given_extends (rest.map Handled.sent)
  rw [← List.map_append, ← split] at given all
  exact ⟨given, fun rests => all (by rw [finished rests]; rfl)⟩

/-- With the localizer added once, by a call that begins between messages, subscribers
are given the messages that the proxy took before the call and while it was under way as
they were published, and instead of every later one a path state of the latest pose and
the latest speeds that the localizer was given. -/
theorem localizer_proxy_tracks [DecidableEq κ] [DecidableEq ι] (topics : ι → Frame)
    (before after : List (FilteredEvent κ ι LocalizerFilter)) (behind : Nat → Memory)
    (sensors : List (Frame × Incoming)) (subscriber : ι)
    (once : ∀ event ∈ before ++ after, ¬event.Adds)
    (began : (Run.final (SpinningProxy.step LocalizerFilter.convert) (.start topics)
      before).BeginsBetween (.addFilter (.create behind)))
    (published : (before ++ .addFilter (.create behind) :: after).flatMap FilteredEvent.publishes =
      sensors.map fun sensor => (sensor.1, sensor.2.string)) :
    let convert := LocalizerFilter.convert
    let events := before ++ .addFilter (.create behind) :: after
    let proxy := Run.final (SpinningProxy.step convert) (.start topics) events
    let handled := FilterChain.messages (SpinningProxy.stream convert (.start topics) events)
    let late := (FilterChain.messages (SpinningProxy.stream convert (.start topics) before)).length
    handled.map Handled.sent <+: sensors.map (fun sensor => (sensor.1, sensor.2.string)) ∧
    ∃ out, Localized [] ((handled.zip (sensors.map Prod.snd)).drop late) out ∧
      (proxy.system.subscribers subscriber).given <+:
        taken (topics subscriber) ((handled.take late ++ out).map Handled.sent) ∧
      (proxy.point = .idle → (proxy.system.subscribers subscriber).socket.queue = [] →
        (proxy.system.subscribers subscriber).given =
          taken (topics subscriber) ((handled.take late ++ out).map Handled.sent)) := by
  intro convert events proxy handled late
  obtain ⟨took, out, localized, given⟩ := run_localized topics behind once began published
  exact ⟨took, out, localized, given subscriber⟩

/-- The camera at 1.0 in x, and the motors at 1.0. -/
def cameraAhead : Incoming :=
  .camera ⟨{ createCameraMsg with x := 0x3f800000, y := 0, theta := 0, dt := 0 },
    .assign _ _ _ _ .create⟩

def teensyAhead : Incoming :=
  .teensy ⟨{ createTeensySensorArray with v := 0x3f800000, w := 0, dt := 0 }, .assign _ _ _ .create⟩

/-- The first pose is through before the localizer is there. -/
def lateLocalizer : List (FilteredEvent Unit Unit LocalizerFilter) :=
  [.concurrentPublish cmdTopic cameraAhead.string, .spin, .spin, .spin, .turn ()]

def afterLocalizer : List (FilteredEvent Unit Unit LocalizerFilter) :=
  [.concurrentPublish cmdTopic teensyAhead.string, .addTurn, .addTurn, .spin, .spin, .spin, .spin,
    .turn ()]

theorem localizer_proxy_tracks_late :
    let convert := LocalizerFilter.convert
    let events := lateLocalizer ++ .addFilter (.create fun _ _ => 0) :: afterLocalizer
    let proxy := Run.final (SpinningProxy.step convert) (.start fun _ => cmdTopic) events
    let handled :=
      FilterChain.messages (SpinningProxy.stream convert (.start fun _ => cmdTopic) events)
    let late := (FilterChain.messages
      (SpinningProxy.stream convert (.start fun _ => cmdTopic) lateLocalizer)).length
    let sensors := [(cmdTopic, cameraAhead), (cmdTopic, teensyAhead)]
    handled.map Handled.sent <+: sensors.map (fun sensor => (sensor.1, sensor.2.string)) ∧
    ∃ out, Localized [] ((handled.zip (sensors.map Prod.snd)).drop late) out ∧
      (proxy.system.subscribers ()).given <+:
        taken cmdTopic ((handled.take late ++ out).map Handled.sent) ∧
      (proxy.point = .idle → (proxy.system.subscribers ()).socket.queue = [] →
        (proxy.system.subscribers ()).given =
          taken cmdTopic ((handled.take late ++ out).map Handled.sent)) :=
  localizer_proxy_tracks (fun _ => cmdTopic) lateLocalizer afterLocalizer (fun _ _ => 0)
    [(cmdTopic, cameraAhead), (cmdTopic, teensyAhead)] ()
    (by simp [lateLocalizer, afterLocalizer, FilteredEvent.Adds])
    (fun _ _ _ _ at_ => (by cases at_)) rfl

/-- The camera message goes out as it is; the path state behind it has the speed, and no
pose yet. -/
example : ((Run.final (SpinningProxy.step LocalizerFilter.convert) (.start fun _ : Unit => cmdTopic)
      (lateLocalizer ++ .addFilter (.create fun _ _ => 0) :: afterLocalizer)).system.subscribers
        ()).given.map (fun string => ((Memory.ofString string fun _ => 0).load32 15,
          (Memory.ofString string fun _ => 0).load32 36)) =
    [(cameraMessage, 0), (0, 0x3f800000)] := by
  decide

end Sentinet.Filters
