import Sentinet.Kernel.DriveLink
import Sentinet.Network.PubSub

namespace Sentinet.Network

open Sentinet.Data Sentinet.Messages Sentinet.Kernel KermitKernel

/-! From the operators to the motors: velocities are published, go through the proxy
to the subscription of the kernel, whose callback hands them to the drive link. -/

variable {κ ι : Type}

/-- `handed` of the strings that the kernel's subscription was given went to its
callback. -/
structure OperatorDrive (κ ι : Type) where
  network : PubSub κ ι
  link : DriveLink
  handed : Nat

inductive OperatorEvent (κ ι : Type) where
  | network (event : PubSubEvent κ ι)
  | drive (behind : Memory)
  | request (asked : StateRequest)
  | store
  | loadArguments (angFirst : Bool)
  | load
  | sendDrive (accepted : Nat)

namespace OperatorDrive

def create (device : TeensyDevice) (topics : ι → Frame) : OperatorDrive κ ι :=
  { network := .start topics, link := .create device, handed := 0 }

variable [DecidableEq κ] [DecidableEq ι]

/-- The subscription of the kernel does not receive while its callback waits. -/
def onNetwork (kernel : ι) (system : OperatorDrive κ ι) (event : PubSubEvent κ ι) :
    OperatorDrive κ ι :=
  match event with
  | .turn subscriber =>
      if subscriber = kernel ∧ system.handed < (system.network.subscribers kernel).given.length then
        system
      else { system with network := system.network.step event }
  | _ => { system with network := system.network.step event }

/-- The callback starts when `mutex_lock` is free. -/
def onDrive (kernel : ι) (system : OperatorDrive κ ι) (behind : Memory) : OperatorDrive κ ι :=
  match (system.network.subscribers kernel).given[system.handed]?, system.link.command.writing with
  | some message, none =>
      { system with
        link := system.link.step (.callback (.drive message behind)), handed := system.handed + 1 }
  | _, _ => system

def onLink (system : OperatorDrive κ ι) (event : DriveEvent) : OperatorDrive κ ι :=
  { system with link := system.link.step event }

def step (kernel : ι) (system : OperatorDrive κ ι) : OperatorEvent κ ι → OperatorDrive κ ι
  | .network event => system.onNetwork kernel event
  | .drive behind => system.onDrive kernel behind
  | .request asked => system.onLink (.callback (.request asked))
  | .store => system.onLink .store
  | .loadArguments angFirst => system.onLink (.loadArguments angFirst)
  | .load => system.onLink .load
  | .sendDrive accepted => system.onLink (.sendDrive accepted)

end OperatorDrive

namespace OperatorEvent

/-- What a run publishes. -/
def publishes : OperatorEvent κ ι → List (Frame × Frame)
  | .network event => published [event]
  | _ => []

def KeepsClosed : OperatorEvent κ ι → Prop
  | .request asked => (DriveEvent.callback (.request asked)).KeepsClosed
  | _ => True

end OperatorEvent

/-- Standing still, or a velocity that was published on a topic of the subscription. -/
def FromOperators (topic : Frame) (sent : List (Frame × Frame)) (pair : Word × Word) : Prop :=
  pair = (0, 0) ∨ ∃ vel : { vel : CmdVel // vel.Created }, ∃ entry ∈ sent, topic <+: entry.1 ∧
    entry.2 = messageString (cmdVelToWire vel.val).buff ∧ pair = (vel.val.lin, vel.val.ang)

/-- Whatever a subscription to the topic takes is a `cmd_vel` message. -/
def CarriesVelocities (topic : Frame) (sent : List (Frame × Frame)) : Prop :=
  ∀ entry ∈ sent, topic <+: entry.1 →
    ∃ vel : { vel : CmdVel // vel.Created }, entry.2 = messageString (cmdVelToWire vel.val).buff

section Projection

variable {kernel : ι} {system : OperatorDrive κ ι} {pubs : List (PubSubEvent κ ι)}
  {drives : List DriveEvent} {topics : ι → Frame} {device : TeensyDevice}

/-- The two halves of the system after a run, as runs of their own. -/
structure Projects [DecidableEq κ] [DecidableEq ι] (system : OperatorDrive κ ι)
    (kernel : ι) (device : TeensyDevice) (topics : ι → Frame) (events : List (OperatorEvent κ ι))
    (pubs : List (PubSubEvent κ ι)) (drives : List DriveEvent) : Prop where
  network : system.network = Run.final PubSub.step (.start topics) pubs
  published : published pubs = events.flatMap OperatorEvent.publishes
  link : system.link = Run.final DriveLink.step (.create device) drives
  given : ∀ message behind, .callback (.drive message behind) ∈ drives →
    message ∈ (system.network.subscribers kernel).given
  closed : (∀ event ∈ events, event.KeepsClosed) → ∀ event ∈ drives, event.KeepsClosed

variable [DecidableEq κ] [DecidableEq ι] {events : List (OperatorEvent κ ι)}

/-- A subscription forgets nothing that its callback was given. -/
theorem step_given (network : PubSub κ ι) (event : PubSubEvent κ ι) (kernel : ι) :
    (network.subscribers kernel).given <+: ((network.step event).subscribers kernel).given := by
  have forwards (messages : List (List Frame)) (system : PubSub κ ι) :
      ((messages.foldl PubSub.toSubscribers system).subscribers kernel).given =
        (system.subscribers kernel).given := by
    induction messages generalizing system with
    | nil => rfl
    | cons message rest ih =>
        rw [List.foldl_cons, ih]
        rfl
  cases event with
  | concurrentPublish topic message => exact List.prefix_refl _
  | periodicPublish publisher topic data => exact List.prefix_refl _
  | spin =>
      cases spun : network.proxy.spin with
      | none => simp only [PubSub.step, spun, List.prefix_rfl]
      | some result =>
          obtain ⟨messages, proxy⟩ := result
          simp only [PubSub.step, spun, forwards, List.prefix_rfl]
  | turn subscriber =>
      cases turned : (network.subscribers subscriber).turn with
      | none => simp only [PubSub.step, turned, List.prefix_rfl]
      | some after =>
          simp only [PubSub.step, turned]
          by_cases same : kernel = subscriber
          · subst same
            rw [Function.update_self]
            unfold Subscriber.turn at turned
            split at turned
            · simp only [Option.bind_eq_bind, Option.bind_eq_some_iff, Option.pure_def,
                Option.some.injEq] at turned
              obtain ⟨_, _, _, _, rfl⟩ := turned
              exact List.prefix_append _ _
            · cases turned
              exact List.prefix_refl _
          · simp only [Function.update_of_ne same, List.prefix_rfl]

theorem Projects.network_step (projects : Projects system kernel device topics events pubs drives)
    (event : PubSubEvent κ ι) :
    Projects { system with network := system.network.step event } kernel device topics
      (events ++ [.network event]) (pubs ++ [event]) drives where
  network := by rw [Run.final_append, Run.final_cons, Run.final_nil, ← projects.network]
  published := by
    rw [PubSub.published_append, projects.published, List.flatMap_append, List.flatMap_singleton]
    rfl
  link := projects.link
  given message behind member :=
    (step_given system.network event kernel).subset (projects.given message behind member)
  closed keeps := projects.closed fun event member => keeps event (List.mem_append_left _ member)

theorem Projects.idle (projects : Projects system kernel device topics events pubs drives)
    {event : OperatorEvent κ ι} (silent : event.publishes = []) :
    Projects system kernel device topics (events ++ [event]) pubs drives where
  network := projects.network
  published := by
    rw [projects.published, List.flatMap_append, List.flatMap_singleton, silent, List.append_nil]
  link := projects.link
  given := projects.given
  closed keeps := projects.closed fun event member => keeps event (List.mem_append_left _ member)

theorem Projects.link_step (projects : Projects system kernel device topics events pubs drives)
    {event : OperatorEvent κ ι} {move : DriveEvent} (silent : event.publishes = [])
    (given : ∀ message behind, move = .callback (.drive message behind) →
      message ∈ (system.network.subscribers kernel).given)
    (closed : event.KeepsClosed → move.KeepsClosed) (handed : Nat) :
    Projects { system with link := system.link.step move, handed } kernel device topics
      (events ++ [event]) pubs (drives ++ [move]) where
  network := projects.network
  published := (projects.idle silent).published
  link := by rw [Run.final_append, Run.final_cons, Run.final_nil, ← projects.link]
  given message behind member := by
    rcases List.mem_append.mp member with before | new
    · exact projects.given message behind before
    · exact given message behind (List.mem_singleton.mp new).symm
  closed keeps move' member := by
    rcases List.mem_append.mp member with before | new
    · exact projects.closed (fun event member => keeps event (List.mem_append_left _ member))
        move' before
    · rw [List.mem_singleton.mp new]
      exact closed (keeps event (List.mem_append_right _ (List.mem_singleton_self _)))

theorem Projects.step (projects : Projects system kernel device topics events pubs drives)
    (event : OperatorEvent κ ι) :
    ∃ pubs' drives', Projects (system.step kernel event) kernel device topics (events ++ [event])
      pubs' drives' := by
  cases event with
  | network event =>
      simp only [OperatorDrive.step, OperatorDrive.onNetwork]
      cases event with
      | turn subscriber =>
          dsimp only
          split
          · exact ⟨_, _, projects.idle rfl⟩
          · exact ⟨_, _, projects.network_step _⟩
      | concurrentPublish topic message => exact ⟨_, _, projects.network_step _⟩
      | periodicPublish publisher topic data => exact ⟨_, _, projects.network_step _⟩
      | spin => exact ⟨_, _, projects.network_step _⟩
  | drive behind =>
      simp only [OperatorDrive.step, OperatorDrive.onDrive]
      split
      · next message received free =>
          have closed : (DriveEvent.callback (.drive message behind)).KeepsClosed := trivial
          refine ⟨_, _, projects.link_step rfl ?_ (fun _ => closed) _⟩
          intro other behind' same
          cases same
          exact List.mem_of_getElem? received
      · exact ⟨_, _, projects.idle rfl⟩
  | request asked =>
      exact ⟨_, _, projects.link_step rfl (fun _ _ same => by cases same) id _⟩
  | store => exact ⟨_, _, projects.link_step rfl (fun _ _ same => by cases same) id _⟩
  | loadArguments angFirst =>
      exact ⟨_, _, projects.link_step rfl (fun _ _ same => by cases same) id _⟩
  | load => exact ⟨_, _, projects.link_step rfl (fun _ _ same => by cases same) id _⟩
  | sendDrive accepted =>
      exact ⟨_, _, projects.link_step rfl (fun _ _ same => by cases same) id _⟩

theorem run_projects (kernel : ι) (device : TeensyDevice) (topics : ι → Frame)
    (events : List (OperatorEvent κ ι)) :
    ∃ pubs drives, Projects
      (Run.final (OperatorDrive.step kernel) (.create device topics) events) kernel device topics
      events pubs drives := by
  induction events using List.reverseRecOn with
  | nil => exact ⟨[], [], rfl, rfl, rfl, fun _ _ member => (by cases member), fun _ _ member => (by cases member)⟩
  | append_singleton events event ih =>
      obtain ⟨pubs, drives, projects⟩ := ih
      rw [Run.final_append]
      exact projects.step event

end Projection

section Origin

variable {topic : Frame} {sent : List (Frame × Frame)} {kernel : KermitKernel}

/-- A callback leaves the velocity, stops or takes that of its message. -/
theorem callback_command {callback : Callback}
    (from_ : FromOperators topic sent (kernel.lin, kernel.ang))
    (velocity : ∀ message behind, callback = .drive message behind →
      ∃ vel : { vel : CmdVel // vel.Created }, ∃ entry ∈ sent, topic <+: entry.1 ∧
        entry.2 = message ∧ message = messageString (cmdVelToWire vel.val).buff) :
    FromOperators topic sent ((callback.run kernel).lin, (callback.run kernel).ang) := by
  cases callback with
  | drive message behind =>
      obtain ⟨vel, entry, member, carried, payload, message_eq⟩ := velocity message behind rfl
      have received := cmdVelFromWire_toWire kernel.created vel.property behind
      rw [← message_eq] at received
      simp only [Callback.run, driveMessageSubscribeCallback, received]
      cases kernel.receivingCvels with
      | false => exact Or.inl rfl
      | true => exact Or.inr ⟨vel, entry, member, carried, payload.trans message_eq, rfl⟩
  | request asked =>
      cases selected : selectHandler asked.code with
      | none =>
          rw [Callback.run, request_unselected selected]
          exact from_
      | some handler =>
          obtain ⟨lin, ang⟩ := runHandler_velocity kernel asked.excess handler
          rw [Callback.run, request_selected selected, lin, ang]
          split
          · exact Or.inl rfl
          · exact from_

theorem held_command {device : TeensyDevice} {drives : List DriveEvent}
    (velocities : ∀ message behind, .callback (.drive message behind) ∈ drives →
      ∃ vel : { vel : CmdVel // vel.Created }, ∃ entry ∈ sent, topic <+: entry.1 ∧
        entry.2 = message ∧ message = messageString (cmdVelToWire vel.val).buff)
    {update : CommandField → Word} (held : DriveLink.Held device drives update) :
    FromOperators topic sent (update .lin, update .ang) := by
  obtain ⟨before, isPrefix, rfl⟩ := held
  let fromOperators (link : DriveLink) : Prop :=
    FromOperators topic sent (link.kernel.lin, link.kernel.ang)
  have kept : ∀ event ∈ before, ∀ link, fromOperators link → fromOperators (link.step event) := by
    intro event member link from_
    have whole := isPrefix.subset member
    simp only [fromOperators] at from_ ⊢
    cases event with
    | callback callback =>
        simp only [DriveLink.step]
        rcases link.callback_cases callback with same | ⟨_, ran⟩
        · rw [same]
          exact from_
        · rw [ran]
          refine callback_command from_ fun message behind same => ?_
          exact velocities message behind (same ▸ whole)
    | store => exact from_
    | loadArguments angFirst =>
        simp only [DriveLink.step]
        split <;> exact from_
    | load => exact from_
    | sendDrive accepted =>
        simp only [DriveLink.step]
        rcases link.sendDrive_cases accepted with same | ⟨_, device, sends⟩
        · rw [same]
          exact from_
        · rw [sends]
          exact from_
  exact Run.final_invariant fromOperators kept (Or.inl rfl)

end Origin

section Published

variable [DecidableEq κ] [DecidableEq ι]

/-- What a subscription's callback was given was published on a topic of it. -/
theorem given_published {topics : ι → Frame} {kernel : ι} {pubs : List (PubSubEvent κ ι)}
    {message : Frame}
    (given : message ∈ ((Run.final PubSub.step (.start topics) pubs).subscribers kernel).given) :
    ∃ entry ∈ published pubs, topics kernel <+: entry.1 ∧ entry.2 = message := by
  obtain ⟨forwarded, onward, transit, total⟩ := PubSub.run_inTransit topics pubs
  have listed := (transit.given kernel).1.subset given
  obtain ⟨entry, kept, rfl⟩ := List.mem_map.mp listed
  obtain ⟨member, carried⟩ := List.mem_filter.mp kept
  exact ⟨entry, total ▸ List.mem_append_left _ member, List.isPrefixOf_iff_prefix.mp carried, rfl⟩

end Published

/-- Every float on the motors' wire is zero or one that an operator published on a topic
of the kernel's subscription, and none is but zero before a request opened the gate. -/
theorem frames_from_operators [DecidableEq κ] [DecidableEq ι] (kernel : ι) (device : TeensyDevice)
    (topics : ι → Frame) (events : List (OperatorEvent κ ι))
    (velocities : CarriesVelocities (topics kernel) (events.flatMap OperatorEvent.publishes)) :
    let system := Run.final (OperatorDrive.step kernel) (.create device topics) events
    let sent := events.flatMap OperatorEvent.publishes
    ∀ frame ∈ system.link.sent,
      (∃ pair, FromOperators (topics kernel) sent pair ∧ frame.lin = pair.1) ∧
      (∃ pair, FromOperators (topics kernel) sent pair ∧ frame.ang = pair.2) ∧
      ((∀ event ∈ events, event.KeepsClosed) → frame.lin = 0 ∧ frame.ang = 0) := by
  intro system sent frame member
  obtain ⟨pubs, drives, projects⟩ := run_projects kernel device topics events
  have commands : ∀ message behind, .callback (.drive message behind) ∈ drives →
      ∃ vel : { vel : CmdVel // vel.Created }, ∃ entry ∈ sent, topics kernel <+: entry.1 ∧
        entry.2 = message ∧ message = messageString (cmdVelToWire vel.val).buff := by
    intro message behind called
    have given := projects.given message behind called
    rw [projects.network] at given
    obtain ⟨entry, listed, carried, rfl⟩ := given_published given
    rw [projects.published] at listed
    obtain ⟨vel, payload⟩ := velocities entry listed carried
    exact ⟨vel, entry, listed, carried, rfl, payload⟩
  have link : system.link = Run.final DriveLink.step (.create device) drives := projects.link
  rw [link] at member
  obtain ⟨⟨first, inFirst, lin⟩, second, inSecond, ang⟩ :=
    (DriveLink.run_sound device drives).sent frame member
  have held : ∀ update ∈ frame.window, DriveLink.Held device drives update := by
    intro update inWindow
    refine DriveLink.run_updates device drives update ?_
    exact List.mem_append_right _ (List.mem_flatMap.mpr ⟨frame, member, inWindow⟩)
  refine ⟨⟨_, held_command commands (held first inFirst), lin⟩,
    ⟨_, held_command commands (held second inSecond), ang⟩, fun keeps => ?_⟩
  exact DriveLink.closed_sends_still device (projects.closed keeps) frame member

/-- 1.0 ahead and 2.0 to the left. -/
def operatorVelocity : { vel : CmdVel // vel.Created } :=
  ⟨{ createCmdVel with lin := 0x3f800000, ang := 0x40000000 }, .assign _ _ .create⟩

/-- The gate opens, and one velocity goes all the way. -/
def oneVelocity : List (OperatorEvent Unit Unit) :=
  [.request { code := moveToMine, excess := startDriving },
    .network (.concurrentPublish cmdVelTopic (messageString (cmdVelToWire operatorVelocity.val).buff)),
    .network .spin, .network (.turn ()), .drive (fun _ => 0), .store, .store, .store,
    .loadArguments false, .load, .load, .sendDrive 11]

theorem frames_from_operators_one :
    let system :=
      Run.final (OperatorDrive.step ()) (.create silentDevice fun _ => cmdVelTopic) oneVelocity
    let sent := oneVelocity.flatMap OperatorEvent.publishes
    ∀ frame ∈ system.link.sent,
      (∃ pair, FromOperators cmdVelTopic sent pair ∧ frame.lin = pair.1) ∧
      (∃ pair, FromOperators cmdVelTopic sent pair ∧ frame.ang = pair.2) ∧
      ((∀ event ∈ oneVelocity, event.KeepsClosed) → frame.lin = 0 ∧ frame.ang = 0) := by
  refine frames_from_operators () silentDevice (fun _ => cmdVelTopic) oneVelocity ?_
  intro entry member _
  rw [List.mem_singleton.mp member]
  exact ⟨operatorVelocity, rfl⟩

example : ((Run.final (OperatorDrive.step ()) (.create silentDevice fun _ => cmdVelTopic)
      oneVelocity).link.sent.map fun frame => (frame.lin, frame.ang)) =
    [(0x3f800000, 0x40000000)] := by
  decide

end Sentinet.Network
