import Mathlib.Data.List.Induction
import Mathlib.Logic.Function.Basic
import Sentinet.Data.Run

namespace Sentinet.Network

open Sentinet.Data

/-! Publishers, the proxy and subscribers.  Messages have two frames, the topic
and the payload; sockets carry whole messages in order, and a subscription takes
the messages whose first frame begins with it. -/

abbrev Frame := List UInt8

/-- A publishing socket: the frames of the message that is not complete yet. -/
structure PubSocket where
  parts : List Frame

/-- A subscribing socket: what it subscribed to, and the messages that arrived,
without the frames already received of the first. -/
structure SubSocket where
  subscription : Frame
  queue : List (List Frame)

def PubSocket.sSendmore (socket : PubSocket) (string : Frame) : PubSocket :=
  { parts := socket.parts ++ [string] }

def PubSocket.sSend (socket : PubSocket) (string : Frame) : List Frame × PubSocket :=
  (socket.parts ++ [string], { parts := [] })

/-- `none` blocks. -/
def SubSocket.sRecv (socket : SubSocket) : Option (Frame × SubSocket) :=
  match socket.queue with
  | [] => none
  | [] :: _ => none
  | [frame] :: later => some (frame, { socket with queue := later })
  | (frame :: next :: parts) :: later =>
      some (frame, { socket with queue := (next :: parts) :: later })

/-- The filter of the transport. -/
def SubSocket.arrive (socket : SubSocket) (message : List Frame) : SubSocket :=
  if socket.subscription.isPrefixOf (message.headD []) then
    { socket with queue := socket.queue ++ [message] }
  else socket

/-- `ZMQ_POLLIN` -/
def SubSocket.pollin (socket : SubSocket) : Bool := !socket.queue.isEmpty

/-- What a publisher sends for one message. -/
def publishOn (socket : PubSocket) (topic message : Frame) : List Frame × PubSocket :=
  (socket.sSendmore topic).sSend message

def concurrentPublish (socket : PubSocket) (topic message : Frame) : List Frame × PubSocket :=
  publishOn socket topic message

/-- One turn of the loop of `periodic_publish_thread`. -/
def periodicPublish (socket : PubSocket) (topic data : Frame) : List Frame × PubSocket :=
  publishOn socket topic data

structure PubSubProxy where
  frontendSock : SubSocket
  backendSock : PubSocket
  addingFilter : Bool
  filters : List (Frame → Frame)

/-- `__spin__`, with the messages it sends on. -/
def PubSubProxy.spin (proxy : PubSubProxy) : Option (List (List Frame) × PubSubProxy) :=
  if proxy.frontendSock.pollin then do
    let (topic, frontendSock) ← proxy.frontendSock.sRecv
    let (req, frontendSock) ← frontendSock.sRecv
    let req := if !proxy.addingFilter then
      proxy.filters.foldl (fun req convert => convert req) req else req
    let (message, backendSock) := (proxy.backendSock.sSendmore topic).sSend req
    return ([message], { proxy with frontendSock, backendSock })
  else return ([], proxy)

/-- A subscription thread, with the strings its callback was given. -/
structure Subscriber where
  socket : SubSocket
  given : List Frame

/-- One turn of the loop of `subscription_thread`. -/
def Subscriber.turn (subscriber : Subscriber) : Option Subscriber :=
  if subscriber.socket.pollin then do
    let (_, socket) ← subscriber.socket.sRecv
    let (message, socket) ← socket.sRecv
    return { socket, given := subscriber.given ++ [message] }
  else return subscriber

def Subscriber.arrive (subscriber : Subscriber) (message : List Frame) : Subscriber :=
  { subscriber with socket := subscriber.socket.arrive message }

/-- Any number of periodic publishers and of subscribers around one proxy. -/
structure PubSub (κ ι : Type) where
  publishers : κ → PubSocket
  proxy : PubSubProxy
  subscribers : ι → Subscriber

inductive PubSubEvent (κ ι : Type) where
  | concurrentPublish (topic message : Frame)
  | periodicPublish (publisher : κ) (topic data : Frame)
  | spin
  | turn (subscriber : ι)

namespace PubSub

variable {κ ι : Type}

/-- A proxy without filters, and subscribers that connected to it. -/
def start (topics : ι → Frame) : PubSub κ ι :=
  { publishers := fun _ => { parts := [] }
    proxy :=
      { frontendSock := { subscription := [], queue := [] }, backendSock := { parts := [] }
        addingFilter := false, filters := [] }
    subscribers := fun subscriber =>
      { socket := { subscription := topics subscriber, queue := [] }, given := [] } }

def toProxy (system : PubSub κ ι) (message : List Frame) : PubSub κ ι :=
  { system with proxy := { system.proxy with
      frontendSock := system.proxy.frontendSock.arrive message } }

def toSubscribers (system : PubSub κ ι) (message : List Frame) : PubSub κ ι :=
  { system with subscribers := fun subscriber => (system.subscribers subscriber).arrive message }

variable [DecidableEq κ] [DecidableEq ι]

/-- A thread that blocks leaves everything as it is. -/
def step (system : PubSub κ ι) : PubSubEvent κ ι → PubSub κ ι
  | .concurrentPublish topic message =>
      system.toProxy (Network.concurrentPublish { parts := [] } topic message).1
  | .periodicPublish publisher topic data =>
      let (message, socket) := Network.periodicPublish (system.publishers publisher) topic data
      { system with publishers := Function.update system.publishers publisher socket }.toProxy message
  | .spin =>
      match system.proxy.spin with
      | some (messages, proxy) => messages.foldl toSubscribers { system with proxy }
      | none => system
  | .turn subscriber =>
      match (system.subscribers subscriber).turn with
      | some turned =>
          { system with subscribers := Function.update system.subscribers subscriber turned }
      | none => system

end PubSub

/-! What is under way. -/

/-- A topic and a payload as one message. -/
def envelope (sent : Frame × Frame) : List Frame := [sent.1, sent.2]

/-- The messages that a subscription to the topic takes. -/
def taken (topic : Frame) (sent : List (Frame × Frame)) : List Frame :=
  (sent.filter fun message => topic.isPrefixOf message.1).map Prod.snd

/-- A subscriber has given its callback the first part of what it has to, and
holds the rest. -/
def Subscriber.Holds (subscriber : Subscriber) (topic : Frame) (forwarded : List (Frame × Frame)) :
    Prop :=
  subscriber.socket.subscription = topic ∧ ∃ waiting : List (Frame × Frame),
    subscriber.socket.queue = waiting.map envelope ∧
      subscriber.given ++ waiting.map Prod.snd = taken topic forwarded

section Transit

variable {subscriber : Subscriber} {topic : Frame} {forwarded onward : List (Frame × Frame)}
  {sent : Frame × Frame} {proxy : PubSubProxy}

theorem taken_append (before after : List (Frame × Frame)) :
    taken topic (before ++ after) = taken topic before ++ taken topic after := by
  rw [taken, List.filter_append, List.map_append]
  rfl

theorem taken_singleton : taken topic [sent] =
    if topic.isPrefixOf sent.1 then [sent.2] else [] := by
  by_cases carried : topic.isPrefixOf sent.1 = true
  · simp [taken, carried]
  · simp [taken, carried]

theorem Subscriber.Holds.arrive (holds : subscriber.Holds topic forwarded) :
    (subscriber.arrive (envelope sent)).Holds topic (forwarded ++ [sent]) := by
  obtain ⟨rfl, waiting, queue, given⟩ := holds
  have head : (envelope sent).headD [] = sent.1 := rfl
  rw [Subscriber.arrive, SubSocket.arrive, head]
  by_cases carried : subscriber.socket.subscription.isPrefixOf sent.1 = true
  · rw [if_pos carried]
    refine ⟨rfl, waiting ++ [sent], ?_, ?_⟩
    · rw [List.map_append, ← queue]
      rfl
    · rw [List.map_append, ← List.append_assoc, given, taken_append, taken_singleton,
        if_pos carried]
      rfl
  · rw [if_neg carried]
    refine ⟨rfl, waiting, queue, ?_⟩
    rw [given, taken_append, taken_singleton, if_neg carried, List.append_nil]

/-- A turn never blocks; it gives the callback the message that waits first. -/
theorem Subscriber.Holds.turn (holds : subscriber.Holds topic forwarded) :
    ∃ turned, subscriber.turn = some turned ∧ turned.Holds topic forwarded ∧
      turned.socket.queue = subscriber.socket.queue.tail := by
  obtain ⟨⟨subscription, queue⟩, given⟩ := subscriber
  obtain ⟨subscribed, waiting, rfl, total⟩ := holds
  cases waiting with
  | nil => exact ⟨_, rfl, ⟨subscribed, [], rfl, total⟩, rfl⟩
  | cons first rest =>
      refine ⟨_, rfl, ⟨subscribed, rest, rfl, ?_⟩, rfl⟩
      rw [← total, List.map_cons, List.append_assoc]
      rfl

/-- A proxy between two turns: it has no filters and whole messages wait. -/
structure PubSubProxy.Waiting (proxy : PubSubProxy) (onward : List (Frame × Frame)) : Prop where
  filters : proxy.filters = []
  parts : proxy.backendSock.parts = []
  subscription : proxy.frontendSock.subscription = []
  queue : proxy.frontendSock.queue = onward.map envelope

theorem PubSubProxy.Waiting.arrive (waits : proxy.Waiting onward) (sent : Frame × Frame) :
    ({ proxy with frontendSock := proxy.frontendSock.arrive (envelope sent) } : PubSubProxy).Waiting
      (onward ++ [sent]) := by
  have everything : proxy.frontendSock.subscription.isPrefixOf ((envelope sent).headD []) = true := by
    rw [waits.subscription]
    rfl
  have arrived : proxy.frontendSock.arrive (envelope sent) =
      { proxy.frontendSock with queue := proxy.frontendSock.queue ++ [envelope sent] } := by
    rw [SubSocket.arrive, if_pos everything]
  rw [arrived]
  refine ⟨waits.filters, waits.parts, waits.subscription, ?_⟩
  rw [List.map_append, ← waits.queue]
  rfl

theorem PubSubProxy.Waiting.spin_nil (waits : proxy.Waiting []) :
    proxy.spin = some ([], proxy) := by
  have empty : proxy.frontendSock.pollin = false := by
    rw [SubSocket.pollin, waits.queue]
    rfl
  rw [PubSubProxy.spin, empty]
  rfl

/-- A turn sends on the first message as it came. -/
theorem PubSubProxy.Waiting.spin_cons (waits : proxy.Waiting (sent :: onward)) :
    ∃ after, proxy.spin = some ([envelope sent], after) ∧ after.Waiting onward := by
  obtain ⟨⟨subscription, queue⟩, ⟨parts⟩, addingFilter, filters⟩ := proxy
  obtain ⟨rfl, rfl, rfl, rfl⟩ := waits
  cases addingFilter with
  | false => exact ⟨_, rfl, rfl, rfl, rfl, rfl⟩
  | true => exact ⟨_, rfl, rfl, rfl, rfl, rfl⟩

end Transit

/-! Runs. -/

/-- The topics and payloads that the publishers sent. -/
def published {κ ι : Type} : List (PubSubEvent κ ι) → List (Frame × Frame)
  | [] => []
  | .concurrentPublish topic message :: rest => (topic, message) :: published rest
  | .periodicPublish _ topic data :: rest => (topic, data) :: published rest
  | .spin :: rest => published rest
  | .turn _ :: rest => published rest

namespace PubSub

/-- Between two events every message is whole, and is with the proxy or has been
forwarded. -/
structure InTransit {κ ι : Type} (system : PubSub κ ι) (topics : ι → Frame)
    (forwarded onward : List (Frame × Frame)) : Prop where
  publishers : ∀ publisher, (system.publishers publisher).parts = []
  proxy : system.proxy.Waiting onward
  subscribers : ∀ subscriber, (system.subscribers subscriber).Holds (topics subscriber) forwarded

section Runs

variable {κ ι : Type} {system : PubSub κ ι} {topics : ι → Frame}
  {forwarded onward : List (Frame × Frame)} {sent : Frame × Frame}

theorem published_append (before after : List (PubSubEvent κ ι)) :
    published (before ++ after) = published before ++ published after := by
  induction before with
  | nil => rfl
  | cons event rest ih =>
      cases event with
      | concurrentPublish topic message => exact congrArg ((topic, message) :: ·) ih
      | periodicPublish publisher topic data => exact congrArg ((topic, data) :: ·) ih
      | spin => exact ih
      | turn subscriber => exact ih

theorem start_inTransit : InTransit (start topics : PubSub κ ι) topics [] [] :=
  ⟨fun _ => rfl, ⟨rfl, rfl, rfl, rfl⟩, fun _ => ⟨rfl, [], rfl, rfl⟩⟩

theorem InTransit.toProxy (transit : system.InTransit topics forwarded onward)
    (sent : Frame × Frame) :
    (system.toProxy (envelope sent)).InTransit topics forwarded (onward ++ [sent]) :=
  ⟨transit.publishers, transit.proxy.arrive sent, transit.subscribers⟩

/-- What a subscriber was given and what it still holds is what was forwarded. -/
theorem InTransit.given (transit : system.InTransit topics forwarded onward) (subscriber : ι) :
    (system.subscribers subscriber).given <+: taken (topics subscriber) forwarded ∧
      ((system.subscribers subscriber).socket.queue = [] →
        (system.subscribers subscriber).given = taken (topics subscriber) forwarded) ∧
      (system.subscribers subscriber).socket.queue.length ≤ forwarded.length := by
  obtain ⟨_, waiting, queue, total⟩ := transit.subscribers subscriber
  refine ⟨⟨waiting.map Prod.snd, total⟩, ?_, ?_⟩
  · intro empty
    rw [empty] at queue
    obtain rfl := List.map_eq_nil_iff.mp queue.symm
    simpa using total
  · have lengths := congrArg List.length total
    have bound : (taken (topics subscriber) forwarded).length ≤ forwarded.length := by
      rw [taken, List.length_map]
      exact List.length_filter_le _ _
    rw [List.length_append, List.length_map] at lengths
    rw [queue, List.length_map]
    omega

variable [DecidableEq κ] [DecidableEq ι]

theorem InTransit.concurrentPublish (transit : system.InTransit topics forwarded onward)
    (topic message : Frame) :
    (system.step (.concurrentPublish topic message)).InTransit topics forwarded
      (onward ++ [(topic, message)]) :=
  transit.toProxy (topic, message)

theorem InTransit.periodicPublish (transit : system.InTransit topics forwarded onward)
    (publisher : κ) (topic data : Frame) :
    (system.step (.periodicPublish publisher topic data)).InTransit topics forwarded
      (onward ++ [(topic, data)]) := by
  have whole : Network.periodicPublish (system.publishers publisher) topic data =
      (envelope (topic, data), { parts := [] }) := by
    rw [Network.periodicPublish, publishOn, PubSocket.sSendmore, transit.publishers publisher]
    rfl
  let publishers := Function.update system.publishers publisher { parts := [] }
  have idle : ({ system with publishers } : PubSub κ ι).InTransit topics forwarded onward := by
    refine ⟨?_, transit.proxy, transit.subscribers⟩
    rw [Function.forall_update_iff system.publishers fun _ socket => socket.parts = []]
    exact ⟨rfl, fun other _ => transit.publishers other⟩
  simp only [PubSub.step, whole]
  exact idle.toProxy (topic, data)

theorem InTransit.spin_nil (transit : system.InTransit topics forwarded []) :
    system.step .spin = system := by
  simp only [step, transit.proxy.spin_nil, List.foldl_nil]

theorem InTransit.spin_cons (transit : system.InTransit topics forwarded (sent :: onward)) :
    (system.step .spin).InTransit topics (forwarded ++ [sent]) onward := by
  obtain ⟨after, spun, waits⟩ := transit.proxy.spin_cons
  simp only [step, spun, List.foldl_cons, List.foldl_nil]
  exact ⟨transit.publishers, waits, fun subscriber => (transit.subscribers subscriber).arrive⟩

theorem InTransit.turn (transit : system.InTransit topics forwarded onward) (subscriber : ι) :
    (system.step (.turn subscriber)).InTransit topics forwarded onward ∧
      ((system.step (.turn subscriber)).subscribers subscriber).socket.queue =
        (system.subscribers subscriber).socket.queue.tail := by
  obtain ⟨turned, found, holds, queue⟩ := (transit.subscribers subscriber).turn
  simp only [step, found]
  refine ⟨⟨transit.publishers, transit.proxy, ?_⟩, ?_⟩
  · rw [Function.forall_update_iff system.subscribers fun other state =>
      state.Holds (topics other) forwarded]
    exact ⟨holds, fun other _ => transit.subscribers other⟩
  · rw [Function.update_self]
    exact queue

theorem InTransit.step (transit : system.InTransit topics forwarded onward)
    (event : PubSubEvent κ ι) :
    ∃ forwarded' onward', (system.step event).InTransit topics forwarded' onward' ∧
      forwarded' ++ onward' = forwarded ++ onward ++ published [event] := by
  cases event with
  | concurrentPublish topic message =>
      exact ⟨_, _, transit.concurrentPublish topic message, (List.append_assoc _ _ _).symm⟩
  | periodicPublish publisher topic data =>
      exact ⟨_, _, transit.periodicPublish publisher topic data, (List.append_assoc _ _ _).symm⟩
  | spin =>
      cases onward with
      | nil =>
          rw [transit.spin_nil]
          exact ⟨_, _, transit, (List.append_nil _).symm⟩
      | cons sent later =>
          refine ⟨_, _, transit.spin_cons, ?_⟩
          simp only [published, List.append_nil, List.append_assoc, List.singleton_append]
  | turn subscriber =>
      exact ⟨_, _, (transit.turn subscriber).1, (List.append_nil _).symm⟩

theorem run_inTransit (topics : ι → Frame) (events : List (PubSubEvent κ ι)) :
    ∃ forwarded onward, (Run.final PubSub.step (start topics) events).InTransit topics
        forwarded onward ∧ forwarded ++ onward = published events := by
  induction events using List.reverseRecOn with
  | nil => exact ⟨[], [], start_inTransit, rfl⟩
  | append_singleton events event ih =>
      obtain ⟨forwarded, onward, transit, total⟩ := ih
      obtain ⟨forwarded', onward', next, total'⟩ := transit.step event
      rw [Run.final_append]
      refine ⟨forwarded', onward', next, ?_⟩
      rw [total', total, published_append]

/-- Nothing is under way to the subscriber. -/
def Quiet (system : PubSub κ ι) (subscriber : ι) : Prop :=
  system.proxy.frontendSock.queue = [] ∧ (system.subscribers subscriber).socket.queue = []

theorem InTransit.spins (transit : system.InTransit topics forwarded onward) {turns : Nat}
    (enough : onward.length ≤ turns) :
    (Run.final PubSub.step system (List.replicate turns .spin)).InTransit topics
      (forwarded ++ onward) [] := by
  induction turns generalizing system forwarded onward with
  | zero =>
      obtain rfl := List.length_eq_zero_iff.mp (Nat.le_zero.mp enough)
      rw [List.append_nil]
      exact transit
  | succ turns ih =>
      rw [List.replicate_succ, Run.final_cons]
      cases onward with
      | nil =>
          rw [transit.spin_nil]
          exact ih transit (Nat.zero_le _)
      | cons sent later =>
          have next := ih transit.spin_cons (Nat.le_of_succ_le_succ enough)
          rwa [List.append_assoc] at next

theorem InTransit.turns (transit : system.InTransit topics forwarded onward) {subscriber : ι}
    {turns : Nat} (enough : (system.subscribers subscriber).socket.queue.length ≤ turns) :
    (Run.final PubSub.step system (List.replicate turns (.turn subscriber))).InTransit topics
        forwarded onward ∧
      ((Run.final PubSub.step system (List.replicate turns (.turn subscriber))).subscribers
        subscriber).socket.queue = [] := by
  induction turns generalizing system with
  | zero => exact ⟨transit, List.length_eq_zero_iff.mp (Nat.le_zero.mp enough)⟩
  | succ turns ih =>
      obtain ⟨next, queue⟩ := transit.turn subscriber
      rw [List.replicate_succ, Run.final_cons]
      refine ih next ?_
      rw [queue, List.length_tail]
      omega

end Runs

end PubSub

/-- The payloads of a topic are all that a subscription to it takes exactly when
no topic that was sent goes on behind it. -/
theorem taken_eq_iff (topic : Frame) (sent : List (Frame × Frame)) :
    taken topic sent = (sent.filter fun message => message.1 == topic).map Prod.snd ↔
      ∀ message ∈ sent, topic <+: message.1 → message.1 = topic := by
  have weaker (message : Frame × Frame) (same : (message.1 == topic) = true) :
      topic.isPrefixOf message.1 = true := by
    rw [eq_of_beq same]
    exact List.isPrefixOf_iff_prefix.mpr (List.prefix_refl _)
  have sublist := List.monotone_filter_right sent weaker
  constructor
  · intro same message member carried
    have lengths := congrArg List.length same
    rw [taken, List.length_map, List.length_map] at lengths
    have listed : message ∈ sent.filter fun message => topic.isPrefixOf message.1 :=
      List.mem_filter.mpr ⟨member, List.isPrefixOf_iff_prefix.mpr carried⟩
    rw [← sublist.eq_of_length lengths.symm] at listed
    exact eq_of_beq (List.mem_filter.mp listed).2
  · intro only
    rw [taken]
    refine congrArg (List.map Prod.snd) (List.filter_congr fun message member => ?_)
    rw [Bool.eq_iff_iff, List.isPrefixOf_iff_prefix, beq_iff_eq]
    exact ⟨only message member, fun same => same ▸ List.prefix_refl _⟩

section Isolation

variable {κ ι : Type} [DecidableEq κ] [DecidableEq ι]

/-- The callback of a subscriber is given the payloads of the topics that begin
with its own, in order and each once; those are the payloads of its own topic
exactly when no other topic begins with it. -/
theorem subscriber_given (topics : ι → Frame) (events : List (PubSubEvent κ ι)) (subscriber : ι) :
    let system := Run.final PubSub.step (PubSub.start topics) events
    let drained := fun extra => Run.final PubSub.step system
      (List.replicate ((published events).length + extra) .spin ++
        List.replicate ((published events).length + extra) (.turn subscriber))
    (system.subscribers subscriber).given <+: taken (topics subscriber) (published events) ∧
      (system.Quiet subscriber →
        (system.subscribers subscriber).given = taken (topics subscriber) (published events)) ∧
      (∀ extra, (drained extra).Quiet subscriber ∧ ((drained extra).subscribers subscriber).given =
        taken (topics subscriber) (published events)) ∧
      (taken (topics subscriber) (published events) =
          ((published events).filter fun sent => sent.1 == topics subscriber).map Prod.snd ↔
        ∀ sent ∈ published events, topics subscriber <+: sent.1 → sent.1 = topics subscriber) := by
  intro system drained
  obtain ⟨forwarded, onward, transit, total⟩ := PubSub.run_inTransit topics events
  refine ⟨?_, ?_, ?_, taken_eq_iff _ _⟩
  · rw [← total, taken_append]
    exact (transit.given subscriber).1.trans (List.prefix_append _ _)
  · intro quiet
    have none : onward = [] := List.map_eq_nil_iff.mp (transit.proxy.queue.symm.trans quiet.1)
    rw [none, List.append_nil] at total
    rw [← total]
    exact (transit.given subscriber).2.1 quiet.2
  · intro extra
    have lengths := congrArg List.length total
    rw [List.length_append] at lengths
    have enough : onward.length ≤ (published events).length + extra := by omega
    have spun := transit.spins enough
    rw [total] at spun
    obtain ⟨turned, empty⟩ := spun.turns
      (Nat.le_trans (spun.given subscriber).2.2 (Nat.le_add_right _ extra))
    rw [← Run.final_append] at turned empty
    exact ⟨⟨turned.proxy.queue, empty⟩, (turned.given subscriber).2.1 empty⟩

end Isolation

def cmdTopic : Frame := [99, 109, 100]
def cmdVelTopic : Frame := cmdTopic ++ [95, 118, 101, 108]

/-- One message for `cmd_vel` on its way to a subscriber of `cmd`. -/
def foreignEvents : List (PubSubEvent Unit Unit) :=
  [.concurrentPublish cmdVelTopic [1, 2, 3], .spin, .turn ()]

theorem subscriber_given_foreign :
    ((Run.final PubSub.step (PubSub.start fun _ : Unit => cmdTopic) foreignEvents).subscribers
        ()).given = taken cmdTopic (published foreignEvents) :=
  (subscriber_given (fun _ => cmdTopic) foreignEvents ()).2.1 ⟨rfl, rfl⟩

/-- The callback of `cmd` is given a payload of `cmd_vel`. -/
theorem foreign_payload_given :
    ((Run.final PubSub.step (PubSub.start fun _ : Unit => cmdTopic) foreignEvents).subscribers
        ()).given = [[1, 2, 3]] ∧
      (Run.final PubSub.step (PubSub.start fun _ : Unit => cmdTopic) foreignEvents).Quiet () ∧
      ((Run.final PubSub.step (PubSub.start fun _ : Unit => cmdTopic) foreignEvents).subscribers
          ()).given ≠
        ((published foreignEvents).filter fun sent => sent.1 == cmdTopic).map Prod.snd :=
  ⟨by decide, ⟨rfl, rfl⟩, by decide⟩

end Sentinet.Network
