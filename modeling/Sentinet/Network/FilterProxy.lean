import Sentinet.Data.FilterChain
import Sentinet.Network.PubSub

namespace Sentinet.Network

open Sentinet.Data

/-! A proxy that forwards through filters with a state of their own, and `add_filter`,
which another thread calls while messages pass. -/

variable {κ ι φ : Type}

/-- The two frames of a message. -/
def SubSocket.receive (socket : SubSocket) : Option ((Frame × Frame) × SubSocket) := do
  let (topic, socket) ← socket.sRecv
  let (req, socket) ← socket.sRecv
  return ((topic, req), socket)

/-- `ZMQPubSubProxy` with the filters of its base. -/
structure FilterProxy (φ : Type) where
  frontendSock : SubSocket
  backendSock : PubSocket
  addingFilter : Bool
  filters : List φ

/-- `__spin__`; what `convert` returns besides the string is the filter after it. -/
def FilterProxy.spin (convert : φ → Frame → Frame × φ) (proxy : FilterProxy φ) :
    Option (List (List Frame) × FilterProxy φ) :=
  if proxy.frontendSock.pollin then do
    let (topic, frontendSock) ← proxy.frontendSock.sRecv
    let (req, frontendSock) ← frontendSock.sRecv
    if !proxy.addingFilter then
      let (req, filters) := FilterChain.convertEach convert proxy.filters req
      let (message, backendSock) := (proxy.backendSock.sSendmore topic).sSend req
      return ([message], { proxy with frontendSock, backendSock, filters })
    else
      let (message, backendSock) := (proxy.backendSock.sSendmore topic).sSend req
      return ([message], { proxy with frontendSock, backendSock })
  else return ([], proxy)

/-- What a call of `add_filter` does next. -/
inductive AddPoint (φ : Type) where
  | idle
  | pushBack (filter : φ)
  | clearFlag

structure FilteredPubSub (κ ι φ : Type) where
  publishers : κ → PubSocket
  proxy : FilterProxy φ
  adding : AddPoint φ
  subscribers : ι → Subscriber

inductive FilteredEvent (κ ι φ : Type) where
  | concurrentPublish (topic message : Frame)
  | periodicPublish (publisher : κ) (topic data : Frame)
  | spin
  | turn (subscriber : ι)
  | addFilter (filter : φ)
  | addTurn

def FilteredEvent.publishes : FilteredEvent κ ι φ → List (Frame × Frame)
  | .concurrentPublish topic message => [(topic, message)]
  | .periodicPublish _ topic data => [(topic, data)]
  | _ => []

def FilteredEvent.Adds : FilteredEvent κ ι φ → Prop
  | .addFilter _ => True
  | _ => False

/-- A message that the proxy took, and `adding_filter` as it read it then. -/
structure Handled where
  topic : Frame
  req : Frame
  adding : Bool

def Handled.sent (handled : Handled) : Frame × Frame := (handled.topic, handled.req)

/-- A filter leaves alone what was taken while a filter was being added. -/
def convertHandled (convert : φ → Frame → Frame × φ) (filter : φ) (handled : Handled) :
    Handled × φ :=
  if handled.adding then (handled, filter)
  else
    let (req, filter) := convert filter handled.req
    ({ handled with req }, filter)

namespace FilteredPubSub

def start (topics : ι → Frame) : FilteredPubSub κ ι φ :=
  { publishers := fun _ => { parts := [] }
    proxy :=
      { frontendSock := { subscription := [], queue := [] }, backendSock := { parts := [] }
        addingFilter := false, filters := [] }
    adding := .idle
    subscribers := fun subscriber =>
      { socket := { subscription := topics subscriber, queue := [] }, given := [] } }

def toProxy (system : FilteredPubSub κ ι φ) (message : List Frame) : FilteredPubSub κ ι φ :=
  { system with proxy := { system.proxy with
      frontendSock := system.proxy.frontendSock.arrive message } }

def toSubscribers (system : FilteredPubSub κ ι φ) (message : List Frame) :
    FilteredPubSub κ ι φ :=
  { system with subscribers := fun subscriber => (system.subscribers subscriber).arrive message }

/-- `adding_filter = true`, when no call is under way: calls come one after another. -/
def addFilter (system : FilteredPubSub κ ι φ) (filter : φ) : FilteredPubSub κ ι φ :=
  match system.adding with
  | .idle =>
      { system with
        proxy := { system.proxy with addingFilter := true }, adding := .pushBack filter }
  | _ => system

/-- The rest of a call, one statement at a time. -/
def addTurn (system : FilteredPubSub κ ι φ) : FilteredPubSub κ ι φ :=
  match system.adding with
  | .idle => system
  | .pushBack filter =>
      { system with
        proxy := { system.proxy with filters := system.proxy.filters ++ [filter] }
        adding := .clearFlag }
  | .clearFlag =>
      { system with proxy := { system.proxy with addingFilter := false }, adding := .idle }

variable [DecidableEq κ] [DecidableEq ι]

def step (convert : φ → Frame → Frame × φ) (system : FilteredPubSub κ ι φ) :
    FilteredEvent κ ι φ → FilteredPubSub κ ι φ
  | .concurrentPublish topic message =>
      system.toProxy (Network.concurrentPublish { parts := [] } topic message).1
  | .periodicPublish publisher topic data =>
      let (message, socket) := Network.periodicPublish (system.publishers publisher) topic data
      { system with publishers := Function.update system.publishers publisher socket }.toProxy message
  | .spin =>
      match system.proxy.spin convert with
      | some (messages, proxy) => messages.foldl toSubscribers { system with proxy }
      | none => system
  | .turn subscriber =>
      match (system.subscribers subscriber).turn with
      | some turned =>
          { system with subscribers := Function.update system.subscribers subscriber turned }
      | none => system
  | .addFilter filter => system.addFilter filter
  | .addTurn => system.addTurn

/-- What an event does to the filters: a message goes through, or one is installed. -/
def streams (system : FilteredPubSub κ ι φ) :
    FilteredEvent κ ι φ → List (StreamEvent φ Handled)
  | .spin =>
      match system.proxy.frontendSock.receive with
      | some ((topic, req), _) => [.pass { topic, req, adding := system.proxy.addingFilter }]
      | none => []
  | .addTurn =>
      match system.adding with
      | .pushBack filter => [.install filter]
      | _ => []
  | _ => []

def stream (convert : φ → Frame → Frame × φ) (system : FilteredPubSub κ ι φ) :
    List (FilteredEvent κ ι φ) → List (StreamEvent φ Handled)
  | [] => []
  | event :: rest => system.streams event ++ stream convert (system.step convert event) rest

end FilteredPubSub

section Convert

variable {convert : φ → Frame → Frame × φ} {topic req : Frame}

theorem convertEach_adding (filters : List φ) :
    FilterChain.convertEach (convertHandled convert) filters { topic, req, adding := true } =
      ({ topic, req, adding := true }, filters) := by
  induction filters with
  | nil => rfl
  | cons filter rest ih => simp only [FilterChain.convertEach, convertHandled, if_true, ih]

theorem convertEach_settled (filters : List φ) :
    FilterChain.convertEach (convertHandled convert) filters { topic, req, adding := false } =
      ({ topic, req := (FilterChain.convertEach convert filters req).1, adding := false },
        (FilterChain.convertEach convert filters req).2) := by
  induction filters generalizing req with
  | nil => rfl
  | cons filter rest ih =>
      simp only [FilterChain.convertEach, convertHandled, Bool.false_eq_true, if_false, ih]

theorem convertHandled_kept (convert : φ → Frame → Frame × φ) (filter : φ) (handled : Handled) :
    (convertHandled convert filter handled).1.topic = handled.topic ∧
      (convertHandled convert filter handled).1.adding = handled.adding := by
  rw [convertHandled]
  split <;> exact ⟨rfl, rfl⟩

/-- Without a state of their own the filters are those of `PubSubProxy`. -/
theorem spin_stateless (proxy : PubSubProxy) :
    FilterProxy.spin (fun filter req => (filter req, filter))
        { frontendSock := proxy.frontendSock, backendSock := proxy.backendSock
          addingFilter := proxy.addingFilter, filters := proxy.filters } =
      proxy.spin.map fun result => (result.1,
        { frontendSock := result.2.frontendSock, backendSock := result.2.backendSock
          addingFilter := result.2.addingFilter, filters := result.2.filters }) := by
  have each (filters : List (Frame → Frame)) (req : Frame) :
      FilterChain.convertEach (fun filter req => (filter req, filter)) filters req =
        (filters.foldl (fun req convert => convert req) req, filters) := by
    induction filters generalizing req with
    | nil => rfl
    | cons filter rest ih => simp only [FilterChain.convertEach, ih, List.foldl_cons]
  rw [FilterProxy.spin, PubSubProxy.spin]
  cases proxy.frontendSock.pollin with
  | false => rfl
  | true =>
      dsimp only
      cases first : proxy.frontendSock.sRecv with
      | none => rfl
      | some received =>
          obtain ⟨topic, frontendSock⟩ := received
          cases second : frontendSock.sRecv with
          | none => simp [second]
          | some received =>
              obtain ⟨req, frontendSock⟩ := received
              cases proxy.addingFilter <;> simp [second, each]

end Convert

namespace FilteredPubSub

/-- What was forwarded came out of the row of filters, and what was published since
waits with the proxy; the flag is set while a call of `add_filter` is under way. -/
structure Follows (system : FilteredPubSub κ ι φ) (topics : ι → Frame)
    (chain : FilterChain φ Handled) (onward : List (Frame × Frame)) : Prop where
  publishers : ∀ publisher, (system.publishers publisher).parts = []
  parts : system.proxy.backendSock.parts = []
  subscription : system.proxy.frontendSock.subscription = []
  queue : system.proxy.frontendSock.queue = onward.map envelope
  filters : system.proxy.filters = chain.filters
  flag : system.proxy.addingFilter = true ↔ system.adding ≠ .idle
  subscribers : ∀ subscriber,
    (system.subscribers subscriber).Holds (topics subscriber) (chain.out.map Handled.sent)

section Steps

variable {convert : φ → Frame → Frame × φ} {system : FilteredPubSub κ ι φ} {topics : ι → Frame}
  {chain : FilterChain φ Handled} {onward : List (Frame × Frame)} {sent : Frame × Frame}

theorem start_follows (topics : ι → Frame) :
    Follows (start topics : FilteredPubSub κ ι φ) topics .empty [] :=
  ⟨fun _ => rfl, rfl, rfl, rfl, rfl, by simp [start], fun _ => ⟨rfl, [], rfl, rfl⟩⟩

theorem Follows.toProxy (follows : system.Follows topics chain onward) (sent : Frame × Frame) :
    (system.toProxy (envelope sent)).Follows topics chain (onward ++ [sent]) := by
  have everything : system.proxy.frontendSock.subscription.isPrefixOf ((envelope sent).headD []) =
      true := by
    rw [follows.subscription]
    rfl
  have arrived : system.proxy.frontendSock.arrive (envelope sent) =
      { system.proxy.frontendSock with
        queue := system.proxy.frontendSock.queue ++ [envelope sent] } := by
    rw [SubSocket.arrive, if_pos everything]
  rw [FilteredPubSub.toProxy, arrived]
  refine ⟨follows.publishers, follows.parts, follows.subscription, ?_, follows.filters,
    follows.flag, follows.subscribers⟩
  rw [List.map_append, ← follows.queue]
  rfl

theorem Follows.addFilter (follows : system.Follows topics chain onward) (filter : φ) :
    (system.addFilter filter).Follows topics chain onward := by
  unfold FilteredPubSub.addFilter
  split
  · exact ⟨follows.publishers, follows.parts, follows.subscription, follows.queue, follows.filters,
      by simp, follows.subscribers⟩
  · exact follows

theorem Follows.addTurn (follows : system.Follows topics chain onward) :
    system.addTurn.Follows topics
      (Run.final (FilterChain.step (convertHandled convert)) chain (system.streams .addTurn))
      onward := by
  cases adding : system.adding with
  | idle =>
      simp only [FilteredPubSub.addTurn, streams, adding]
      exact follows
  | pushBack filter =>
      have set : system.proxy.addingFilter = true := follows.flag.mpr (by simp [adding])
      simp only [FilteredPubSub.addTurn, streams, adding, Run.final_cons, Run.final_nil,
        FilterChain.step, follows.filters]
      exact ⟨follows.publishers, follows.parts, follows.subscription, follows.queue, rfl,
        by simp [set], follows.subscribers⟩
  | clearFlag =>
      simp only [FilteredPubSub.addTurn, streams, adding]
      exact ⟨follows.publishers, follows.parts, follows.subscription, follows.queue, follows.filters,
        by simp, follows.subscribers⟩

variable [DecidableEq κ] [DecidableEq ι]

theorem Follows.periodicPublish (follows : system.Follows topics chain onward)
    (publisher : κ) (topic data : Frame) :
    (system.step convert (.periodicPublish publisher topic data)).Follows topics chain
      (onward ++ [(topic, data)]) := by
  have whole : Network.periodicPublish (system.publishers publisher) topic data =
      (envelope (topic, data), { parts := [] }) := by
    rw [Network.periodicPublish, publishOn, PubSocket.sSendmore, follows.publishers publisher]
    rfl
  let publishers := Function.update system.publishers publisher { parts := [] }
  have idle : ({ system with publishers } : FilteredPubSub κ ι φ).Follows topics chain onward := by
    refine ⟨?_, follows.parts, follows.subscription, follows.queue, follows.filters, follows.flag,
      follows.subscribers⟩
    rw [Function.forall_update_iff system.publishers fun _ socket => socket.parts = []]
    exact ⟨rfl, fun other _ => follows.publishers other⟩
  simp only [FilteredPubSub.step, whole]
  exact idle.toProxy (topic, data)

theorem Follows.spin_nil (convert : φ → Frame → Frame × φ)
    (follows : system.Follows topics chain []) :
    system.step convert .spin = system ∧ system.streams .spin = [] := by
  have empty : system.proxy.frontendSock.queue = [] := follows.queue
  have idle : system.proxy.frontendSock.pollin = false := by
    rw [SubSocket.pollin, empty]
    rfl
  have spun : system.proxy.spin convert = some ([], system.proxy) := by
    rw [FilterProxy.spin, idle]
    rfl
  have none_received : system.proxy.frontendSock.receive = none := by
    rw [SubSocket.receive, SubSocket.sRecv, empty]
    rfl
  exact ⟨by simp only [step, spun, List.foldl_nil], by simp only [streams, none_received]⟩

/-- A turn converts the first message, or sends it on as it came when it reads that a
filter is being added. -/
theorem Follows.spin_cons (convert : φ → Frame → Frame × φ)
    (follows : system.Follows topics chain (sent :: onward)) :
    let handled : Handled :=
      { topic := sent.1, req := sent.2, adding := system.proxy.addingFilter }
    system.streams .spin = [.pass handled] ∧
      (system.step convert .spin).Follows topics
        (chain.step (convertHandled convert) (.pass handled)) onward := by
  intro handled
  obtain ⟨publishers, ⟨⟨subscription, queue⟩, ⟨parts⟩, addingFilter, filters⟩, adding,
    subscribers⟩ := system
  obtain ⟨idle, rfl, rfl, rfl, rfl, flag, holds⟩ := follows
  refine ⟨rfl, ?_⟩
  have arrived (payload : Frame) (subscriber : ι) :
      ((subscribers subscriber).arrive (envelope (sent.1, payload))).Holds (topics subscriber)
        (chain.out.map Handled.sent ++ [(sent.1, payload)]) := (holds subscriber).arrive
  cases addingFilter with
  | false =>
      simp only [FilterChain.step, handled, convertEach_settled]
      refine ⟨idle, rfl, rfl, rfl, rfl, flag, fun subscriber => ?_⟩
      rw [List.map_append]
      exact arrived (FilterChain.convertEach convert chain.filters sent.2).1 subscriber
  | true =>
      simp only [FilterChain.step, handled, convertEach_adding]
      refine ⟨idle, rfl, rfl, rfl, rfl, flag, fun subscriber => ?_⟩
      rw [List.map_append]
      exact arrived sent.2 subscriber

theorem Follows.turn (follows : system.Follows topics chain onward) (subscriber : ι) :
    (system.step convert (.turn subscriber)).Follows topics chain onward := by
  obtain ⟨turned, found, holds, _⟩ := (follows.subscribers subscriber).turn
  simp only [FilteredPubSub.step, found]
  refine ⟨follows.publishers, follows.parts, follows.subscription, follows.queue, follows.filters,
    follows.flag, ?_⟩
  rw [Function.forall_update_iff system.subscribers fun other state =>
    state.Holds (topics other) (chain.out.map Handled.sent)]
  exact ⟨holds, fun other _ => follows.subscribers other⟩

theorem Follows.step (follows : system.Follows topics chain onward)
    (event : FilteredEvent κ ι φ) :
    ∃ onward', (system.step convert event).Follows topics
        (Run.final (FilterChain.step (convertHandled convert)) chain (system.streams event)) onward' ∧
      (FilterChain.messages (system.streams event)).map Handled.sent ++ onward' =
        onward ++ event.publishes := by
  cases event with
  | concurrentPublish topic message => exact ⟨_, follows.toProxy (topic, message), rfl⟩
  | periodicPublish publisher topic data => exact ⟨_, follows.periodicPublish publisher topic data, rfl⟩
  | spin =>
      cases onward with
      | nil =>
          obtain ⟨same, nothing⟩ := follows.spin_nil convert
          rw [same, nothing]
          exact ⟨[], follows, rfl⟩
      | cons sent later =>
          obtain ⟨handled, next⟩ := follows.spin_cons convert
          rw [handled]
          refine ⟨later, next, ?_⟩
          simp [FilterChain.messages, Handled.sent, FilteredEvent.publishes]
  | turn subscriber => exact ⟨onward, follows.turn subscriber, (List.append_nil _).symm⟩
  | addFilter filter => exact ⟨onward, follows.addFilter filter, (List.append_nil _).symm⟩
  | addTurn =>
      refine ⟨onward, follows.addTurn, ?_⟩
      have silent : FilterChain.messages (system.streams .addTurn) = [] := by
        simp only [streams]
        split <;> rfl
      rw [silent]
      exact (List.append_nil _).symm

theorem run_follows (convert : φ → Frame → Frame × φ) (events : List (FilteredEvent κ ι φ))
    {system : FilteredPubSub κ ι φ} {chain : FilterChain φ Handled} {onward : List (Frame × Frame)}
    (follows : system.Follows topics chain onward) :
    ∃ onward', (Run.final (step convert) system events).Follows topics
        (Run.final (FilterChain.step (convertHandled convert)) chain (stream convert system events))
        onward' ∧
      (FilterChain.messages (stream convert system events)).map Handled.sent ++ onward' =
        onward ++ events.flatMap FilteredEvent.publishes := by
  induction events generalizing system chain onward with
  | nil => exact ⟨onward, follows, (List.append_nil _).symm⟩
  | cons event rest ih =>
      obtain ⟨between, next, first⟩ := follows.step event
      obtain ⟨onward', final, later⟩ := ih next
      refine ⟨onward', ?_, ?_⟩
      · rw [stream, Run.final_append]
        exact final
      · rw [stream, FilterChain.messages_append, List.map_append, List.append_assoc, later,
          ← List.append_assoc, first, List.append_assoc, List.flatMap_cons]

end Steps

end FilteredPubSub

section Converted

/-- What a subscriber was given is a part of what it has to be, and all once nothing
waits. -/
theorem Subscriber.Holds.given {subscriber : Subscriber} {topic : Frame}
    {forwarded : List (Frame × Frame)} (holds : subscriber.Holds topic forwarded) :
    subscriber.given <+: taken topic forwarded ∧
      (subscriber.socket.queue = [] → subscriber.given = taken topic forwarded) := by
  obtain ⟨_, waiting, queue, total⟩ := holds
  refine ⟨⟨waiting.map Prod.snd, total⟩, fun empty => ?_⟩
  obtain rfl := List.map_eq_nil_iff.mp (queue.symm.trans empty)
  simpa using total

/-- The filters change neither the topics nor which messages they leave alone. -/
theorem convertAll_kept (convert : φ → Frame → Frame × φ)
    (installed : List (FilterChain.Installed φ)) (messages : List Handled) :
    (FilterChain.convertAll (convertHandled convert) installed messages).map
        (fun handled => (handled.topic, handled.adding)) =
      messages.map fun handled => (handled.topic, handled.adding) := by
  have outputs (filter : φ) (messages : List Handled) :
      (Run.outputs (convertHandled convert) filter messages).map
          (fun handled => (handled.topic, handled.adding)) =
        messages.map fun handled => (handled.topic, handled.adding) := by
    induction messages generalizing filter with
    | nil => rfl
    | cons handled rest ih =>
        obtain ⟨topic, adding⟩ := convertHandled_kept convert filter handled
        rw [Run.outputs, List.map_cons, ih, topic, adding, List.map_cons]
  induction installed generalizing messages with
  | nil => rfl
  | cons first later ih =>
      rw [FilterChain.convertAll, List.foldl_cons, ← FilterChain.convertAll, ih,
        FilterChain.convertAfter, List.map_append, outputs, ← List.map_append, List.take_append_drop]

end Converted

/-! One call of `add_filter`. -/

namespace FilteredPubSub

variable {convert : φ → Frame → Frame × φ} {system : FilteredPubSub κ ι φ}
  {event : FilteredEvent κ ι φ} {events : List (FilteredEvent κ ι φ)} {filter : φ}

theorem toSubscribers_flag (system : FilteredPubSub κ ι φ) (messages : List (List Frame)) :
    (messages.foldl toSubscribers system).adding = system.adding ∧
      (messages.foldl toSubscribers system).proxy = system.proxy := by
  induction messages generalizing system with
  | nil => exact ⟨rfl, rfl⟩
  | cons message rest ih => exact ih (system.toSubscribers message)

theorem spin_flag {proxy after : FilterProxy φ} {messages : List (List Frame)}
    (spun : proxy.spin convert = some (messages, after)) :
    after.addingFilter = proxy.addingFilter := by
  unfold FilterProxy.spin at spun
  split at spun
  · simp only [Option.bind_eq_bind, Option.bind_eq_some_iff] at spun
    obtain ⟨_, _, _, _, spun⟩ := spun
    split at spun <;> (cases spun; rfl)
  · cases spun
    rfl

variable [DecidableEq κ] [DecidableEq ι]

/-- Only `add_filter` itself moves on a call of it. -/
theorem step_adding (convert : φ → Frame → Frame × φ) (system : FilteredPubSub κ ι φ)
    (quiet : ¬event.Adds) (other : event ≠ .addTurn) :
    (system.step convert event).adding = system.adding ∧
      (system.step convert event).proxy.addingFilter = system.proxy.addingFilter ∧
      FilterChain.installs (system.streams event) = [] := by
  cases event with
  | concurrentPublish topic message => exact ⟨rfl, rfl, rfl⟩
  | periodicPublish publisher topic data => exact ⟨rfl, rfl, rfl⟩
  | spin =>
      have silent : FilterChain.installs (system.streams .spin) = [] := by
        simp only [streams]
        split <;> rfl
      cases spun : system.proxy.spin convert with
      | none => simp only [step, spun, silent, and_self]
      | some result =>
          obtain ⟨messages, proxy⟩ := result
          obtain ⟨adding, kept⟩ :=
            toSubscribers_flag { system with proxy } messages
          simp only [step, spun, adding, kept, spin_flag spun, silent, and_self]
  | turn subscriber =>
      cases turned : (system.subscribers subscriber).turn with
      | none => simp only [step, turned, streams, FilterChain.installs, and_self]
      | some after => simp only [step, turned, streams, FilterChain.installs, and_self]
  | addFilter filter => exact absurd trivial quiet
  | addTurn => exact absurd rfl other

theorem stream_append (before after : List (FilteredEvent κ ι φ)) :
    stream convert system (before ++ after) =
      stream convert system before ++ stream convert (Run.final (step convert) system before) after := by
  induction before generalizing system with
  | nil => rfl
  | cons event rest ih => simp only [List.cons_append, stream, ih, List.append_assoc, Run.final_cons]

end FilteredPubSub

variable [DecidableEq κ] [DecidableEq ι]

/-- The proxy takes what was published in order, and the subscribers hold what the
filters make of it. -/
theorem run_converted (convert : φ → Frame → Frame × φ) (topics : ι → Frame)
    (events : List (FilteredEvent κ ι φ)) :
    let system := Run.final (FilteredPubSub.step convert) (.start topics) events
    let stream := FilteredPubSub.stream convert (.start topics) events
    let handled := FilterChain.messages stream
    let out := FilterChain.convertAll (convertHandled convert) (FilterChain.installs stream) handled
    (∃ onward, system.proxy.frontendSock.queue = onward.map envelope ∧
        handled.map Handled.sent ++ onward = events.flatMap FilteredEvent.publishes) ∧
      ∀ subscriber, (system.subscribers subscriber).Holds (topics subscriber)
        (out.map Handled.sent) := by
  intro system stream handled out
  obtain ⟨onward, follows, total⟩ :=
    FilteredPubSub.run_follows convert events (FilteredPubSub.start_follows topics)
  have out_eq : (Run.final (FilterChain.step (convertHandled convert)) .empty stream).out = out :=
    FilterChain.run_out .empty stream
  have holds := follows.subscribers
  rw [out_eq] at holds
  exact ⟨⟨onward, follows.queue, total⟩, holds⟩

end Sentinet.Network
