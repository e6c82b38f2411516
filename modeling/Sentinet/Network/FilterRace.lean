import Sentinet.Network.FilterProxy

namespace Sentinet.Network

open Sentinet.Data

/-! `__spin__` one statement at a time, with `add_filter` in between: it does not take
the `locker` that the loop of `start` holds. -/

variable {κ ι φ : Type}

/-- Where the proxy thread is.  In the loop over the filters it is about to look for
the one at `index`. -/
inductive SpinPoint where
  | idle
  | converting (topic req : Frame) (index : Nat)
  | sending (topic req : Frame)

structure SpinningProxy (κ ι φ : Type) where
  system : FilteredPubSub κ ι φ
  point : SpinPoint

namespace SpinningProxy

def start (topics : ι → Frame) : SpinningProxy κ ι φ := { system := .start topics, point := .idle }

/-- One turn of the proxy thread. -/
def turn (convert : φ → Frame → Frame × φ) (fine : SpinningProxy κ ι φ) : SpinningProxy κ ι φ :=
  let proxy := fine.system.proxy
  match fine.point with
  | .idle =>
      match proxy.frontendSock.receive with
      | none => fine
      | some ((topic, req), frontendSock) =>
          { system := { fine.system with proxy := { proxy with frontendSock } }
            point := if proxy.addingFilter then .sending topic req else .converting topic req 0 }
  | .converting topic req index =>
      match proxy.filters[index]? with
      | none => { fine with point := .sending topic req }
      | some filter =>
          let (req, filter) := convert filter req
          { system := { fine.system with
              proxy := { proxy with filters := proxy.filters.set index filter } }
            point := .converting topic req (index + 1) }
  | .sending topic req =>
      let (message, backendSock) := (proxy.backendSock.sSendmore topic).sSend req
      { system := { fine.system with proxy := { proxy with backendSock } }.toSubscribers message
        point := .idle }

variable [DecidableEq κ] [DecidableEq ι]

/-- A turn of the proxy thread where the atomic model has a whole `__spin__`. -/
def step (convert : φ → Frame → Frame × φ) (fine : SpinningProxy κ ι φ) :
    FilteredEvent κ ι φ → SpinningProxy κ ι φ
  | .spin => fine.turn convert
  | event => { fine with system := fine.system.step convert event }

/-- What an event does to the filters: the thread takes a message for them, or one is
installed. -/
def streams (fine : SpinningProxy κ ι φ) : FilteredEvent κ ι φ → List (StreamEvent φ Handled)
  | .spin =>
      match fine.point with
      | .idle => fine.system.streams .spin
      | _ => []
  | event => fine.system.streams event

def stream (convert : φ → Frame → Frame × φ) (fine : SpinningProxy κ ι φ) :
    List (FilteredEvent κ ι φ) → List (StreamEvent φ Handled)
  | [] => []
  | event :: rest => fine.streams event ++ stream convert (fine.step convert event) rest

/-- No filter is put into the row while a message is on its way through it. -/
def Raceless (fine : SpinningProxy κ ι φ) : FilteredEvent κ ι φ → Prop
  | .addTurn => ∀ topic req index filter, fine.point = .converting topic req index →
      fine.system.adding ≠ .pushBack filter
  | _ => True

/-- A call of `add_filter` begins while no message is on its way through the row. -/
def BeginsBetween (fine : SpinningProxy κ ι φ) (event : FilteredEvent κ ι φ) : Prop :=
  event.Adds → ∀ topic req index, fine.point ≠ .converting topic req index

end SpinningProxy

/-- What `add_filter` works on. -/
structure AddState (φ : Type) where
  filters : List φ
  flag : Bool
  adding : AddPoint φ

def AddState.step (adds : AddState φ) : FilteredEvent κ ι φ → AddState φ
  | .addFilter filter =>
      match adds.adding with
      | .idle => { adds with flag := true, adding := .pushBack filter }
      | _ => adds
  | .addTurn =>
      match adds.adding with
      | .idle => adds
      | .pushBack filter => { adds with filters := adds.filters ++ [filter], adding := .clearFlag }
      | .clearFlag => { adds with flag := false, adding := .idle }
  | _ => adds

namespace FilteredPubSub

def adds (system : FilteredPubSub κ ι φ) : AddState φ :=
  { filters := system.proxy.filters, flag := system.proxy.addingFilter, adding := system.adding }

def withAdds (system : FilteredPubSub κ ι φ) (adds : AddState φ) : FilteredPubSub κ ι φ :=
  { system with
    proxy := { system.proxy with filters := adds.filters, addingFilter := adds.flag }
    adding := adds.adding }

def withFrontend (system : FilteredPubSub κ ι φ) (frontendSock : SubSocket) :
    FilteredPubSub κ ι φ :=
  { system with proxy := { system.proxy with frontendSock } }

end FilteredPubSub

def FilteredEvent.OfAdd : FilteredEvent κ ι φ → Prop
  | .addFilter _ => True
  | .addTurn => True
  | _ => False

/-- How far calls of `add_filter` get does not depend on the filters. -/
theorem AddState.final_adding {adds other : AddState φ} {events : List (FilteredEvent κ ι φ)}
    (same : adds.adding = other.adding) :
    (Run.final AddState.step adds events).adding =
      (Run.final AddState.step other events).adding := by
  induction events generalizing adds other with
  | nil => exact same
  | cons event rest ih =>
      refine ih ?_
      cases event with
      | addFilter filter =>
          obtain ⟨filters, flag, adding⟩ := adds
          obtain ⟨_, _, _⟩ := other
          cases same
          cases adding <;> rfl
      | addTurn =>
          obtain ⟨filters, flag, adding⟩ := adds
          obtain ⟨_, _, _⟩ := other
          cases same
          cases adding <;> rfl
      | _ => exact same

section Sockets

variable {socket after : SubSocket} {frame topic req : Frame}

theorem sRecv_arrive (received : socket.sRecv = some (frame, after)) (message : List Frame) :
    (socket.arrive message).sRecv = some (frame, after.arrive message) := by
  obtain ⟨subscription, queue⟩ := socket
  cases queue with
  | nil => cases received
  | cons frames later =>
      cases frames with
      | nil => cases received
      | cons first parts =>
          cases parts <;>
            · cases received
              simp only [SubSocket.arrive]
              split <;> rfl

theorem receive_arrive (received : socket.receive = some ((topic, req), after))
    (message : List Frame) :
    (socket.arrive message).receive = some ((topic, req), after.arrive message) := by
  simp only [SubSocket.receive, Option.bind_eq_bind, Option.bind_eq_some_iff, Option.pure_def,
    Option.some.injEq, Prod.mk.injEq] at received
  obtain ⟨⟨_, between⟩, first, ⟨_, _⟩, second, ⟨rfl, rfl⟩, rfl⟩ := received
  simp only [SubSocket.receive, sRecv_arrive first, sRecv_arrive second, Option.bind_eq_bind,
    Option.bind_some, Option.pure_def]

theorem receive_pollin (received : socket.receive = some ((topic, req), after)) :
    socket.pollin = true := by
  obtain ⟨subscription, queue⟩ := socket
  cases queue with
  | nil => cases received
  | cons message later => rfl

end Sockets

/-- What a whole `__spin__` makes of a string. -/
def FilterProxy.converts (convert : φ → Frame → Frame × φ) (proxy : FilterProxy φ) (req : Frame) :
    Frame × List φ :=
  if proxy.addingFilter then (req, proxy.filters)
  else FilterChain.convertEach convert proxy.filters req

theorem spin_received {convert : φ → Frame → Frame × φ} {proxy : FilterProxy φ}
    {topic req : Frame} {frontendSock : SubSocket}
    (received : proxy.frontendSock.receive = some ((topic, req), frontendSock)) :
    proxy.spin convert = some ([proxy.backendSock.parts ++ [topic] ++ [(proxy.converts convert req).1]],
      { proxy with
        frontendSock, backendSock := { parts := [] }, filters := (proxy.converts convert req).2 }) := by
  have polls := receive_pollin received
  simp only [SubSocket.receive, Option.bind_eq_bind, Option.bind_eq_some_iff, Option.pure_def,
    Option.some.injEq, Prod.mk.injEq] at received
  obtain ⟨⟨_, between⟩, first, ⟨_, _⟩, second, ⟨rfl, rfl⟩, rfl⟩ := received
  rw [FilterProxy.spin, if_pos polls, FilterProxy.converts]
  cases flag : proxy.addingFilter <;>
    simp [first, second, PubSocket.sSendmore, PubSocket.sSend]

theorem FilteredPubSub.withAdds_step [DecidableEq κ] [DecidableEq ι]
    (convert : φ → Frame → Frame × φ) (system : FilteredPubSub κ ι φ) (adds : AddState φ)
    {event : FilteredEvent κ ι φ} (ofAdd : event.OfAdd) :
    (system.withAdds adds).step convert event = system.withAdds (adds.step event) := by
  obtain ⟨filters, flag, adding⟩ := adds
  cases event with
  | addFilter filter => cases adding <;> rfl
  | addTurn => cases adding <;> rfl
  | _ => exact absurd ofAdd id

section OfAdd

variable {system other : FilteredPubSub κ ι φ} {event : FilteredEvent κ ι φ}
  {events : List (FilteredEvent κ ι φ)}

theorem FilteredPubSub.streams_ofAdd (ofAdd : event.OfAdd) (same : system.adding = other.adding) :
    system.streams event = other.streams event := by
  cases event with
  | addFilter filter => rfl
  | addTurn => simp only [streams, same]
  | _ => exact absurd ofAdd id

variable [DecidableEq κ] [DecidableEq ι]

theorem FilteredPubSub.final_withAdds (convert : φ → Frame → Frame × φ)
    (system : FilteredPubSub κ ι φ) (ofAdd : ∀ event ∈ events, event.OfAdd) :
    Run.final (FilteredPubSub.step convert) system events =
      system.withAdds (Run.final AddState.step system.adds events) := by
  induction events generalizing system with
  | nil => rfl
  | cons event rest ih =>
      obtain ⟨first, later⟩ := List.forall_mem_cons.mp ofAdd
      have stepped : system.step convert event = system.withAdds (system.adds.step event) :=
        FilteredPubSub.withAdds_step convert system system.adds first
      rw [Run.final_cons, stepped, ih _ later]
      rfl

theorem FilteredPubSub.final_ofAdd (convert : φ → Frame → Frame × φ)
    (ofAdd : ∀ event ∈ events, event.OfAdd) (same : system.adding = other.adding) :
    (Run.final (step convert) system events).adding =
      (Run.final (step convert) other events).adding := by
  rw [final_withAdds convert system ofAdd, final_withAdds convert other ofAdd]
  exact AddState.final_adding same

/-- What calls of `add_filter` do to the filters goes by how far they have got. -/
theorem FilteredPubSub.stream_ofAdd (convert : φ → Frame → Frame × φ)
    (ofAdd : ∀ event ∈ events, event.OfAdd) (same : system.adding = other.adding) :
    stream convert system events = stream convert other events := by
  induction events generalizing system other with
  | nil => rfl
  | cons event rest ih =>
      obtain ⟨first, later⟩ := List.forall_mem_cons.mp ofAdd
      have one : ∀ added ∈ [event], added.OfAdd := List.forall_mem_singleton.mpr first
      have next : (system.step convert event).adding = (other.step convert event).adding :=
        final_ofAdd convert one same
      rw [stream, stream, streams_ofAdd first same, ih later next]

end OfAdd

section Simulation

namespace SpinningProxy

variable {convert : φ → Frame → Frame × φ} {fine : SpinningProxy κ ι φ}
  {coarse : FilteredPubSub κ ι φ} {deferred : List (FilteredEvent κ ι φ)} {topic first : Frame}
  {filters : List φ} {event : FilteredEvent κ ι φ}

/-- A message is under way in the proxy thread, and the atomic run has not taken it yet;
what calls of `add_filter` did since waits in `deferred`. -/
structure Busy (fine : SpinningProxy κ ι φ) (coarse : FilteredPubSub κ ι φ)
    (deferred : List (FilteredEvent κ ι φ)) (topic first : Frame) (filters : List φ) : Prop where
  ofAdd : ∀ event ∈ deferred, event.OfAdd
  same : ∃ frontendSock, coarse.proxy.frontendSock.receive = some ((topic, first), frontendSock) ∧
    fine.system = (coarse.withFrontend frontendSock).withAdds
      (Run.final AddState.step { coarse.adds with filters } deferred)

/-- The thread in the loop: the filters before the index have converted. -/
structure Converts (convert : φ → Frame → Frame × φ) (fine : SpinningProxy κ ι φ)
    (coarse : FilteredPubSub κ ι φ) (deferred : List (FilteredEvent κ ι φ)) : Prop where
  loop : ∃ topic first req before done after,
    fine.point = .converting topic req before.length ∧
    FilterChain.convertEach convert before first = (req, done) ∧
    coarse.proxy.filters = before ++ after ∧
    fine.Busy coarse deferred topic first (done ++ after)
  settled : coarse.proxy.addingFilter = false
  unpushed : ∃ flag adding, ∀ filters,
    Run.final AddState.step { coarse.adds with filters } deferred = { filters, flag, adding }

/-- The thread after the loop. -/
def Sends (convert : φ → Frame → Frame × φ) (fine : SpinningProxy κ ι φ)
    (coarse : FilteredPubSub κ ι φ) (deferred : List (FilteredEvent κ ι φ)) : Prop :=
  ∃ topic first,
    fine.point = .sending topic (coarse.proxy.converts convert first).1 ∧
    fine.Busy coarse deferred topic first (coarse.proxy.converts convert first).2

/-- What the atomic run has yet to do for the message that is under way. -/
def underWay (fine : SpinningProxy κ ι φ) (deferred : List (FilteredEvent κ ι φ)) :
    List (FilteredEvent κ ι φ) :=
  match fine.point with
  | .idle => []
  | _ => .spin :: deferred

theorem underWay_idle (rests : fine.point = .idle) : fine.underWay deferred = [] := by
  rw [underWay, rests]

theorem underWay_busy (busy : fine.point ≠ .idle) :
    fine.underWay deferred = .spin :: deferred := by
  unfold underWay
  split
  · next rests => exact absurd rests busy
  · rfl

theorem Converts.busy (converts : fine.Converts convert coarse deferred) : fine.point ≠ .idle := by
  obtain ⟨_, _, _, _, _, _, at_, _⟩ := converts.loop
  rw [at_]
  rintro ⟨⟩

theorem Sends.busy (sends : fine.Sends convert coarse deferred) : fine.point ≠ .idle := by
  obtain ⟨_, _, at_, _⟩ := sends
  rw [at_]
  rintro ⟨⟩

theorem streams_busy (busy : fine.point ≠ .idle) : fine.streams .spin = [] := by
  cases at_ : fine.point with
  | idle => exact absurd at_ busy
  | converting topic req index => simp only [streams, at_]
  | sending topic req => simp only [streams, at_]

theorem streams_outer {system : FilteredPubSub κ ι φ} (spins : event ≠ .spin)
    (outer : ¬event.OfAdd) : system.streams event = [] := by
  cases event with
  | spin => exact absurd rfl spins
  | addFilter filter => exact absurd trivial outer
  | addTurn => exact absurd trivial outer
  | _ => rfl

theorem streams_of_ne_spin (spins : event ≠ .spin) :
    fine.streams event = fine.system.streams event := by
  cases event with
  | spin => exact absurd rfl spins
  | _ => rfl

/-- The run of the atomic model that a fine one follows. -/
inductive Follows (convert : φ → Frame → Frame × φ) (fine : SpinningProxy κ ι φ)
    (coarse : FilteredPubSub κ ι φ) : List (FilteredEvent κ ι φ) → Prop where
  | idle (rests : fine.point = .idle) (same : fine.system = coarse) : Follows convert fine coarse []
  | converting {deferred : List (FilteredEvent κ ι φ)}
      (converts : fine.Converts convert coarse deferred) : Follows convert fine coarse deferred
  | sending {deferred : List (FilteredEvent κ ι φ)} (sends : fine.Sends convert coarse deferred) :
      Follows convert fine coarse deferred

/-- The thread takes a message; the flag decides whether the filters see it. -/
theorem Follows.idle_turn (rests : fine.point = .idle) (same : fine.system = coarse) :
    Follows convert (fine.turn convert) coarse [] := by
  obtain ⟨system, point⟩ := fine
  subst rests same
  cases received : system.proxy.frontendSock.receive with
  | none =>
      have still : turn convert { system, point := .idle } = { system, point := .idle } := by
        simp only [turn, received]
      rw [still]
      exact .idle rfl rfl
  | some result =>
      obtain ⟨⟨topic, req⟩, frontendSock⟩ := result
      cases flag : system.proxy.addingFilter with
      | true =>
          refine .sending ⟨topic, req, ?_, fun _ member => (by cases member), frontendSock, received, ?_⟩
          · simp only [turn, received, flag, if_true, FilterProxy.converts]
          · simp only [turn, received, FilterProxy.converts, flag, if_true, Run.final_nil,
              FilteredPubSub.withAdds, FilteredPubSub.withFrontend, FilteredPubSub.adds]
      | false =>
          refine .converting ⟨⟨topic, req, req, [], [], system.proxy.filters, ?_, rfl, rfl,
            fun _ member => (by cases member), frontendSock, received, ?_⟩, flag,
            system.proxy.addingFilter, system.adding, fun _ => rfl⟩
          · simp only [turn, received, flag, Bool.false_eq_true, if_false, List.length_nil]
          · simp only [turn, received]
            rfl

/-- One more filter converts, or the loop is over. -/
theorem Converts.turn (converts : fine.Converts convert coarse deferred) :
    Follows convert (fine.turn convert) coarse deferred := by
  obtain ⟨system, point⟩ := fine
  obtain ⟨⟨topic, first, req, before, done, after, rfl, converted, row, ofAdd, frontendSock,
    received, rfl⟩, settled, flag, adding, unpushed⟩ := converts
  have lengths : done.length = before.length := by
    rw [← FilterChain.convertEach_length convert before first, converted]
  rw [unpushed]
  cases after with
  | nil =>
      have through : coarse.proxy.converts convert first = (req, done) := by
        rw [FilterProxy.converts, settled, row, List.append_nil, converted]
        rfl
      have ended : done[before.length]? = none := by simp [lengths]
      refine .sending ⟨topic, first, ?_, ofAdd, frontendSock, received, ?_⟩
      · simp only [turn, FilteredPubSub.withAdds, List.append_nil, ended, through]
      · simp only [turn, FilteredPubSub.withAdds, List.append_nil, ended, through, unpushed]
  | cons filter later =>
      have next : (done ++ filter :: later)[before.length]? = some filter := by simp [← lengths]
      have replaced : (done ++ filter :: later).set before.length (convert filter req).2 =
          done ++ [(convert filter req).2] ++ later := by simp [← lengths]
      refine .converting ⟨⟨topic, first, (convert filter req).1, before ++ [filter],
        done ++ [(convert filter req).2], later, ?_, ?_, ?_, ofAdd, frontendSock, received, ?_⟩,
        settled, flag, adding, unpushed⟩
      · simp only [turn, FilteredPubSub.withAdds, next, List.length_append, List.length_singleton]
      · rw [FilterChain.convertEach_append, converted]
      · rw [row, List.append_assoc, List.singleton_append]
      · simp only [turn, FilteredPubSub.withAdds, next, replaced, unpushed]

theorem Converts.turn_busy (converts : fine.Converts convert coarse deferred) :
    (fine.turn convert).point ≠ .idle := by
  obtain ⟨_, _, _, _, _, _, at_, _⟩ := converts.loop
  rw [SpinningProxy.turn, at_]
  dsimp only
  split <;> rintro ⟨⟩

theorem publishes_ofAdd (ofAdd : ∀ event ∈ deferred, event.OfAdd) :
    deferred.flatMap FilteredEvent.publishes = [] := by
  refine List.flatMap_eq_nil_iff.mpr fun event member => ?_
  cases event with
  | addFilter filter => rfl
  | addTurn => rfl
  | _ => exact absurd (ofAdd _ member) id

theorem Follows.subscribers (follows : Follows convert fine coarse deferred) :
    fine.system.subscribers = coarse.subscribers ∧ (fine.point = .idle → fine.system = coarse) := by
  cases follows with
  | idle rests same => exact ⟨congrArg _ same, fun _ => same⟩
  | converting converts =>
      obtain ⟨topic, first, req, before, done, after, at_, _, _, _, _, _, same⟩ := converts.loop
      exact ⟨by rw [same]; rfl, fun rests => by rw [at_] at rests; cases rests⟩
  | sending sends =>
      obtain ⟨topic, first, at_, _, _, _, same⟩ := sends
      exact ⟨by rw [same]; rfl, fun rests => by rw [at_] at rests; cases rests⟩

variable [DecidableEq κ] [DecidableEq ι]

/-- Publishing and the turns of subscribers go on while a message is under way. -/
theorem Busy.outer (convert : φ → Frame → Frame × φ)
    (busy : fine.Busy coarse deferred topic first filters)
    (spins : event ≠ .spin) (outer : ¬event.OfAdd) :
    (fine.step convert event).Busy (coarse.step convert event) deferred topic first filters ∧
      (fine.step convert event).point = fine.point ∧
      (coarse.step convert event).adds = coarse.adds := by
  obtain ⟨system, point⟩ := fine
  obtain ⟨ofAdd, frontendSock, received, rfl⟩ := busy
  cases event with
  | concurrentPublish topic message =>
      exact ⟨⟨ofAdd, _, receive_arrive received _, rfl⟩, rfl, rfl⟩
  | periodicPublish publisher topic data =>
      exact ⟨⟨ofAdd, _, receive_arrive received _, rfl⟩, rfl, rfl⟩
  | turn subscriber =>
      cases turned : (coarse.subscribers subscriber).turn with
      | none =>
          have still : coarse.step convert (.turn subscriber) = coarse := by
            simp only [FilteredPubSub.step, turned]
          rw [still]
          refine ⟨⟨ofAdd, frontendSock, received, ?_⟩, rfl, rfl⟩
          simp only [step, FilteredPubSub.step, FilteredPubSub.withAdds,
            FilteredPubSub.withFrontend, turned]
      | some after =>
          have moved : coarse.step convert (.turn subscriber) =
              { coarse with subscribers := Function.update coarse.subscribers subscriber after } := by
            simp only [FilteredPubSub.step, turned]
          rw [moved]
          refine ⟨⟨ofAdd, frontendSock, received, ?_⟩, rfl, rfl⟩
          simp only [step, FilteredPubSub.step, FilteredPubSub.withAdds,
            FilteredPubSub.withFrontend, turned]
          rfl
  | spin => exact absurd rfl spins
  | addFilter filter => exact absurd trivial outer
  | addTurn => exact absurd trivial outer

/-- A call of `add_filter` waits until the message is through. -/
theorem Busy.add (convert : φ → Frame → Frame × φ)
    (busy : fine.Busy coarse deferred topic first filters) (ofAdd : event.OfAdd) :
    (fine.step convert event).Busy coarse (deferred ++ [event]) topic first filters ∧
      (fine.step convert event).point = fine.point := by
  obtain ⟨system, point⟩ := fine
  obtain ⟨others, frontendSock, received, rfl⟩ := busy
  have all : ∀ other ∈ deferred ++ [event], other.OfAdd := by
    intro other member
    rcases List.mem_append.mp member with before | new
    · exact others other before
    · exact List.mem_singleton.mp new ▸ ofAdd
  have stepped (system : FilteredPubSub κ ι φ) : step convert { system, point } event =
      { system := system.step convert event, point } := by
    cases event with
    | addFilter filter => rfl
    | addTurn => rfl
    | _ => exact absurd ofAdd id
  refine ⟨⟨all, frontendSock, received, ?_⟩, by rw [stepped]⟩
  rw [stepped, FilteredPubSub.withAdds_step convert _ _ ofAdd, Run.final_append]
  rfl

theorem step_of_ne_spin (spins : event ≠ .spin) :
    fine.step convert event = { fine with system := fine.system.step convert event } := by
  cases event with
  | spin => exact absurd rfl spins
  | _ => rfl

theorem Follows.idle_step (rests : fine.point = .idle) (same : fine.system = coarse)
    (spins : event ≠ .spin) :
    Follows convert (fine.step convert event) (coarse.step convert event) [] := by
  rw [step_of_ne_spin spins, same]
  exact .idle rests rfl

theorem spin_adding (convert : φ → Frame → Frame × φ) (coarse : FilteredPubSub κ ι φ) :
    (coarse.step convert .spin).adding = coarse.adding :=
  (FilteredPubSub.step_adding convert coarse id (by rintro ⟨⟩)).1

theorem Busy.adding (convert : φ → Frame → Frame × φ)
    (busy : fine.Busy coarse deferred topic first filters) :
    fine.system.adding =
      (Run.final (FilteredPubSub.step convert) coarse (.spin :: deferred)).adding := by
  obtain ⟨ofAdd, frontendSock, _, same⟩ := busy
  rw [same, Run.final_cons, FilteredPubSub.final_withAdds convert _ ofAdd]
  exact AddState.final_adding (spin_adding convert coarse).symm

/-- The message under way is for the filters what it was when the thread took it. -/
theorem Busy.stream_outer (convert : φ → Frame → Frame × φ)
    (busy : fine.Busy coarse deferred topic first filters)
    (spins : event ≠ .spin) (outer : ¬event.OfAdd) :
    FilteredPubSub.stream convert (coarse.step convert event) (.spin :: deferred) =
      FilteredPubSub.stream convert coarse (.spin :: deferred) := by
  obtain ⟨⟨_, _, after, _⟩, _, kept⟩ := busy.outer convert spins outer
  obtain ⟨ofAdd, _, before, _⟩ := busy
  have flag : (coarse.step convert event).proxy.addingFilter = coarse.proxy.addingFilter :=
    congrArg AddState.flag kept
  have adding : (coarse.step convert event).adding = coarse.adding :=
    congrArg AddState.adding kept
  have taken : (coarse.step convert event).streams .spin = coarse.streams .spin := by
    simp only [FilteredPubSub.streams, before, after, flag]
  have next : ((coarse.step convert event).step convert .spin).adding =
      (coarse.step convert .spin).adding := by
    rw [spin_adding, spin_adding, adding]
  rw [FilteredPubSub.stream, FilteredPubSub.stream, taken,
    FilteredPubSub.stream_ofAdd convert ofAdd next]

/-- The message goes out; the atomic run takes it now, and then what has waited. -/
theorem Sends.turn (sends : fine.Sends convert coarse deferred) :
    Follows convert (fine.turn convert)
      (Run.final (FilteredPubSub.step convert) coarse (.spin :: deferred)) [] := by
  obtain ⟨system, point⟩ := fine
  obtain ⟨topic, first, rfl, ofAdd, frontendSock, received, rfl⟩ := sends
  refine .idle rfl ?_
  rw [Run.final_cons, FilteredPubSub.final_withAdds convert _ ofAdd]
  simp only [FilteredPubSub.step, spin_received received, List.foldl_cons, List.foldl_nil]
  rfl

theorem Converts.add (converts : fine.Converts convert coarse deferred)
    (raceless : fine.Raceless event) (ofAdd : event.OfAdd) :
    (fine.step convert event).Converts convert coarse (deferred ++ [event]) := by
  obtain ⟨⟨topic, first, req, before, done, after, at_, converted, row, busy⟩, settled, flag,
    adding, unpushed⟩ := converts
  obtain ⟨later, kept⟩ := busy.add convert ofAdd
  refine ⟨⟨topic, first, req, before, done, after, kept.trans at_, converted, row, later⟩, settled, ?_⟩
  have waits : fine.system.adding = adding := by
    obtain ⟨_, frontendSock, _, same⟩ := busy
    rw [same, unpushed]
    rfl
  simp only [Run.final_append, unpushed, Run.final_cons, Run.final_nil]
  cases event with
  | addFilter filter => cases adding <;> exact ⟨_, _, fun _ => rfl⟩
  | addTurn =>
      cases adding with
      | idle => exact ⟨_, _, fun _ => rfl⟩
      | pushBack filter => exact absurd waits (raceless topic req before.length filter at_)
      | clearFlag => exact ⟨_, _, fun _ => rfl⟩
  | _ => exact absurd ofAdd id

theorem Converts.outer (converts : fine.Converts convert coarse deferred)
    (spins : event ≠ .spin) (outer : ¬event.OfAdd) :
    (fine.step convert event).Converts convert (coarse.step convert event) deferred := by
  obtain ⟨⟨topic, first, req, before, done, after, at_, converted, row, busy⟩, settled, flag,
    adding, unpushed⟩ := converts
  obtain ⟨later, kept, same⟩ := busy.outer convert spins outer
  refine ⟨⟨topic, first, req, before, done, after, kept.trans at_, converted, ?_, later⟩, ?_,
    flag, adding, ?_⟩
  · exact (congrArg AddState.filters same).trans row
  · exact (congrArg AddState.flag same).trans settled
  · rw [same]
    exact unpushed

theorem Sends.outer (sends : fine.Sends convert coarse deferred)
    (spins : event ≠ .spin) (outer : ¬event.OfAdd) :
    (fine.step convert event).Sends convert (coarse.step convert event) deferred := by
  obtain ⟨topic, first, at_, busy⟩ := sends
  obtain ⟨later, kept, same⟩ := busy.outer convert spins outer
  have converts : (coarse.step convert event).proxy.converts convert first =
      coarse.proxy.converts convert first := by
    have flag : (coarse.step convert event).proxy.addingFilter = coarse.proxy.addingFilter :=
      congrArg AddState.flag same
    have filters : (coarse.step convert event).proxy.filters = coarse.proxy.filters :=
      congrArg AddState.filters same
    rw [FilterProxy.converts, FilterProxy.converts, flag, filters]
  refine ⟨topic, first, ?_, ?_⟩
  · rw [converts]
    exact kept.trans at_
  · rw [converts]
    exact later

/-- The thread takes a message for the filters where the atomic run does not yet. -/
theorem idle_turn_stream (rests : fine.point = .idle) (same : fine.system = coarse) :
    fine.streams .spin =
      FilteredPubSub.stream convert coarse ((fine.turn convert).underWay []) := by
  obtain ⟨system, point⟩ := fine
  subst rests same
  cases received : system.proxy.frontendSock.receive with
  | none =>
      have still : turn convert { system, point := .idle } = { system, point := .idle } := by
        simp only [turn, received]
      rw [still, underWay_idle rfl]
      simp only [streams, FilteredPubSub.streams, received, FilteredPubSub.stream]
  | some result =>
      obtain ⟨⟨topic, req⟩, frontendSock⟩ := result
      have busy : (turn convert { system, point := .idle }).point ≠ .idle := by
        simp only [turn, received]
        split <;> rintro ⟨⟩
      rw [underWay_busy busy, FilteredPubSub.stream, FilteredPubSub.stream, List.append_nil]
      rfl

/-- A step of `add_filter` waits with the message that is under way. -/
theorem Busy.add_stream (busy : fine.Busy coarse deferred topic first filters)
    (at_ : fine.point ≠ .idle) (spins : event ≠ .spin) (ofAdd : event.OfAdd) :
    FilteredPubSub.stream convert coarse (fine.underWay deferred) ++ fine.streams event =
      FilteredPubSub.stream convert coarse
        ((fine.step convert event).underWay (deferred ++ [event])) := by
  obtain ⟨_, kept⟩ := busy.add convert ofAdd
  have still : (fine.step convert event).point ≠ .idle := kept ▸ at_
  have seen : fine.streams event = FilteredPubSub.stream convert
      (Run.final (FilteredPubSub.step convert) coarse (.spin :: deferred)) [event] := by
    rw [streams_of_ne_spin spins, FilteredPubSub.streams_ofAdd ofAdd (busy.adding convert)]
    exact (List.append_nil _).symm
  rw [underWay_busy at_, underWay_busy still, seen, ← FilteredPubSub.stream_append]
  rfl

theorem Busy.outer_stream (busy : fine.Busy coarse deferred topic first filters)
    (at_ : fine.point ≠ .idle) (spins : event ≠ .spin) (outer : ¬event.OfAdd) :
    FilteredPubSub.stream convert coarse (fine.underWay deferred) ++ fine.streams event =
      FilteredPubSub.stream convert coarse
        (event :: (fine.step convert event).underWay deferred) := by
  obtain ⟨_, kept, _⟩ := busy.outer convert spins outer
  have still : (fine.step convert event).point ≠ .idle := kept ▸ at_
  have first_streams : FilteredPubSub.stream convert coarse (event :: .spin :: deferred) =
      FilteredPubSub.stream convert coarse (.spin :: deferred) := by
    rw [FilteredPubSub.stream, streams_outer spins outer, List.nil_append,
      busy.stream_outer convert spins outer]
  rw [underWay_busy at_, underWay_busy still, streams_of_ne_spin spins, streams_outer spins outer,
    List.append_nil, first_streams]

theorem idle_step_stream (rests : fine.point = .idle) (same : fine.system = coarse)
    (spins : event ≠ .spin) :
    FilteredPubSub.stream convert coarse (fine.underWay deferred) ++ fine.streams event =
      FilteredPubSub.stream convert coarse
        (event :: (fine.step convert event).underWay deferred) := by
  have still : (fine.step convert event).point = .idle := by
    rw [step_of_ne_spin spins, rests]
  rw [underWay_idle rests, underWay_idle still, streams_of_ne_spin spins, same]
  exact (List.append_nil _).symm

/-- One step of the fine run is none, one or several of the atomic one, and the filters
see the same, but for what is under way. -/
theorem Follows.step (follows : Follows convert fine coarse deferred)
    (raceless : fine.Raceless event) :
    ∃ emitted deferred', Follows convert (fine.step convert event)
        (Run.final (FilteredPubSub.step convert) coarse emitted) deferred' ∧
      emitted.flatMap FilteredEvent.publishes = event.publishes ∧
      FilteredPubSub.stream convert coarse (fine.underWay deferred) ++ fine.streams event =
        FilteredPubSub.stream convert coarse
          (emitted ++ (fine.step convert event).underWay deferred') := by
  by_cases spins : event = .spin
  · subst spins
    cases follows with
    | idle rests same =>
        refine ⟨[], [], .idle_turn rests same, rfl, ?_⟩
        rw [underWay_idle rests, idle_turn_stream rests same]
        rfl
    | converting converts =>
        refine ⟨[], deferred, converts.turn, rfl, ?_⟩
        rw [underWay_busy converts.busy, streams_busy converts.busy, List.append_nil,
          List.nil_append]
        exact (congrArg _ (underWay_busy converts.turn_busy)).symm
    | sending sends =>
        have waited : deferred.flatMap FilteredEvent.publishes = [] := by
          obtain ⟨_, _, _, busy⟩ := sends
          exact publishes_ofAdd busy.ofAdd
        have rests : (fine.turn convert).point = .idle := by
          obtain ⟨_, _, at_, _⟩ := sends
          rw [turn, at_]
        refine ⟨.spin :: deferred, [], sends.turn, waited, ?_⟩
        have finished : (fine.step convert .spin).underWay [] = [] := underWay_idle rests
        rw [underWay_busy sends.busy, streams_busy sends.busy, finished, List.append_nil,
          List.append_nil]
  have silent (ofAdd : event.OfAdd) : event.publishes = [] := by
    simpa using publishes_ofAdd (List.forall_mem_singleton.mpr ofAdd)
  cases follows with
  | idle rests same =>
      exact ⟨[event], [], .idle_step rests same spins, List.append_nil _,
        idle_step_stream rests same spins⟩
  | converting converts =>
      obtain ⟨_, _, _, _, _, _, _, _, _, busy⟩ := converts.loop
      by_cases ofAdd : event.OfAdd
      · exact ⟨[], deferred ++ [event], .converting (converts.add raceless ofAdd),
          (silent ofAdd).symm, busy.add_stream converts.busy spins ofAdd⟩
      · exact ⟨[event], deferred, .converting (converts.outer spins ofAdd), List.append_nil _,
          busy.outer_stream converts.busy spins ofAdd⟩
  | sending sends =>
      have away := sends.busy
      obtain ⟨topic, first, at_, busy⟩ := sends
      by_cases ofAdd : event.OfAdd
      · obtain ⟨later, kept⟩ := busy.add convert ofAdd
        exact ⟨[], deferred ++ [event], .sending ⟨topic, first, kept.trans at_, later⟩,
          (silent ofAdd).symm, busy.add_stream away spins ofAdd⟩
      · have sends : fine.Sends convert coarse deferred := ⟨topic, first, at_, busy⟩
        exact ⟨[event], deferred, .sending (sends.outer spins ofAdd), List.append_nil _,
          busy.outer_stream away spins ofAdd⟩

theorem run_follows {events : List (FilteredEvent κ ι φ)}
    (follows : Follows convert fine coarse deferred)
    (raceless : Run.EachStep (SpinningProxy.step convert) Raceless fine events) :
    ∃ emitted deferred', Follows convert (Run.final (SpinningProxy.step convert) fine events)
        (Run.final (FilteredPubSub.step convert) coarse emitted) deferred' ∧
      emitted.flatMap FilteredEvent.publishes = events.flatMap FilteredEvent.publishes ∧
      FilteredPubSub.stream convert coarse (fine.underWay deferred) ++
          SpinningProxy.stream convert fine events =
        FilteredPubSub.stream convert coarse
          (emitted ++ (Run.final (SpinningProxy.step convert) fine events).underWay deferred') := by
  induction events generalizing fine coarse deferred with
  | nil => exact ⟨[], deferred, follows, rfl, List.append_nil _⟩
  | cons event rest ih =>
      obtain ⟨first, later⟩ := raceless
      obtain ⟨emitted, between, next, published, seen⟩ := follows.step first
      obtain ⟨others, deferred', final, total, whole⟩ := ih next later
      refine ⟨emitted ++ others, deferred', ?_, ?_, ?_⟩
      · rw [Run.final_append]
        exact final
      · rw [List.flatMap_append, published, total, List.flatMap_cons]
      · rw [SpinningProxy.stream, ← List.append_assoc, seen, FilteredPubSub.stream_append,
          List.append_assoc, whole, ← FilteredPubSub.stream_append, ← List.append_assoc]
        rfl

end SpinningProxy

end Simulation

section Discipline

namespace SpinningProxy

variable {convert : φ → Frame → Frame × φ} {fine : SpinningProxy κ ι φ}
  {event : FilteredEvent κ ι φ}

/-- The flag tells that a call is under way, and none is while the filters convert. -/
def Settled (fine : SpinningProxy κ ι φ) : Prop :=
  (fine.system.proxy.addingFilter = false → fine.system.adding = .idle) ∧
    ∀ topic req index, fine.point = .converting topic req index → fine.system.adding = .idle

theorem turn_settled (settled : fine.Settled) : (fine.turn convert).Settled := by
  obtain ⟨system, point⟩ := fine
  obtain ⟨flag, converting⟩ := settled
  cases point with
  | idle =>
      cases received : system.proxy.frontendSock.receive with
      | none =>
          have still : turn convert { system, point := .idle } = { system, point := .idle } := by
            simp only [turn, received]
          rw [still]
          exact ⟨flag, converting⟩
      | some result =>
          obtain ⟨⟨topic, req⟩, frontendSock⟩ := result
          simp only [turn, received]
          refine ⟨flag, fun topic' req' index at_ => ?_⟩
          cases set : system.proxy.addingFilter with
          | true => simp [set] at at_
          | false => exact flag set
  | converting topic req index =>
      have idle := converting topic req index rfl
      cases found : system.proxy.filters[index]? with
      | none =>
          simp only [turn, found]
          exact ⟨flag, fun _ _ _ _ => idle⟩
      | some filter =>
          simp only [turn, found]
          exact ⟨flag, fun _ _ _ _ => idle⟩
  | sending topic req => exact ⟨flag, fun _ _ _ at_ => (by cases at_)⟩

theorem Settled.raceless (settled : fine.Settled) : fine.Raceless event := by
  cases event with
  | addTurn =>
      intro topic req index filter at_ pushes
      exact absurd (pushes.symm.trans (settled.2 topic req index at_)) (by simp)
  | _ => trivial

variable [DecidableEq κ] [DecidableEq ι]

theorem step_settled (settled : fine.Settled) (between : fine.BeginsBetween event) :
    (fine.step convert event).Settled := by
  obtain ⟨system, point⟩ := fine
  obtain ⟨flag, converting⟩ := settled
  by_cases spins : event = .spin
  · subst spins
    exact turn_settled ⟨flag, converting⟩
  rw [step_of_ne_spin spins]
  by_cases outer : event.OfAdd
  case neg =>
    have quiet : ¬event.Adds := fun adds => outer (by cases event <;> trivial)
    have other : event ≠ .addTurn := fun turns => outer (turns ▸ trivial)
    obtain ⟨adding, kept, _⟩ := FilteredPubSub.step_adding convert system quiet other
    exact ⟨fun down => adding.trans (flag (kept.symm.trans down)),
      fun topic req index at_ => adding.trans (converting topic req index at_)⟩
  cases event with
  | addFilter filter =>
      refine ⟨fun down => ?_, fun topic req index at_ => absurd at_ (between trivial topic req index)⟩
      cases adding : system.adding <;>
        simp_all [FilteredPubSub.step, FilteredPubSub.addFilter]
  | addTurn =>
      cases adding : system.adding with
      | idle =>
          simp only [FilteredPubSub.step, FilteredPubSub.addTurn, adding]
          exact ⟨fun _ => adding, fun _ _ _ _ => adding⟩
      | pushBack filter =>
          simp only [FilteredPubSub.step, FilteredPubSub.addTurn, adding]
          exact ⟨fun down => absurd (adding.symm.trans (flag down)) (by simp),
            fun topic req index at_ =>
              absurd (adding.symm.trans (converting topic req index at_)) (by simp)⟩
      | clearFlag =>
          simp only [FilteredPubSub.step, FilteredPubSub.addTurn, adding]
          exact ⟨fun _ => rfl, fun _ _ _ _ => rfl⟩
  | _ => exact absurd outer id

theorem run_raceless {events : List (FilteredEvent κ ι φ)} (settled : fine.Settled)
    (between : Run.EachStep (step convert) BeginsBetween fine events) :
    Run.EachStep (step convert) Raceless fine events := by
  induction events generalizing fine with
  | nil => trivial
  | cons event rest ih => exact ⟨settled.raceless, ih (step_settled settled between.1) between.2⟩

end SpinningProxy

end Discipline

/-- When calls of `add_filter` begin between messages, no filter is put into the row
while one is on its way through it.  A run of single statements of which that holds
looks to subscribers like a run of whole turns, and is one between two messages. -/
theorem turns_atomic [DecidableEq κ] [DecidableEq ι] (convert : φ → Frame → Frame × φ)
    (topics : ι → Frame) (events : List (FilteredEvent κ ι φ)) :
    let each := fun condition =>
      Run.EachStep (SpinningProxy.step convert) condition (.start topics) events
    let fine := Run.final (SpinningProxy.step convert) (.start topics) events
    (each SpinningProxy.BeginsBetween → each SpinningProxy.Raceless) ∧
      (each SpinningProxy.Raceless → ∃ atomic : List (FilteredEvent κ ι φ),
        let coarse := Run.final (FilteredPubSub.step convert) (.start topics) atomic
        fine.system.subscribers = coarse.subscribers ∧
        (fine.point = .idle → fine.system = coarse) ∧
        atomic.flatMap FilteredEvent.publishes = events.flatMap FilteredEvent.publishes) := by
  intro each fine
  constructor
  · intro between
    exact SpinningProxy.run_raceless ⟨fun _ => rfl, fun _ _ _ at_ => (by cases at_)⟩ between
  · intro raceless
    obtain ⟨atomic, deferred, follows, published, _⟩ :=
      SpinningProxy.run_follows (.idle rfl rfl) raceless
    exact ⟨atomic, follows.subscribers.1, follows.subscribers.2, published⟩

/-- A filter that appends a byte is added before the first message. -/
def oneFiltered : List (FilteredEvent Unit Unit UInt8) :=
  [.addFilter 7, .addTurn, .addTurn, .concurrentPublish cmdTopic [1], .spin, .spin, .spin, .spin,
    .turn ()]

theorem turns_atomic_one :
    let convert := fun (filter : UInt8) (req : Frame) => (req ++ [filter], filter + 1)
    let fine := Run.final (SpinningProxy.step convert) (.start fun _ => cmdTopic) oneFiltered
    ∃ atomic : List (FilteredEvent Unit Unit UInt8),
      let coarse := Run.final (FilteredPubSub.step convert) (.start fun _ => cmdTopic) atomic
      fine.system.subscribers = coarse.subscribers ∧
      (fine.point = .idle → fine.system = coarse) ∧
      atomic.flatMap FilteredEvent.publishes = oneFiltered.flatMap FilteredEvent.publishes := by
  refine (turns_atomic _ (fun _ => cmdTopic) oneFiltered).2 ((turns_atomic _ _ _).1 ?_)
  exact ⟨fun _ _ _ _ at_ => (by cases at_), False.elim, False.elim, False.elim, False.elim,
    False.elim, False.elim, False.elim, False.elim, trivial⟩

/-- A call that begins under a conversion may put its filter into the row. -/
example : ¬Run.EachStep (SpinningProxy.step fun (filter : UInt8) req => (req ++ [filter], filter))
    SpinningProxy.Raceless (.start fun _ : Unit => cmdTopic)
    ([.addFilter 7, .addTurn, .addTurn, .concurrentPublish cmdTopic [1], .spin, .addFilter 8,
      .addTurn] : List (FilteredEvent Unit Unit UInt8)) :=
  fun raceless => raceless.2.2.2.2.2.2.1 cmdTopic [1] 0 8 rfl rfl

end Sentinet.Network
