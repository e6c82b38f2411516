import Sentinet.Network.FilterRace

namespace Sentinet.Network

open Sentinet.Data

/-! What the filters of a running proxy make of its messages, with `__spin__` taken one
statement at a time and filters added between messages. -/

variable {κ ι φ : Type}

namespace SpinningProxy

variable {convert : φ → Frame → Frame × φ} {fine : SpinningProxy κ ι φ}
  {event : FilteredEvent κ ι φ} {events before after : List (FilteredEvent κ ι φ)} {filter : φ}

/-! One call of `add_filter`. -/

section OneCall

theorem turn_adding (convert : φ → Frame → Frame × φ) (fine : SpinningProxy κ ι φ) :
    (fine.turn convert).system.adding = fine.system.adding ∧
      (fine.turn convert).system.proxy.addingFilter = fine.system.proxy.addingFilter := by
  obtain ⟨system, point⟩ := fine
  cases point with
  | idle =>
      cases received : system.proxy.frontendSock.receive with
      | none => simp only [turn, received, and_self]
      | some result => simp only [turn, received, and_self]
  | converting topic req index =>
      cases found : system.proxy.filters[index]? with
      | none => simp only [turn, found, and_self]
      | some filter => simp only [turn, found, and_self]
  | sending topic req => exact ⟨rfl, rfl⟩

/-- A turn takes no message, or one with the flag as it is. -/
theorem streams_spin (fine : SpinningProxy κ ι φ) :
    fine.streams .spin = [] ∨ ∃ handled : Handled, fine.streams .spin = [.pass handled] ∧
      handled.adding = fine.system.proxy.addingFilter := by
  obtain ⟨system, point⟩ := fine
  cases point with
  | idle =>
      cases received : system.proxy.frontendSock.receive with
      | none => exact Or.inl (by simp only [streams, FilteredPubSub.streams, received])
      | some result =>
          exact Or.inr ⟨_, by simp only [streams, FilteredPubSub.streams, received]; rfl, rfl⟩
  | converting topic req index => exact Or.inl rfl
  | sending topic req => exact Or.inl rfl

/-- What is taken while the flag is set is left alone. -/
theorem flagged_streams (flag : fine.system.proxy.addingFilter = true) (quiet : ¬event.Adds)
    (pushes : event ≠ .addTurn) :
    ∃ taken : List Handled, fine.streams event = taken.map .pass ∧
      ∀ handled ∈ taken, handled.adding = true := by
  by_cases spins : event = .spin
  · subst spins
    rcases streams_spin fine with none_taken | ⟨handled, taken, left⟩
    · exact ⟨[], none_taken, fun _ member => (by cases member)⟩
    · exact ⟨[handled], taken, fun other member => List.mem_singleton.mp member ▸ left.trans flag⟩
  · have outer : ¬event.OfAdd := fun ofAdd => by
      cases event <;> first | exact quiet trivial | exact pushes rfl | exact ofAdd
    rw [streams_of_ne_spin spins, streams_outer spins outer]
    exact ⟨[], rfl, fun _ member => (by cases member)⟩

variable [DecidableEq κ] [DecidableEq ι]

theorem step_adding (convert : φ → Frame → Frame × φ) (fine : SpinningProxy κ ι φ)
    (quiet : ¬event.Adds) (other : event ≠ .addTurn) :
    (fine.step convert event).system.adding = fine.system.adding ∧
      (fine.step convert event).system.proxy.addingFilter = fine.system.proxy.addingFilter ∧
      FilterChain.installs (fine.streams event) = [] := by
  by_cases spins : event = .spin
  · subst spins
    obtain ⟨adding, flag⟩ := turn_adding convert fine
    refine ⟨adding, flag, ?_⟩
    rcases streams_spin fine with none_taken | ⟨handled, taken, _⟩
    · rw [none_taken]
      rfl
    · rw [taken]
      rfl
  · rw [streams_of_ne_spin spins, step_of_ne_spin spins]
    exact FilteredPubSub.step_adding convert fine.system quiet other

theorem stream_append (before after : List (FilteredEvent κ ι φ)) :
    stream convert fine (before ++ after) =
      stream convert fine before ++ stream convert (Run.final (step convert) fine before) after := by
  induction before generalizing fine with
  | nil => rfl
  | cons event rest ih => simp only [List.cons_append, stream, ih, List.append_assoc, Run.final_cons]

theorem idle_stream (convert : φ → Frame → Frame × φ) (idle : fine.system.adding = .idle)
    (quiet : ∀ event ∈ events, ¬event.Adds) :
    (Run.final (step convert) fine events).system.adding = .idle ∧
      FilterChain.installs (stream convert fine events) = [] := by
  induction events generalizing fine with
  | nil => exact ⟨idle, rfl⟩
  | cons event rest ih =>
      obtain ⟨first, later⟩ := List.forall_mem_cons.mp quiet
      have next : (fine.step convert event).system.adding = .idle ∧
          FilterChain.installs (fine.streams event) = [] := by
        by_cases moves : event = .addTurn
        · subst moves
          simp [step, streams, FilteredPubSub.step, FilteredPubSub.addTurn, FilteredPubSub.streams,
            idle, FilterChain.installs]
        · obtain ⟨adding, _, silent⟩ := step_adding convert fine first moves
          exact ⟨adding.trans idle, silent⟩
      obtain ⟨still, none_later⟩ := ih next.1 later
      refine ⟨still, ?_⟩
      rw [stream, FilterChain.installs_append, next.2, none_later]
      rfl

/-- The call is over after its `push_back`, or the flag is not down yet. -/
theorem clearing_stream (convert : φ → Frame → Frame × φ)
    (clearing : fine.system.adding = .clearFlag) (quiet : ∀ event ∈ events, ¬event.Adds) :
    FilterChain.installs (stream convert fine events) = [] := by
  induction events generalizing fine with
  | nil => rfl
  | cons event rest ih =>
      obtain ⟨first, later⟩ := List.forall_mem_cons.mp quiet
      rw [stream, FilterChain.installs_append]
      by_cases moves : event = .addTurn
      · subst moves
        have idle : (fine.step convert .addTurn).system.adding = .idle := by
          simp [step, FilteredPubSub.step, FilteredPubSub.addTurn, clearing]
        have silent : FilterChain.installs (fine.streams .addTurn) = [] := by
          simp [streams, FilteredPubSub.streams, clearing, FilterChain.installs]
        rw [silent, (idle_stream convert idle later).2]
        rfl
      · obtain ⟨adding, _, silent⟩ := step_adding convert fine first moves
        rw [silent, ih (adding.trans clearing) later]
        rfl

/-- Until its `push_back` a call only has messages left alone. -/
theorem pending_stream (convert : φ → Frame → Frame × φ)
    (pending : fine.system.adding = .pushBack filter)
    (flag : fine.system.proxy.addingFilter = true) (quiet : ∀ event ∈ events, ¬event.Adds) :
    ∃ (alone : List Handled) (tail : List (StreamEvent φ Handled)),
      stream convert fine events = alone.map .pass ++ tail ∧
      (∀ handled ∈ alone, handled.adding = true) ∧
      (tail = [] ∨ ∃ rest, tail = .install filter :: rest ∧ FilterChain.installs rest = []) := by
  induction events generalizing fine with
  | nil => exact ⟨[], [], rfl, fun _ member => (by cases member), Or.inl rfl⟩
  | cons event rest ih =>
      obtain ⟨first, later⟩ := List.forall_mem_cons.mp quiet
      rw [stream]
      by_cases pushes : event = .addTurn
      · subst pushes
        have clearing : (fine.step convert .addTurn).system.adding = .clearFlag := by
          simp [step, FilteredPubSub.step, FilteredPubSub.addTurn, pending]
        have installed : fine.streams .addTurn = [.install filter] := by
          simp [streams, FilteredPubSub.streams, pending]
        refine ⟨[], _, rfl, fun _ member => (by cases member),
          Or.inr ⟨_, ?_, clearing_stream convert clearing later⟩⟩
        rw [installed]
        rfl
      · obtain ⟨adding, kept, _⟩ := step_adding convert fine first pushes
        obtain ⟨alone, tail, streamed, flagged, ends⟩ :=
          ih (adding.trans pending) (kept.trans flag) later
        obtain ⟨taken, took, leaves⟩ := flagged_streams flag first pushes
        refine ⟨taken ++ alone, tail, ?_, ?_, ends⟩
        · rw [took, streamed, List.map_append, List.append_assoc]
        · intro handled member
          exact (List.mem_append.mp member).elim (leaves handled) (flagged handled)

theorem outputs_alone {alone : List Handled} (leaves : ∀ handled ∈ alone, handled.adding = true)
    (later : List Handled) :
    Run.outputs (convertHandled convert) filter (alone ++ later) =
      alone ++ Run.outputs (convertHandled convert) filter later := by
  induction alone with
  | nil => rfl
  | cons handled rest ih =>
      obtain ⟨first, others⟩ := List.forall_mem_cons.mp leaves
      have left : convertHandled convert filter handled = (handled, filter) := if_pos first
      rw [List.cons_append, Run.outputs, left, ih others, List.cons_append]

/-- A filter that is added once converts what is taken after the call has begun, but for
what is taken until it is over. -/
theorem added_once (convert : φ → Frame → Frame × φ) (topics : ι → Frame) (filter : φ)
    (once : ∀ event ∈ before ++ after, ¬event.Adds) :
    let stream := stream convert (start topics) (before ++ .addFilter filter :: after)
    FilterChain.convertAll (convertHandled convert) (FilterChain.installs stream)
        (FilterChain.messages stream) =
      FilterChain.convertAfter (convertHandled convert) (FilterChain.messages stream)
        { late := (FilterChain.messages (SpinningProxy.stream convert (start topics) before)).length
          filter } := by
  intro stream
  have quietBefore : ∀ event ∈ before, ¬event.Adds :=
    fun event member => once event (List.mem_append_left _ member)
  have quietAfter : ∀ event ∈ after, ¬event.Adds :=
    fun event member => once event (List.mem_append_right _ member)
  let began : SpinningProxy κ ι φ := Run.final (step convert) (start topics) before
  obtain ⟨idle, silent⟩ : began.system.adding = .idle ∧
      FilterChain.installs (SpinningProxy.stream convert (start topics) before) = [] :=
    idle_stream convert rfl quietBefore
  have pending : (began.step convert (.addFilter filter)).system.adding = .pushBack filter ∧
      (began.step convert (.addFilter filter)).system.proxy.addingFilter = true := by
    simp only [step, FilteredPubSub.step, FilteredPubSub.addFilter, idle, and_self]
  obtain ⟨alone, tail, streamed, leaves, ends⟩ :=
    pending_stream convert pending.1 pending.2 quietAfter
  have streamed : stream = SpinningProxy.stream convert (start topics) before ++
      (alone.map .pass ++ tail) := by
    rw [← streamed]
    exact stream_append before (.addFilter filter :: after)
  rw [streamed, FilterChain.installs_append, FilterChain.installs_append, FilterChain.installs_pass,
    silent, FilterChain.messages_append, FilterChain.messages_append, FilterChain.messages_pass,
    FilterChain.convertAfter, List.take_left, List.drop_left, outputs_alone leaves]
  rcases ends with rfl | ⟨rest, rfl, none_later⟩
  · simp [FilterChain.installs, FilterChain.messages, FilterChain.convertAll, Run.outputs]
  · simp only [FilterChain.installs, none_later, FilterChain.messages, List.map_nil, List.map_cons,
      List.nil_append, FilterChain.convertAll, List.foldl_cons, List.foldl_nil]
    rw [FilterChain.convertAfter, ← List.append_assoc, ← List.append_assoc]
    have late : (FilterChain.messages (SpinningProxy.stream convert (start topics) before) ++
        alone).length = 0 + alone.length +
          (FilterChain.messages (SpinningProxy.stream convert (start topics) before)).length := by
      rw [List.length_append]
      omega
    simp only [FilterChain.Installed.shift, ← late, List.take_left, List.drop_left]

theorem quiet_between (quiet : ∀ event ∈ events, ¬event.Adds) :
    Run.EachStep (step convert) BeginsBetween fine events := by
  induction events generalizing fine with
  | nil => trivial
  | cons event rest ih =>
      obtain ⟨first, later⟩ := List.forall_mem_cons.mp quiet
      exact ⟨fun adds => absurd adds first, ih later⟩

/-- With one call it is enough that this one begins between messages. -/
theorem once_between (once : ∀ event ∈ before ++ after, ¬event.Adds)
    (began : (Run.final (step convert) fine before).BeginsBetween (.addFilter filter)) :
    Run.EachStep (step convert) BeginsBetween fine (before ++ .addFilter filter :: after) :=
  Run.eachStep_append.mpr
    ⟨quiet_between fun event member => once event (List.mem_append_left _ member), began,
      quiet_between fun event member => once event (List.mem_append_right _ member)⟩

end OneCall

/-! The message under way, and what is behind it. -/

section UnderWay

variable [DecidableEq κ] [DecidableEq ι] {coarse : FilteredPubSub κ ι φ}
  {deferred : List (FilteredEvent κ ι φ)} {topic first : Frame} {filters : List φ}

theorem Busy.frontend (convert : φ → Frame → Frame × φ)
    (busy : fine.Busy coarse deferred topic first filters) :
    fine.system.proxy.frontendSock =
      (Run.final (FilteredPubSub.step convert) coarse (.spin :: deferred)).proxy.frontendSock := by
  obtain ⟨ofAdd, frontendSock, received, same⟩ := busy
  rw [same, Run.final_cons, FilteredPubSub.final_withAdds convert _ ofAdd]
  simp only [FilteredPubSub.step, spin_received received, List.foldl_cons, List.foldl_nil]
  rfl

/-- The thread has taken from the queue what the atomic run has once nothing is under
way, and that publishes nothing. -/
theorem Follows.underWay_taken (follows : Follows convert fine coarse deferred) :
    fine.system.proxy.frontendSock =
        (Run.final (FilteredPubSub.step convert) coarse (fine.underWay deferred)).proxy.frontendSock ∧
      (fine.underWay deferred).flatMap FilteredEvent.publishes = [] := by
  have taken {topic first : Frame} {filters : List φ} (at_ : fine.point ≠ .idle)
      (busy : fine.Busy coarse deferred topic first filters) :
      fine.system.proxy.frontendSock =
          (Run.final (FilteredPubSub.step convert) coarse (fine.underWay deferred)).proxy.frontendSock ∧
        (fine.underWay deferred).flatMap FilteredEvent.publishes = [] := by
    have silent : deferred.flatMap FilteredEvent.publishes = [] := publishes_ofAdd busy.ofAdd
    rw [underWay_busy at_]
    exact ⟨busy.frontend convert, silent⟩
  cases follows with
  | idle rests same =>
      rw [underWay_idle rests, same]
      exact ⟨rfl, rfl⟩
  | converting converts =>
      obtain ⟨_, _, _, _, _, _, _, _, _, busy⟩ := converts.loop
      exact taken converts.busy busy
  | sending sends =>
      have at_ := sends.busy
      obtain ⟨_, _, _, busy⟩ := sends
      exact taken at_ busy

/-- The proxy takes what was published in order, and what the filters make of it the
subscribers hold, but for the message that is under way. -/
theorem run_converted (convert : φ → Frame → Frame × φ) (topics : ι → Frame)
    (between : Run.EachStep (step convert) BeginsBetween (.start topics) events) :
    let fine := Run.final (step convert) (.start topics) events
    let stream := stream convert (.start topics) events
    let handled := FilterChain.messages stream
    let out := FilterChain.convertAll (convertHandled convert) (FilterChain.installs stream) handled
    (∃ onward, fine.system.proxy.frontendSock.queue = onward.map envelope ∧
        handled.map Handled.sent ++ onward = events.flatMap FilteredEvent.publishes) ∧
      ∃ whole rest, out = whole ++ rest ∧ (fine.point = .idle → rest = []) ∧
        ∀ subscriber, (fine.system.subscribers subscriber).Holds (topics subscriber)
          (whole.map Handled.sent) := by
  intro fine stream handled out
  have raceless : Run.EachStep (step convert) Raceless (.start topics) events :=
    run_raceless ⟨fun _ => rfl, fun _ _ _ at_ => (by cases at_)⟩ between
  obtain ⟨atomic, deferred, follows, published, seen⟩ := run_follows (.idle rfl rfl) raceless
  have seen : stream =
      FilteredPubSub.stream convert (.start topics) (atomic ++ fine.underWay deferred) := seen
  obtain ⟨frontend, silent⟩ := follows.underWay_taken
  constructor
  · obtain ⟨⟨onward, queue, total⟩, _⟩ :=
      Network.run_converted convert topics (atomic ++ fine.underWay deferred)
    refine ⟨onward, ?_, ?_⟩
    · rw [frontend, ← Run.final_append]
      exact queue
    · rw [← published]
      refine (congrArg (fun stream => (FilterChain.messages stream).map Handled.sent ++ onward)
        seen).trans (total.trans ?_)
      rw [List.flatMap_append, silent, List.append_nil]
  · obtain ⟨_, holds⟩ := Network.run_converted convert topics atomic
    let taken := FilteredPubSub.stream convert (.start topics) atomic
    let later := FilteredPubSub.stream convert
      (Run.final (FilteredPubSub.step convert) (.start topics) atomic) (fine.underWay deferred)
    let chain := Run.final (FilterChain.step (convertHandled convert)) .empty taken
    have split : stream = taken ++ later := seen.trans (FilteredPubSub.stream_append _ _)
    have whole : chain.out = FilterChain.convertAll (convertHandled convert)
        (FilterChain.installs taken) (FilterChain.messages taken) := FilterChain.run_out .empty taken
    have every : (Run.final (FilterChain.step (convertHandled convert)) .empty stream).out = out :=
      FilterChain.run_out .empty stream
    rw [split, Run.final_append, FilterChain.run_out] at every
    refine ⟨chain.out, _, every.symm, fun rests => ?_, fun subscriber => ?_⟩
    · have none_later : later = [] := by
        simp only [later, underWay_idle rests, FilteredPubSub.stream]
      rw [none_later]
      exact FilterChain.convertAll_nil _
    · rw [follows.subscribers.1, whole]
      exact holds subscriber

end UnderWay

end SpinningProxy

/-- What a subscriber of a running proxy holds of what went out, against all of it. -/
theorem Subscriber.Holds.given_extends {subscriber : Subscriber} {topic : Frame}
    {whole : List (Frame × Frame)} (holds : subscriber.Holds topic whole)
    (rest : List (Frame × Frame)) :
    subscriber.given <+: taken topic (whole ++ rest) ∧
      (rest = [] → subscriber.socket.queue = [] →
        subscriber.given = taken topic (whole ++ rest)) := by
  obtain ⟨given, all⟩ := holds.given
  constructor
  · rw [taken_append]
    exact given.trans (List.prefix_append _ _)
  · rintro rfl empty
    rw [List.append_nil]
    exact all empty

/-- When calls of `add_filter` come one after another and each begins between messages,
what subscribers are given is what the filters make of the messages that the proxy took,
one filter after the other: each converts what was taken after its `push_back`, but for
what was taken while `add_filter` had the flag set.  The proxy takes what was published,
in order and each message once, and keeps the topics. -/
theorem filters_convert_in_turn [DecidableEq κ] [DecidableEq ι] (convert : φ → Frame → Frame × φ)
    (topics : ι → Frame) (events : List (FilteredEvent κ ι φ)) (subscriber : ι)
    (between : Run.EachStep (SpinningProxy.step convert) SpinningProxy.BeginsBetween
      (.start topics) events) :
    let fine := Run.final (SpinningProxy.step convert) (.start topics) events
    let stream := SpinningProxy.stream convert (.start topics) events
    let handled := FilterChain.messages stream
    let out := FilterChain.convertAll (convertHandled convert) (FilterChain.installs stream) handled
    handled.map Handled.sent <+: events.flatMap FilteredEvent.publishes ∧
      (fine.system.proxy.frontendSock.queue = [] →
        handled.map Handled.sent = events.flatMap FilteredEvent.publishes) ∧
      out.map Handled.topic = handled.map Handled.topic ∧
      (fine.system.subscribers subscriber).given <+:
        taken (topics subscriber) (out.map Handled.sent) ∧
      (fine.point = .idle → (fine.system.subscribers subscriber).socket.queue = [] →
        (fine.system.subscribers subscriber).given =
          taken (topics subscriber) (out.map Handled.sent)) := by
  intro fine stream handled out
  obtain ⟨⟨onward, queue, total⟩, whole, rest, split, finished, holds⟩ :=
    SpinningProxy.run_converted convert topics between
  obtain ⟨given, all⟩ := (holds subscriber).given_extends (rest.map Handled.sent)
  rw [← List.map_append, ← split] at given all
  refine ⟨⟨onward, total⟩, fun empty => ?_, ?_, given, fun rests => all ?_⟩
  · have none_left : onward = [] := List.map_eq_nil_iff.mp (queue.symm.trans empty)
    rw [none_left, List.append_nil] at total
    exact total
  · have kept := congrArg (List.map Prod.fst)
      (convertAll_kept convert (FilterChain.installs stream) handled)
    simpa only [List.map_map, Function.comp_def] using kept
  · rw [finished rests]
    rfl

/-- One message is through before the filter is added, one is taken under the call, and
one comes behind it. -/
def addedBetween : List (FilteredEvent Unit Unit UInt8) :=
  [.concurrentPublish cmdTopic [1], .spin, .spin, .spin, .addFilter 7,
    .concurrentPublish cmdTopic [2], .spin, .addTurn, .spin, .addTurn,
    .concurrentPublish cmdTopic [3], .spin, .spin, .spin, .spin, .turn (), .turn (), .turn ()]

theorem filters_convert_in_turn_between :
    let convert := fun (filter : UInt8) (req : Frame) => (req ++ [filter], filter + 1)
    let fine := Run.final (SpinningProxy.step convert) (.start fun _ => cmdTopic) addedBetween
    let stream := SpinningProxy.stream convert (.start fun _ => cmdTopic) addedBetween
    let handled := FilterChain.messages stream
    let out := FilterChain.convertAll (convertHandled convert) (FilterChain.installs stream) handled
    handled.map Handled.sent <+: addedBetween.flatMap FilteredEvent.publishes ∧
      (fine.system.proxy.frontendSock.queue = [] →
        handled.map Handled.sent = addedBetween.flatMap FilteredEvent.publishes) ∧
      out.map Handled.topic = handled.map Handled.topic ∧
      (fine.system.subscribers ()).given <+: taken cmdTopic (out.map Handled.sent) ∧
      (fine.point = .idle → (fine.system.subscribers ()).socket.queue = [] →
        (fine.system.subscribers ()).given = taken cmdTopic (out.map Handled.sent)) :=
  filters_convert_in_turn _ (fun _ => cmdTopic) addedBetween ()
    ⟨False.elim, False.elim, False.elim, False.elim, fun _ _ _ _ at_ => (by cases at_), False.elim,
      False.elim, False.elim, False.elim, False.elim, False.elim, False.elim, False.elim,
      False.elim, False.elim, False.elim, False.elim, False.elim, trivial⟩

/-- The filter sees the last one only. -/
example : ((Run.final (SpinningProxy.step fun (filter : UInt8) req => (req ++ [filter], filter + 1))
      (.start fun _ : Unit => cmdTopic) addedBetween).system.subscribers ()).given =
    [[1], [2], [3, 7]] := by
  decide

end Sentinet.Network
