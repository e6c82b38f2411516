import Sentinet.Data.Run
import Sentinet.Network.PubSub

namespace Sentinet.Network

open Sentinet.Data

/-! The loops of the worker threads, one program point at a time, and what a
cancelled worker can still be waiting for.  `mutex_lock` is taken after a receive
and given back before the next one, so waiting for it belongs to the callback. -/

/-- `server_thread_bound` and `server_thread` have the same loop. -/
inductive WorkerLoop where
  | publisher | subscriber | requester | server
deriving DecidableEq, Repr

/-- The frames of the messages that a peer sends to such a worker. -/
def WorkerLoop.frames : WorkerLoop → Nat
  | .publisher => 0
  | .subscriber => 2
  | .requester => 1
  | .server => 1

inductive LoopPoint where
  | exitCheck | poll | send | receive | receiveRest | callback | reply | sleep | ended
deriving DecidableEq, Repr

def WorkerLoop.points : WorkerLoop → List LoopPoint
  | .publisher => [.exitCheck, .send, .sleep, .ended]
  | .subscriber => [.exitCheck, .poll, .receive, .receiveRest, .callback, .ended]
  | .requester => [.exitCheck, .send, .receive, .callback, .sleep, .ended]
  | .server => [.exitCheck, .poll, .receive, .callback, .reply, .ended]

/-- The frames that arrived and were not received; `awaiting` is a request
without a reply, the only thing that lets one in. -/
structure LoopState where
  point : LoopPoint
  exitSignal : Bool
  inbox : List Frame
  awaiting : Bool

namespace LoopState

def start : LoopState := { point := .exitCheck, exitSignal := false, inbox := [], awaiting := false }

/-- `exit_signal.wait_for(0)` at the head of every loop. -/
def exitCheck (state : LoopState) (next : LoopPoint) : LoopState :=
  { state with point := if state.exitSignal then .ended else next }

/-- `zmq::poll(.., 100)`, which gives up after a while. -/
def poll (state : LoopState) : LoopState :=
  { state with point := if state.inbox.isEmpty then .exitCheck else .receive }

/-- `s_recv` waits where it is until there is a frame. -/
def sRecv (state : LoopState) (next : LoopPoint) : LoopState :=
  match state.inbox with
  | [] => state
  | _ :: rest => { state with point := next, inbox := rest }

def periodicPublishThread (state : LoopState) : LoopState :=
  match state.point with
  | .exitCheck => state.exitCheck .send
  | .send => { state with point := .sleep }
  | .sleep => { state with point := .exitCheck }
  | _ => state

def subscriptionThread (state : LoopState) : LoopState :=
  match state.point with
  | .exitCheck => state.exitCheck .poll
  | .poll => state.poll
  | .receive => state.sRecv .receiveRest
  | .receiveRest => state.sRecv .callback
  | .callback => { state with point := .exitCheck }
  | _ => state

/-- No poll stands before the receive. -/
def requesterThread (state : LoopState) : LoopState :=
  match state.point with
  | .exitCheck => state.exitCheck .send
  | .send => { state with point := .receive, awaiting := true }
  | .receive => state.sRecv .callback
  | .callback => { state with point := .sleep }
  | .sleep => { state with point := .exitCheck }
  | _ => state

def serverThread (state : LoopState) : LoopState :=
  match state.point with
  | .exitCheck => state.exitCheck .poll
  | .poll => state.poll
  | .receive => state.sRecv .callback
  | .callback => { state with point := .reply }
  | .reply => { state with point := .exitCheck }
  | _ => state

def turn : WorkerLoop → LoopState → LoopState
  | .publisher, state => state.periodicPublishThread
  | .subscriber, state => state.subscriptionThread
  | .requester, state => state.requesterThread
  | .server, state => state.serverThread

/-- A message arrives; a requester gets a reply only to a request it made. -/
def arrive (loop : WorkerLoop) (state : LoopState) (message : List Frame) : LoopState :=
  if loop = .requester then
    if state.awaiting then { state with inbox := state.inbox ++ message, awaiting := false } else state
  else { state with inbox := state.inbox ++ message }

end LoopState

inductive LoopEvent (loop : WorkerLoop) where
  | turn
  | arrive (message : Vector Frame loop.frames)
  | cancel

namespace LoopState

variable {loop : WorkerLoop} {state : LoopState} {event : LoopEvent loop}
  {events before after : List (LoopEvent loop)}

def step (state : LoopState) : LoopEvent loop → LoopState
  | .turn => state.turn loop
  | .arrive message => state.arrive loop message.toList
  | .cancel => { state with exitSignal := true }

/-- Waiting for a frame that only the peer can still send. -/
def WaitsForPeer (state : LoopState) : Prop :=
  (state.point = .receive ∨ state.point = .receiveRest) ∧ state.inbox = []

def Cancellable (state : LoopState) : Prop := state.exitSignal = true → ¬ state.WaitsForPeer

/-- A requester is not told to leave while it waits for a reply, and sends no
request once it was told to. -/
def Answered (state : LoopState) (event : LoopEvent loop) : Prop :=
  loop = .requester →
    match event with
    | .turn => ¬ (state.exitSignal = true ∧ state.point = .send)
    | .arrive _ => True
    | .cancel => ¬ state.WaitsForPeer

/-- How far the worker is from leaving, once it was told to. -/
def remaining (state : LoopState) : Nat :=
  match state.point with
  | .ended => 0
  | .exitCheck => 1
  | .sleep => 2
  | .reply => 2
  | .callback => 3
  | .receiveRest => 4
  | .receive => 5
  | .poll => 6
  | .send => 6

def ownTurns : List (LoopEvent loop) → Nat
  | [] => 0
  | .turn :: rest => ownTurns rest + 1
  | .arrive _ :: rest => ownTurns rest
  | .cancel :: rest => ownTurns rest

/-- A cancelled worker never waits for its peer, and has left its loop after at
most six of its own steps.  A step that waits first, as the callback does for
`mutex_lock`, also behind a requester that sleeps with it, counts when it completes. -/
structure Cancels (loop : WorkerLoop) (events : List (LoopEvent loop)) : Prop where
  cancellable : Run.EachState step Cancellable start events
  leaves : ∀ before after, events = before ++ after →
    (Run.final step start before).exitSignal = true → 6 ≤ ownTurns after →
      (Run.final step start events).point = .ended

/-- What the inbox holds at each point of each loop: whole messages, and at a
receive behind a poll at least one of them. -/
def InboxOrder (loop : WorkerLoop) (state : LoopState) : Prop :=
  match loop with
  | .publisher => True
  | .subscriber => (state.point = .receive → state.inbox ≠ []) ∧
      state.inbox.length % 2 = if state.point = .receiveRest then 1 else 0
  | .requester => (state.awaiting = true → state.point = .receive) ∧
      state.inbox.length = if state.point = .receive ∧ state.awaiting = false then 1 else 0
  | .server => state.point = .receive → state.inbox ≠ []

structure Orderly (loop : WorkerLoop) (state : LoopState) : Prop where
  place : state.point ∈ loop.points
  inbox : InboxOrder loop state

theorem orderly_start (loop : WorkerLoop) : Orderly loop start := by
  cases loop <;> exact ⟨by decide, by simp [InboxOrder, start]⟩

theorem publisher_turn (orderly : Orderly .publisher state) :
    Orderly .publisher state.periodicPublishThread := by
  obtain ⟨point, exitSignal, inbox, awaiting⟩ := state
  have place : point = .exitCheck ∨ point = .send ∨ point = .sleep ∨ point = .ended := by
    simpa [WorkerLoop.points] using orderly.place
  refine ⟨?_, trivial⟩
  rcases place with rfl | rfl | rfl | rfl
  · cases exitSignal <;> simp [periodicPublishThread, exitCheck, WorkerLoop.points]
  · simp [periodicPublishThread, WorkerLoop.points]
  · simp [periodicPublishThread, WorkerLoop.points]
  · exact orderly.place

theorem subscriber_turn (orderly : Orderly .subscriber state) :
    Orderly .subscriber state.subscriptionThread := by
  obtain ⟨point, exitSignal, inbox, awaiting⟩ := state
  have place : point = .exitCheck ∨ point = .poll ∨ point = .receive ∨ point = .receiveRest ∨
      point = .callback ∨ point = .ended := by simpa [WorkerLoop.points] using orderly.place
  obtain ⟨some, whole⟩ := orderly.inbox
  rcases place with rfl | rfl | rfl | rfl | rfl | rfl
  · have even : inbox.length % 2 = 0 := whole
    cases exitSignal
    · exact ⟨by simp [subscriptionThread, exitCheck, WorkerLoop.points],
        by simpa [subscriptionThread, exitCheck, InboxOrder] using even⟩
    · exact ⟨by simp [subscriptionThread, exitCheck, WorkerLoop.points],
        by simpa [subscriptionThread, exitCheck, InboxOrder] using even⟩
  · have even : inbox.length % 2 = 0 := whole
    cases inbox with
    | nil => exact ⟨by simp [subscriptionThread, poll, WorkerLoop.points],
        by simp [subscriptionThread, poll, InboxOrder]⟩
    | cons frame rest => exact ⟨by simp [subscriptionThread, poll, WorkerLoop.points],
        by simpa [subscriptionThread, poll, InboxOrder] using even⟩
  · cases inbox with
    | nil => exact absurd rfl (some rfl)
    | cons frame rest =>
        have even : (rest.length + 1) % 2 = 0 := whole
        exact ⟨by simp [subscriptionThread, sRecv, WorkerLoop.points],
          by simp [subscriptionThread, sRecv, InboxOrder]; omega⟩
  · cases inbox with
    | nil => contradiction
    | cons frame rest =>
        have odd : (rest.length + 1) % 2 = 1 := whole
        exact ⟨by simp [subscriptionThread, sRecv, WorkerLoop.points],
          by simp [subscriptionThread, sRecv, InboxOrder]; omega⟩
  · have even : inbox.length % 2 = 0 := whole
    exact ⟨by simp [subscriptionThread, WorkerLoop.points],
      by simpa [subscriptionThread, InboxOrder] using even⟩
  · exact orderly

theorem requester_turn (orderly : Orderly .requester state) :
    Orderly .requester state.requesterThread := by
  obtain ⟨point, exitSignal, inbox, awaiting⟩ := state
  have place : point = .exitCheck ∨ point = .send ∨ point = .receive ∨ point = .callback ∨
      point = .sleep ∨ point = .ended := by simpa [WorkerLoop.points] using orderly.place
  have held := orderly.inbox
  rcases place with rfl | rfl | rfl | rfl | rfl | rfl
  · simp [InboxOrder] at held
    cases exitSignal <;> exact ⟨by simp [requesterThread, exitCheck, WorkerLoop.points],
      by simp [requesterThread, exitCheck, InboxOrder, held]⟩
  · simp [InboxOrder] at held
    exact ⟨by simp [requesterThread, WorkerLoop.points],
      by simp [requesterThread, InboxOrder, held]⟩
  · cases inbox with
    | nil => exact orderly
    | cons frame rest =>
        cases awaiting with
        | true => simp [InboxOrder] at held
        | false =>
            have single : rest.length + 1 = 1 := held.2
            have last : rest = [] := List.eq_nil_of_length_eq_zero (by omega)
            exact ⟨by simp [requesterThread, sRecv, WorkerLoop.points],
              by simp [requesterThread, sRecv, InboxOrder, last]⟩
  · simp [InboxOrder] at held
    exact ⟨by simp [requesterThread, WorkerLoop.points],
      by simp [requesterThread, InboxOrder, held]⟩
  · simp [InboxOrder] at held
    exact ⟨by simp [requesterThread, WorkerLoop.points],
      by simp [requesterThread, InboxOrder, held]⟩
  · exact orderly

theorem server_turn (orderly : Orderly .server state) : Orderly .server state.serverThread := by
  obtain ⟨point, exitSignal, inbox, awaiting⟩ := state
  have place : point = .exitCheck ∨ point = .poll ∨ point = .receive ∨ point = .callback ∨
      point = .reply ∨ point = .ended := by simpa [WorkerLoop.points] using orderly.place
  rcases place with rfl | rfl | rfl | rfl | rfl | rfl
  · cases exitSignal <;> exact ⟨by simp [serverThread, exitCheck, WorkerLoop.points],
      by simp [serverThread, exitCheck, InboxOrder]⟩
  · cases inbox <;> exact ⟨by simp [serverThread, poll, WorkerLoop.points],
      by simp [serverThread, poll, InboxOrder]⟩
  · cases inbox with
    | nil => exact absurd rfl (orderly.inbox rfl)
    | cons frame rest => exact ⟨by simp [serverThread, sRecv, WorkerLoop.points],
        by simp [serverThread, sRecv, InboxOrder]⟩
  · exact ⟨by simp [serverThread, WorkerLoop.points], by simp [serverThread, InboxOrder]⟩
  · exact ⟨by simp [serverThread, WorkerLoop.points], by simp [serverThread, InboxOrder]⟩
  · exact orderly

theorem orderly_turn (orderly : Orderly loop state) : Orderly loop (state.turn loop) := by
  cases loop with
  | publisher => exact publisher_turn orderly
  | subscriber => exact subscriber_turn orderly
  | requester => exact requester_turn orderly
  | server => exact server_turn orderly

theorem orderly_arrive (orderly : Orderly loop state) {message : List Frame}
    (whole : message.length = loop.frames) : Orderly loop (state.arrive loop message) := by
  have held := orderly.inbox
  cases loop with
  | publisher => exact ⟨orderly.place, trivial⟩
  | subscriber =>
      obtain ⟨some, parity⟩ := held
      have pair : message.length = 2 := whole
      refine ⟨orderly.place, ?_, ?_⟩
      · intro receives
        exact List.append_ne_nil_of_left_ne_nil (some receives) message
      · change (state.inbox ++ message).length % 2 = _
        rw [List.length_append, pair, Nat.add_mod_right, parity]
        rfl
  | requester =>
      have single : message.length = 1 := whole
      cases waits : state.awaiting with
      | true =>
          have receives := held.1 waits
          have empty : state.inbox.length = 0 := by simpa [waits] using held.2
          have answered : state.arrive .requester message =
              { state with inbox := state.inbox ++ message, awaiting := false } := by
            simp [arrive, waits]
          rw [answered]
          exact ⟨orderly.place, by simp [InboxOrder, receives, empty, single]⟩
      | false =>
          have same : state.arrive .requester message = state := by simp [arrive, waits]
          rw [same]
          exact orderly
  | server =>
      refine ⟨orderly.place, ?_⟩
      intro receives
      exact List.append_ne_nil_of_left_ne_nil (held receives) message

theorem orderly_step (event : LoopEvent loop) (orderly : Orderly loop state) :
    Orderly loop (state.step event) := by
  cases event with
  | turn => exact orderly_turn orderly
  | arrive message => exact orderly_arrive orderly (by simp)
  | cancel => exact ⟨orderly.place, orderly.inbox⟩

/-- Behind a poll there is always something to receive. -/
theorem not_waitsForPeer (orderly : Orderly loop state) (other : loop ≠ .requester) :
    ¬ state.WaitsForPeer := by
  intro waits
  obtain ⟨point, empty⟩ := waits
  have place := orderly.place
  have held := orderly.inbox
  cases loop with
  | publisher => rcases point with point | point <;> simp [point, WorkerLoop.points] at place
  | subscriber =>
      obtain ⟨some, parity⟩ := held
      rcases point with point | point
      · exact some point empty
      · simp [point, empty] at parity
  | requester => contradiction
  | server =>
      rcases point with point | point
      · exact held point empty
      · simp [point, WorkerLoop.points] at place

theorem waitsForPeer_requester (orderly : Orderly .requester state) :
    state.WaitsForPeer ↔ state.awaiting = true := by
  obtain ⟨receives, single⟩ := orderly.inbox
  have place := orderly.place
  constructor
  · intro waits
    obtain ⟨point, empty⟩ := waits
    have receive : state.point = .receive := by
      rcases point with point | point
      · exact point
      · simp [point, WorkerLoop.points] at place
    by_contra answered
    simp [receive, answered, empty] at single
  · intro awaiting
    simp [awaiting] at single
    exact ⟨Or.inl (receives awaiting), single⟩

theorem turn_waitsForPeer (waits : state.WaitsForPeer) : state.turn loop = state := by
  obtain ⟨point, exitSignal, inbox, awaiting⟩ := state
  obtain ⟨receives, empty⟩ := waits
  rcases receives with rfl | rfl <;> cases empty <;> cases loop <;> rfl

/-- Only a requester waits, for the reply to a request of its own. -/
theorem waits_awaiting (orderly : Orderly loop state) (waits : state.WaitsForPeer) :
    loop = .requester ∧ state.awaiting = true := by
  by_cases requester : loop = .requester
  · subst requester
    refine ⟨rfl, ?_⟩
    obtain ⟨receives, empty⟩ := waits
    have held := orderly.inbox
    have place := orderly.place
    by_contra silent
    rcases receives with point | point
    · simp [InboxOrder, point, empty, silent] at held
    · simp [point, WorkerLoop.points] at place
  · exact absurd waits (not_waitsForPeer orderly requester)

theorem not_waitsForPeer_arrive (orderly : Orderly .requester state) {message : List Frame}
    (whole : message.length = WorkerLoop.requester.frames) :
    ¬ (state.arrive .requester message).WaitsForPeer := by
  rw [waitsForPeer_requester (orderly_arrive orderly whole)]
  cases waits : state.awaiting <;> simp [arrive, waits]

/-- Only the step that sends a request begins to wait for the peer. -/
theorem requester_waits_turn (orderly : Orderly .requester state) (free : ¬ state.WaitsForPeer) :
    state.requesterThread.WaitsForPeer ↔ state.point = .send := by
  rw [waitsForPeer_requester (requester_turn orderly)]
  rw [waitsForPeer_requester orderly] at free
  obtain ⟨point, exitSignal, inbox, awaiting⟩ := state
  have idle : awaiting = false := by simpa using free
  subst idle
  cases point with
  | receive => cases inbox <;> simp [requesterThread, sRecv]
  | exitCheck => cases exitSignal <;> simp [requesterThread, exitCheck]
  | send => simp [requesterThread]
  | poll => simp [requesterThread]
  | receiveRest => simp [requesterThread]
  | callback => simp [requesterThread]
  | reply => simp [requesterThread]
  | sleep => simp [requesterThread]
  | ended => simp [requesterThread]

theorem turn_exitSignal : (state.turn loop).exitSignal = state.exitSignal := by
  obtain ⟨point, exitSignal, inbox, awaiting⟩ := state
  cases loop <;> cases point <;> cases inbox <;> rfl

theorem cancellable_step_iff (event : LoopEvent loop) (orderly : Orderly loop state)
    (cancellable : state.Cancellable) :
    (state.step event).Cancellable ↔ Answered state event := by
  by_cases requester : loop = .requester
  · subst requester
    cases event with
    | turn =>
        simp only [Answered, true_implies, Cancellable, step, turn_exitSignal, not_and]
        constructor
        · intro kept cancelled
          exact fun sends => kept cancelled
            ((requester_waits_turn orderly (cancellable cancelled)).mpr sends)
        · intro answered cancelled waits
          exact answered cancelled
            ((requester_waits_turn orderly (cancellable cancelled)).mp waits)
    | arrive message =>
        have free : ¬ (state.step (.arrive message)).WaitsForPeer :=
          not_waitsForPeer_arrive orderly (by simp)
        exact ⟨fun _ _ => trivial, fun _ _ => free⟩
    | cancel => exact ⟨fun kept _ => kept rfl, fun answered _ => answered rfl⟩
  · have free := not_waitsForPeer (orderly_step event orderly) requester
    exact ⟨fun _ same => absurd same requester, fun _ _ => free⟩

/-- Every step of a cancelled worker brings it closer to the end, unless it waits. -/
theorem remaining_turn (orderly : Orderly loop state) (cancelled : state.exitSignal = true)
    (free : ¬ state.WaitsForPeer) :
    (state.turn loop).remaining ≤ state.remaining - 1 := by
  obtain ⟨point, exitSignal, inbox, awaiting⟩ := state
  have told : exitSignal = true := cancelled
  subst told
  have place := orderly.place
  cases loop with
  | publisher =>
      simp only [WorkerLoop.points, List.mem_cons, List.not_mem_nil, or_false] at place
      rcases place with rfl | rfl | rfl | rfl <;>
        simp [turn, periodicPublishThread, exitCheck, remaining]
  | subscriber =>
      simp only [WorkerLoop.points, List.mem_cons, List.not_mem_nil, or_false] at place
      cases inbox with
      | nil =>
          rcases place with rfl | rfl | rfl | rfl | rfl | rfl
          · simp [turn, subscriptionThread, exitCheck, remaining]
          · simp [turn, subscriptionThread, poll, remaining]
          · exact absurd ⟨Or.inl rfl, rfl⟩ free
          · exact absurd ⟨Or.inr rfl, rfl⟩ free
          · simp [turn, subscriptionThread, remaining]
          · simp [turn, subscriptionThread, remaining]
      | cons frame rest =>
          rcases place with rfl | rfl | rfl | rfl | rfl | rfl <;>
            simp [turn, subscriptionThread, exitCheck, poll, sRecv, remaining]
  | requester =>
      simp only [WorkerLoop.points, List.mem_cons, List.not_mem_nil, or_false] at place
      rcases place with rfl | rfl | rfl | rfl | rfl | rfl
      · simp [turn, requesterThread, exitCheck, remaining]
      · simp [turn, requesterThread, remaining]
      · cases inbox with
        | nil => exact absurd ⟨Or.inl rfl, rfl⟩ free
        | cons frame rest => simp [turn, requesterThread, sRecv, remaining]
      · simp [turn, requesterThread, remaining]
      · simp [turn, requesterThread, remaining]
      · simp [turn, requesterThread, remaining]
  | server =>
      simp only [WorkerLoop.points, List.mem_cons, List.not_mem_nil, or_false] at place
      cases inbox with
      | nil =>
          rcases place with rfl | rfl | rfl | rfl | rfl | rfl
          · simp [turn, serverThread, exitCheck, remaining]
          · simp [turn, serverThread, poll, remaining]
          · exact absurd ⟨Or.inl rfl, rfl⟩ free
          · simp [turn, serverThread, remaining]
          · simp [turn, serverThread, remaining]
          · simp [turn, serverThread, remaining]
      | cons frame rest =>
          rcases place with rfl | rfl | rfl | rfl | rfl | rfl <;>
            simp [turn, serverThread, exitCheck, poll, sRecv, remaining]

theorem arrive_remaining (message : List Frame) :
    (state.arrive loop message).remaining = state.remaining := by
  unfold arrive
  split
  · split <;> rfl
  · rfl

theorem arrive_exitSignal (message : List Frame) :
    (state.arrive loop message).exitSignal = state.exitSignal := by
  unfold arrive
  split
  · split <;> rfl
  · rfl

theorem step_exitSignal (event : LoopEvent loop) (cancelled : state.exitSignal = true) :
    (state.step event).exitSignal = true := by
  cases event with
  | turn => exact turn_exitSignal.trans cancelled
  | arrive message => exact (arrive_exitSignal message.toList).trans cancelled
  | cancel => rfl

theorem remaining_final (orderly : Orderly loop state) (cancelled : state.exitSignal = true)
    (cancellable : state.Cancellable) (answered : Run.EachStep step Answered state events) :
    (Run.final step state events).remaining ≤ state.remaining - ownTurns events := by
  induction events generalizing state with
  | nil => exact Nat.le_refl _
  | cons event rest ih =>
      obtain ⟨first, later⟩ := answered
      have next := ih (orderly_step event orderly) (step_exitSignal event cancelled)
        ((cancellable_step_iff event orderly cancellable).mpr first) later
      rw [Run.final_cons]
      cases event with
      | turn =>
          have closer := remaining_turn orderly cancelled (cancellable cancelled)
          have same : (state.step (.turn : LoopEvent loop)).remaining = (state.turn loop).remaining :=
            rfl
          simp only [ownTurns]
          omega
      | arrive message =>
          have same : (state.step (.arrive message)).remaining = state.remaining :=
            arrive_remaining message.toList
          simp only [ownTurns]
          omega
      | cancel => exact next

theorem remaining_le (state : LoopState) : state.remaining ≤ 6 := by
  obtain ⟨point, exitSignal, inbox, awaiting⟩ := state
  cases point <;> simp [remaining]

theorem ended_of_remaining (none : state.remaining = 0) : state.point = .ended := by
  obtain ⟨point, exitSignal, inbox, awaiting⟩ := state
  cases point <;> simp_all [remaining]

theorem cancellable_iff_answered (events : List (LoopEvent loop)) :
    Run.EachState step Cancellable start events ↔ Run.EachStep step Answered start events :=
  Run.eachState_iff_of_invariant (Orderly loop)
    (fun _ event orderly => orderly_step event orderly)
    (fun _ event orderly cancellable => cancellable_step_iff event orderly cancellable)
    (orderly_start loop) (fun told => absurd told (by simp [start]))

theorem cancels_of_answered (answered : Run.EachStep step Answered start events) :
    Cancels loop events := by
  refine ⟨(cancellable_iff_answered events).mpr answered, ?_⟩
  intro before after split cancelled enough
  subst split
  obtain ⟨front, back⟩ := Run.eachStep_append.mp answered
  have orderly : Orderly loop (Run.final step start before) :=
    Run.final_invariant (Orderly loop) (fun event _ _ held => orderly_step event held)
      (orderly_start loop)
  have cancellable : (Run.final step start before).Cancellable :=
    Run.eachState_final ((cancellable_iff_answered before).mpr front)
  have left := remaining_final orderly cancelled cancellable back
  have far := remaining_le (Run.final step start before)
  rw [Run.final_append]
  exact ended_of_remaining (by omega)

end LoopState

open LoopState

/-- Cancelling works in every run of the loops that poll, and of a requester
exactly when it is never left waiting for a reply. -/
theorem workerLoop_cancels_iff (loop : WorkerLoop) (events : List (LoopEvent loop)) :
    (loop ≠ .requester → Cancels loop events) ∧
      (Cancels loop events ↔ Run.EachStep step Answered start events) := by
  constructor
  · intro polls
    exact cancels_of_answered (Run.eachStep_of_invariant (fun _ => True) (fun _ _ _ => trivial)
      (fun _ _ _ requester => absurd requester polls) trivial)
  · constructor
    · intro cancels
      exact (cancellable_iff_answered events).mp cancels.cancellable
    · exact cancels_of_answered

/-- A requester whose server is down, told to leave after its first request. -/
def unansweredRequest : List (LoopEvent .requester) := [.turn, .turn, .cancel]

/-- It waits for the reply, and its own steps do not take it any further. -/
theorem unansweredRequest_blocks :
    (Run.final step start unansweredRequest).WaitsForPeer ∧
      (Run.final step start unansweredRequest).exitSignal = true ∧
      (Run.final step start unansweredRequest).turn .requester =
        Run.final step start unansweredRequest ∧
      ¬ Cancels .requester unansweredRequest := by
  have waits : (Run.final step start unansweredRequest).WaitsForPeer := ⟨Or.inl rfl, rfl⟩
  refine ⟨waits, rfl, rfl, ?_⟩
  intro cancels
  exact Run.eachState_final cancels.cancellable rfl waits

end Sentinet.Network
