import Sentinet.Data.Run
import Sentinet.Network.PubSub

namespace Sentinet.Network

open Sentinet.Data

/-! `ZMQServerProxy`: messages of any number of frames are copied frame by frame
between a router and a dealer socket.  Where a message ends is told by one flag,
read from the one socket and passed on to the other. -/

/-- A message has at least one frame. -/
structure Multipart where
  first : Frame
  rest : List Frame
deriving DecidableEq, Repr

/-- The frames of a message, cut where the next frame goes. -/
def Multipart.close (parts : List Frame) (last : Frame) : Multipart :=
  match parts with
  | [] => { first := last, rest := [] }
  | first :: middle => { first, rest := middle ++ [last] }

/-- A socket delivers whole messages, and takes them over frame by frame:
`reading` is what is left of the message being received, `parts` what was sent
of the one being sent. -/
structure ProxySocket where
  queue : List Multipart
  reading : List Frame
  parts : List Frame
  sent : List Multipart

namespace ProxySocket

def create : ProxySocket := { queue := [], reading := [], parts := [], sent := [] }

def arrive (socket : ProxySocket) (message : Multipart) : ProxySocket :=
  { socket with queue := socket.queue ++ [message] }

/-- `ZMQ_POLLIN` -/
def pollin (socket : ProxySocket) : Bool := !(socket.reading.isEmpty && socket.queue.isEmpty)

/-- `none` blocks. -/
def recv (socket : ProxySocket) : Option (Frame × ProxySocket) :=
  match socket.reading, socket.queue with
  | frame :: reading, _ => some (frame, { socket with reading })
  | [], message :: queue => some (message.first, { socket with queue, reading := message.rest })
  | [], [] => none

/-- `ZMQ_RCVMORE` -/
def rcvMore (socket : ProxySocket) : Bool := !socket.reading.isEmpty

def send (socket : ProxySocket) (message : Frame) (sndMore : Bool) : ProxySocket :=
  if sndMore then { socket with parts := socket.parts ++ [message] }
  else { socket with parts := [], sent := socket.sent ++ [Multipart.close socket.parts message] }

end ProxySocket

/-- One round of either `while (1)` loop: the flag decides whether it goes on. -/
def forward (source target : ProxySocket) : Option (Bool × ProxySocket × ProxySocket) := do
  let (message, source) ← source.recv
  let more := source.rcvMore
  return (more, source, target.send message more)

/-- Where `__spin__` stands: before its poll, or in one of its loops.  The first
loop knows whether the poll saw something for the second. -/
inductive SpinPhase where
  | poll
  | frontend (backendReady : Bool)
  | backend
deriving DecidableEq, Repr

structure ServerProxy where
  phase : SpinPhase
  frontendSock : ProxySocket
  backendSock : ProxySocket

namespace ServerProxy

/-- After `__start__`; before it there is no socket, and `__spin__` returns at once. -/
def start : ServerProxy :=
  { phase := .poll, frontendSock := .create, backendSock := .create }

/-- `__spin__` from its poll or from one round of a loop to the next. -/
def turn (proxy : ServerProxy) : ServerProxy :=
  match proxy.phase with
  | .poll =>
      let backendReady := proxy.backendSock.pollin
      if proxy.frontendSock.pollin then { proxy with phase := .frontend backendReady }
      else if backendReady then { proxy with phase := .backend }
      else proxy
  | .frontend backendReady =>
      match forward proxy.frontendSock proxy.backendSock with
      | none => proxy
      | some (more, frontendSock, backendSock) =>
          let next := if backendReady then .backend else .poll
          { phase := if more then .frontend backendReady else next, frontendSock, backendSock }
  | .backend =>
      match forward proxy.backendSock proxy.frontendSock with
      | none => proxy
      | some (more, backendSock, frontendSock) =>
          { phase := if more then .backend else .poll, frontendSock, backendSock }

end ServerProxy

inductive ProxyEvent where
  | arriveFrontend (message : Multipart)
  | arriveBackend (message : Multipart)
  | turn

namespace ServerProxy

def step (proxy : ServerProxy) : ProxyEvent → ServerProxy
  | .arriveFrontend message =>
      { proxy with frontendSock := proxy.frontendSock.arrive message }
  | .arriveBackend message => { proxy with backendSock := proxy.backendSock.arrive message }
  | .turn => proxy.turn

def frontendArrivals : List ProxyEvent → List Multipart
  | [] => []
  | .arriveFrontend message :: rest => message :: frontendArrivals rest
  | .arriveBackend _ :: rest => frontendArrivals rest
  | .turn :: rest => frontendArrivals rest

def backendArrivals : List ProxyEvent → List Multipart
  | [] => []
  | .arriveFrontend _ :: rest => backendArrivals rest
  | .arriveBackend message :: rest => message :: backendArrivals rest
  | .turn :: rest => backendArrivals rest

/-- The message that is partly received and partly sent. -/
def inFlight (parts reading : List Frame) : List Multipart :=
  match parts ++ reading with
  | [] => []
  | first :: rest => [{ first, rest }]

/-- What arrived at one socket is what the other sent, then the message between
them, then what still waits. -/
structure Link (arrived : List Multipart) (source target : ProxySocket) : Prop where
  order : arrived = target.sent ++ inFlight target.parts source.reading ++ source.queue
  halves : target.parts = [] ↔ source.reading = []

def queuedFrames : List Multipart → Nat
  | [] => 0
  | message :: later => message.rest.length + 1 + queuedFrames later

def pending (socket : ProxySocket) : Nat :=
  socket.reading.length + queuedFrames socket.queue

/-- What one round does to the two sockets: it moves one frame, ends the message
on both sides or on neither, and leaves the way back alone. -/
structure Moved (arrived : List Multipart) (source target received sent : ProxySocket)
    (more : Bool) : Prop where
  link : Link arrived received sent
  more_iff : more = true ↔ received.reading ≠ []
  pending : pending received + 1 = pending source
  back : received.parts = source.parts ∧ received.sent = source.sent ∧
    sent.reading = target.reading ∧ sent.queue = target.queue

section Forward

variable {source target : ProxySocket} {arrived : List Multipart}

theorem send_frame (target : ProxySocket) (frame : Frame) (reading : List Frame) :
    (target.send frame (!reading.isEmpty)).sent ++
        inFlight (target.send frame (!reading.isEmpty)).parts reading =
      target.sent ++ inFlight target.parts (frame :: reading) ∧
    ((target.send frame (!reading.isEmpty)).parts = [] ↔ reading = []) := by
  cases reading with
  | nil =>
      cases parts : target.parts with
      | nil => simp [ProxySocket.send, Multipart.close, inFlight, parts]
      | cons first middle => simp [ProxySocket.send, Multipart.close, inFlight, parts]
  | cons next rest =>
      cases parts : target.parts with
      | nil => simp [ProxySocket.send, inFlight, parts]
      | cons first middle => simp [ProxySocket.send, inFlight, parts]

theorem send_back (target : ProxySocket) (frame : Frame) (more : Bool) :
    (target.send frame more).reading = target.reading ∧
      (target.send frame more).queue = target.queue := by
  cases more <;> exact ⟨rfl, rfl⟩

theorem forward_moved (link : Link arrived source target) (ready : source.pollin = true) :
    ∃ more received sent, forward source target = some (more, received, sent) ∧
      Moved arrived source target received sent more := by
  obtain ⟨queue, reading, parts, messages⟩ := source
  have order := link.order
  cases reading with
  | cons frame reading =>
      obtain ⟨moved, halves⟩ := send_frame target frame reading
      refine ⟨_, _, _, rfl, ⟨?_, halves⟩, ?_, ?_, rfl, rfl, send_back target frame _⟩
      · rw [order]
        exact congrArg (· ++ queue) moved.symm
      · cases reading <;> simp [ProxySocket.rcvMore]
      · simp only [ServerProxy.pending, List.length_cons]
        omega
  | nil =>
      cases queue with
      | nil => contradiction
      | cons message queue =>
          obtain ⟨moved, halves⟩ := send_frame target message.first message.rest
          have empty : target.parts = [] := link.halves.mpr rfl
          refine ⟨_, _, _, rfl, ⟨?_, halves⟩, ?_, ?_, rfl, rfl, send_back target message.first _⟩
          · have whole : target.sent ++ inFlight target.parts (message.first :: message.rest) =
                target.sent ++ [message] := by simp [inFlight, empty]
            rw [whole] at moved
            have front : arrived = target.sent ++ [message] ++ queue := by
              simpa [inFlight, empty] using order
            rw [front]
            exact congrArg (· ++ queue) moved.symm
          · cases message.rest <;> simp [ProxySocket.rcvMore]
          · simp only [ServerProxy.pending, List.length_nil, queuedFrames]
            omega

end Forward

/-- The loop that `__spin__` is in has something to receive, and nothing is under
way that its phase does not say. -/
def InPlace (frontend backend : ProxySocket) : SpinPhase → Prop
  | .poll => frontend.reading = [] ∧ backend.reading = []
  | .frontend backendReady => frontend.pollin = true ∧ backend.reading = [] ∧
      (backendReady = true → backend.pollin = true)
  | .backend => backend.pollin = true ∧ frontend.reading = []

structure Steady (frontend backend : List Multipart) (proxy : ServerProxy) : Prop where
  toBackend : Link frontend proxy.frontendSock proxy.backendSock
  toFrontend : Link backend proxy.backendSock proxy.frontendSock
  place : InPlace proxy.frontendSock proxy.backendSock proxy.phase

def pollsLeft : SpinPhase → Nat
  | .poll => 1
  | .frontend _ => 0
  | .backend => 0

def work (proxy : ServerProxy) : Nat :=
  2 * (pending proxy.frontendSock + pending proxy.backendSock) + pollsLeft proxy.phase

section Runs

variable {proxy : ServerProxy} {frontend backend arrived : List Multipart}
  {source target received sent : ProxySocket} {more : Bool}

theorem steady_start : Steady [] [] start :=
  ⟨⟨rfl, Iff.rfl⟩, ⟨rfl, Iff.rfl⟩, rfl, rfl⟩

theorem Link.arrive (link : Link arrived source target) (message : Multipart) :
    Link (arrived ++ [message]) (source.arrive message) target := by
  refine ⟨?_, link.halves⟩
  rw [link.order]
  exact List.append_assoc _ _ _

theorem Link.arrive_target (link : Link arrived source target) (message : Multipart) :
    Link arrived source (target.arrive message) := ⟨link.order, link.halves⟩

theorem pollin_arrive (socket : ProxySocket) (message : Multipart) :
    (socket.arrive message).pollin = true := by
  simp [ProxySocket.pollin, ProxySocket.arrive]

theorem pollin_of_reading {socket : ProxySocket} (started : socket.reading ≠ []) :
    socket.pollin = true := by
  simp [ProxySocket.pollin, started]

theorem pending_of_idle {socket : ProxySocket} (idle : socket.pollin = false) :
    pending socket = 0 := by
  have empty : socket.reading = [] ∧ socket.queue = [] := by
    simpa [ProxySocket.pollin] using idle
  simp [pending, empty, queuedFrames]

theorem inPlace_arriveFrontend {phase : SpinPhase} (place : InPlace source target phase)
    (message : Multipart) : InPlace (source.arrive message) target phase := by
  cases phase with
  | poll => exact place
  | frontend backendReady => exact ⟨pollin_arrive source message, place.2⟩
  | backend => exact place

theorem inPlace_arriveBackend {phase : SpinPhase} (place : InPlace source target phase)
    (message : Multipart) : InPlace source (target.arrive message) phase := by
  cases phase with
  | poll => exact place
  | frontend backendReady => exact ⟨place.1, place.2.1, fun _ => pollin_arrive target message⟩
  | backend => exact ⟨pollin_arrive target message, place.2⟩

theorem steady_arriveFrontend (steady : Steady frontend backend proxy) (message : Multipart) :
    Steady (frontend ++ [message]) backend
      { proxy with frontendSock := proxy.frontendSock.arrive message } :=
  ⟨steady.toBackend.arrive message, steady.toFrontend.arrive_target message,
    inPlace_arriveFrontend steady.place message⟩

theorem steady_arriveBackend (steady : Steady frontend backend proxy) (message : Multipart) :
    Steady frontend (backend ++ [message])
      { proxy with backendSock := proxy.backendSock.arrive message } :=
  ⟨steady.toBackend.arrive_target message, steady.toFrontend.arrive message,
    inPlace_arriveBackend steady.place message⟩

theorem Moved.returns (moved : Moved arrived source target received sent more)
    {other : List Multipart} (link : Link other target source) : Link other sent received := by
  obtain ⟨parts, messages, reading, queue⟩ := moved.back
  refine ⟨?_, ?_⟩
  · rw [parts, messages, reading, queue]
    exact link.order
  · rw [parts, reading]
    exact link.halves

theorem Moved.pending_target (moved : Moved arrived source target received sent more) :
    ServerProxy.pending sent = ServerProxy.pending target := by
  obtain ⟨-, -, reading, queue⟩ := moved.back
  rw [ServerProxy.pending, reading, queue, ServerProxy.pending]

theorem Moved.pollin_target (moved : Moved arrived source target received sent more) :
    sent.pollin = target.pollin := by
  obtain ⟨-, -, reading, queue⟩ := moved.back
  rw [ProxySocket.pollin, reading, queue, ProxySocket.pollin]

theorem Moved.reading_done (moved : Moved arrived source target received sent false) :
    received.reading = [] := by
  by_contra started
  exact absurd (moved.more_iff.mpr started) (by simp)

theorem work_eq (phase : SpinPhase) (frontendSock backendSock : ProxySocket) :
    work { phase, frontendSock, backendSock } =
      2 * (pending frontendSock + pending backendSock) + pollsLeft phase := rfl

theorem pollsLeft_le (phase : SpinPhase) : pollsLeft phase ≤ 1 := by
  cases phase <;> simp [pollsLeft]

theorem steady_poll {frontendSock backendSock : ProxySocket}
    (steady : Steady frontend backend { phase := .poll, frontendSock, backendSock }) :
    Steady frontend backend (turn { phase := .poll, frontendSock, backendSock }) ∧
      (turn { phase := .poll, frontendSock, backendSock }).work ≤
        max 1 (work { phase := .poll, frontendSock, backendSock } - 1) := by
  obtain ⟨toBackend, toFrontend, calm, idle⟩ := steady
  cases frontendReady : frontendSock.pollin with
  | true =>
      have next : turn { phase := .poll, frontendSock, backendSock } =
          { phase := .frontend backendSock.pollin, frontendSock, backendSock } := by
        simp only [turn, frontendReady, if_true]
      rw [next, work_eq, work_eq]
      exact ⟨⟨toBackend, toFrontend, frontendReady, idle, id⟩, Nat.le_max_right _ _⟩
  | false =>
      cases backendReady : backendSock.pollin with
      | true =>
          have next : turn { phase := .poll, frontendSock, backendSock } =
              { phase := .backend, frontendSock, backendSock } := by
            simp only [turn, frontendReady, backendReady, Bool.false_eq_true, if_false, if_true]
          rw [next, work_eq, work_eq]
          exact ⟨⟨toBackend, toFrontend, backendReady, calm⟩, Nat.le_max_right _ _⟩
      | false =>
          have next : turn { phase := .poll, frontendSock, backendSock } =
              { phase := .poll, frontendSock, backendSock } := by
            simp only [turn, frontendReady, backendReady, Bool.false_eq_true, if_false]
          rw [next, work_eq, pending_of_idle frontendReady, pending_of_idle backendReady]
          exact ⟨⟨toBackend, toFrontend, calm, idle⟩, Nat.le_max_left _ _⟩

theorem steady_frontend {frontendSock backendSock : ProxySocket} {ready : Bool}
    (steady : Steady frontend backend { phase := .frontend ready, frontendSock, backendSock }) :
    Steady frontend backend (turn { phase := .frontend ready, frontendSock, backendSock }) ∧
      (turn { phase := .frontend ready, frontendSock, backendSock }).work ≤
        max 1 (work { phase := .frontend ready, frontendSock, backendSock } - 1) := by
  obtain ⟨toBackend, toFrontend, place⟩ := steady
  obtain ⟨begun, idle, polled⟩ := place
  -- The round cannot block: the poll or the last flag promised a frame.
  obtain ⟨more, received, sent, forwarded, moved⟩ := forward_moved toBackend begun
  have fewer : pending received + 1 = pending frontendSock := moved.pending
  have same : pending sent = pending backendSock := moved.pending_target
  have back := moved.returns toFrontend
  have settled : sent.reading = [] := moved.back.2.2.1.trans idle
  have waiting : ready = true → sent.pollin = true := by
    rw [moved.pollin_target]
    exact polled
  have next : turn { phase := .frontend ready, frontendSock, backendSock } =
      { phase := if more then .frontend ready else if ready then .backend else .poll
        frontendSock := received, backendSock := sent } := by
    simp only [turn, forwarded]
  rw [next, work_eq, work_eq]
  refine ⟨⟨moved.link, back, ?_⟩, ?_⟩
  · cases more with
    | true => exact ⟨pollin_of_reading (moved.more_iff.mp rfl), settled, waiting⟩
    | false =>
        cases ready with
        | true => exact ⟨waiting rfl, moved.reading_done⟩
        | false => exact ⟨moved.reading_done, settled⟩
  · have polls := pollsLeft_le (if more then .frontend ready else if ready then .backend else .poll)
    omega

theorem steady_backend {frontendSock backendSock : ProxySocket}
    (steady : Steady frontend backend { phase := .backend, frontendSock, backendSock }) :
    Steady frontend backend (turn { phase := .backend, frontendSock, backendSock }) ∧
      (turn { phase := .backend, frontendSock, backendSock }).work ≤
        max 1 (work { phase := .backend, frontendSock, backendSock } - 1) := by
  obtain ⟨toBackend, toFrontend, place⟩ := steady
  obtain ⟨begun, idle⟩ := place
  obtain ⟨more, received, sent, forwarded, moved⟩ := forward_moved toFrontend begun
  have fewer : pending received + 1 = pending backendSock := moved.pending
  have same : pending sent = pending frontendSock := moved.pending_target
  have back := moved.returns toBackend
  have settled : sent.reading = [] := moved.back.2.2.1.trans idle
  have next : turn { phase := .backend, frontendSock, backendSock } =
      { phase := if more then .backend else .poll
        frontendSock := sent, backendSock := received } := by
    simp only [turn, forwarded]
  rw [next, work_eq, work_eq]
  refine ⟨⟨back, moved.link, ?_⟩, ?_⟩
  · cases more with
    | true => exact ⟨pollin_of_reading (moved.more_iff.mp rfl), settled⟩
    | false => exact ⟨settled, moved.reading_done⟩
  · have polls := pollsLeft_le (if more then .backend else .poll)
    omega

theorem steady_turn (steady : Steady frontend backend proxy) :
    Steady frontend backend proxy.turn ∧ proxy.turn.work ≤ max 1 (proxy.work - 1) := by
  obtain ⟨phase, frontendSock, backendSock⟩ := proxy
  cases phase with
  | poll => exact steady_poll steady
  | frontend backendReady => exact steady_frontend steady
  | backend => exact steady_backend steady

theorem steady_final (steady : Steady frontend backend proxy) (events : List ProxyEvent) :
    Steady (frontend ++ frontendArrivals events) (backend ++ backendArrivals events)
      (Run.final step proxy events) := by
  induction events generalizing frontend backend proxy with
  | nil => simpa [frontendArrivals, backendArrivals] using steady
  | cons event rest ih =>
      rw [Run.final_cons]
      cases event with
      | arriveFrontend message =>
          have next := ih (steady_arriveFrontend steady message)
          rw [List.append_assoc] at next
          exact next
      | arriveBackend message =>
          have next := ih (steady_arriveBackend steady message)
          rw [List.append_assoc] at next
          exact next
      | turn => exact ih (steady_turn steady).1

theorem turns_arrivals (turns : Nat) :
    frontendArrivals (List.replicate turns .turn) = [] ∧
      backendArrivals (List.replicate turns .turn) = [] := by
  induction turns with
  | zero => exact ⟨rfl, rfl⟩
  | succ turns ih => exact ih

theorem steady_turns (steady : Steady frontend backend proxy) (turns : Nat) :
    Steady frontend backend (Run.final step proxy (List.replicate turns .turn)) := by
  have final := steady_final steady (List.replicate turns .turn)
  rwa [(turns_arrivals turns).1, (turns_arrivals turns).2, List.append_nil, List.append_nil] at final

theorem work_turns (steady : Steady frontend backend proxy) (turns : Nat) :
    (Run.final step proxy (List.replicate turns .turn)).work ≤ max 1 (proxy.work - turns) := by
  induction turns generalizing proxy with
  | zero => exact Nat.le_max_right _ _
  | succ turns ih =>
      obtain ⟨next, less⟩ := steady_turn steady
      have later := ih next
      have same : step proxy .turn = proxy.turn := rfl
      rw [List.replicate_succ, Run.final_cons, same]
      omega

theorem Link.delivered (link : Link arrived source target) (empty : pending source = 0) :
    target.sent = arrived := by
  obtain ⟨unread, untouched⟩ : source.reading.length = 0 ∧ queuedFrames source.queue = 0 :=
    Nat.add_eq_zero_iff.mp empty
  have reading := List.eq_nil_of_length_eq_zero unread
  have queue : source.queue = [] := by
    cases waiting : source.queue with
    | nil => rfl
    | cons message later =>
        rw [waiting, queuedFrames] at untouched
        omega
  have order := link.order
  rw [link.halves.mpr reading, reading, queue] at order
  simpa [inFlight] using order.symm

end Runs

/-- What arrived at either side has left at the other, frame by frame and message
by message, except for the message under way and those that wait; between two
spins none is under way, and once nothing arrives any more all have left. -/
structure Preserves (events : List ProxyEvent) (proxy : ServerProxy) : Prop where
  toBackend : frontendArrivals events = proxy.backendSock.sent ++
    inFlight proxy.backendSock.parts proxy.frontendSock.reading ++ proxy.frontendSock.queue
  toFrontend : backendArrivals events = proxy.frontendSock.sent ++
    inFlight proxy.frontendSock.parts proxy.backendSock.reading ++ proxy.backendSock.queue
  betweenSpins : proxy.phase = .poll →
    inFlight proxy.backendSock.parts proxy.frontendSock.reading = [] ∧
      inFlight proxy.frontendSock.parts proxy.backendSock.reading = []
  delivered : ∃ turns,
    (Run.final step proxy (List.replicate turns .turn)).backendSock.sent =
        frontendArrivals events ∧
      (Run.final step proxy (List.replicate turns .turn)).frontendSock.sent =
        backendArrivals events

end ServerProxy

open ServerProxy

/-- The proxy preserves the messages in both directions, in every interleaving of
arrivals with the rounds of its spins. -/
theorem serverProxy_preserves (events : List ProxyEvent) :
    Preserves events (Run.final step start events) := by
  have steady : Steady (frontendArrivals events) (backendArrivals events)
      (Run.final step start events) := steady_final steady_start events
  generalize Run.final step start events = proxy at steady
  refine ⟨steady.toBackend.order, steady.toFrontend.order, ?_, proxy.work, ?_⟩
  · intro polls
    have place := steady.place
    rw [polls] at place
    obtain ⟨calm, idle⟩ := place
    rw [calm, idle, steady.toBackend.halves.mpr calm, steady.toFrontend.halves.mpr idle]
    exact ⟨rfl, rfl⟩
  · have last := steady_turns steady proxy.work
    have little := work_turns steady proxy.work
    generalize Run.final step proxy (List.replicate proxy.work .turn) = rested at last little ⊢
    rw [Nat.sub_self] at little
    have total : 2 * (pending rested.frontendSock + pending rested.backendSock) +
        pollsLeft rested.phase ≤ 1 := little
    exact ⟨last.toBackend.delivered (by omega), last.toFrontend.delivered (by omega)⟩

end Sentinet.Network
