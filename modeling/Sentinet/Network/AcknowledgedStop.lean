import Sentinet.Kernel.DriveLink
import Sentinet.Network.StaleRequests

namespace Sentinet.Network

open Sentinet.Data Sentinet.Messages Sentinet.Control Sentinet.Kernel KermitKernel

/-! From an operator's stop to the motors and back: the server thread replies when its
callback has returned, the subscription thread calls back with any velocities, and the
sender thread sends what it loads. -/

variable {κ : Type}

/-- The server thread has sent the first `answered` of the replies. -/
structure KernelDrive (κ : Type) where
  link : KernelLink κ
  drive : DriveLink
  answered : Nat

inductive KernelDriveEvent (κ : Type) where
  | start (client : κ) (code : UInt16) (excess : UInt64)
  | poll (client : κ)
  | deliver (client : κ) (request : Nat) (behind : Memory)
  | reply (position : Nat)
  | drive (message : List UInt8) (behind : Memory)
  | store
  | loadArguments (angFirst : Bool)
  | load
  | sendDrive (accepted : Nat)

/-- The ping that `ping_endpoint` returns, if the next poll is the last of its call. -/
def Pinger.returns (pinger : Pinger) (reply : PingBuffer) (behind : Memory) : Option Ping :=
  match pinger.call with
  | none => none
  | some call =>
      match innerTurn kernelAddress call.message call.retriesLeft call.socket pinger.client.context with
      | .received answer => some (decodedPing reply answer.text behind)
      | .exhausted => some (decodedPing reply noResponse behind)
      | .resent _ _ => none

def Processed.asked (entry : Processed κ) : StateRequest :=
  { code := entry.ping.code, excess := entry.ping.excess }

namespace KernelDrive

def create (device : TeensyDevice) : KernelDrive κ :=
  { link := .create KermitKernel.create, drive := .create device, answered := 0 }

def onDrive (system : KernelDrive κ) (event : DriveEvent) : KernelDrive κ :=
  { system with drive := system.drive.step event }

/-- All callbacks work on one kernel, and the server thread replies before it gives
`mutex_lock` back. -/
def settle (system : KernelDrive κ) : KernelDrive κ :=
  { system with
    link := { system.link with kernel := system.drive.kernel }
    answered :=
      if system.drive.command.writing.isNone then system.link.replies.length else system.answered }

variable [DecidableEq κ]

def onLink (system : KernelDrive κ) (event : LinkEvent κ) : KernelDrive κ :=
  { system with link := system.link.step event }

/-- The callback of the server waits for `mutex_lock`. -/
def onDeliver (system : KernelDrive κ) (client : κ) (request : Nat) (behind : Memory) :
    KernelDrive κ :=
  let link := system.link.step (.deliver client request behind)
  match system.drive.command.writing, link.processed.drop system.link.processed.length with
  | none, entry :: _ =>
      { system with link, drive := system.drive.step (.callback (.request entry.asked)) }
  | _, _ => system

def onReply (system : KernelDrive κ) (position : Nat) : KernelDrive κ :=
  if position < system.answered then system.onLink (.reply position) else system

def step (system : KernelDrive κ) : KernelDriveEvent κ → KernelDrive κ
  | .start client code excess => (system.onLink (.start client code excess)).settle
  | .poll client => (system.onLink (.poll client)).settle
  | .deliver client request behind => (system.onDeliver client request behind).settle
  | .reply position => (system.onReply position).settle
  | .drive message behind => (system.onDrive (.callback (.drive message behind))).settle
  | .store => (system.onDrive .store).settle
  | .loadArguments angFirst => (system.onDrive (.loadArguments angFirst)).settle
  | .load => (system.onDrive .load).settle
  | .sendDrive accepted => (system.onDrive (.sendDrive accepted)).settle

end KernelDrive

/-- No request in the list opens the gate. -/
def LeaveClosed (entries : List (Processed κ)) : Prop := ∀ entry ∈ entries, ¬OpensGate entry.ping

namespace KernelDrive

/-- The link as if the kernel had got nothing but its requests. -/
def pinged (link : KernelLink κ) : KernelLink κ :=
  { link with kernel := afterPings KermitKernel.create (link.processed.map Processed.ping) }

/-- A reply that waits in a socket is one that the server thread sent. -/
def Arrived (system : KernelDrive κ) (client : κ) (call : PingCall) : Prop :=
  ∀ reply ∈ call.socket.inbox, ∃ position < system.answered, ∃ entry,
    system.link.processed[position]? = some entry ∧ entry.client = client ∧
      entry.call = call.number ∧ entry.ping.code = call.asked.code

/-- Behind a stop the motors are halting until a request opens the gate, and they are
halted from its reply on. -/
def Stops (system : KernelDrive κ) : Prop :=
  ∀ earlier executed later, system.link.processed = earlier ++ executed :: later →
    executed.ping.code = Kernel.stopEverything → LeaveClosed later →
      system.drive.Halting ∧ (earlier.length < system.answered → system.drive.Halted)

structure Sound (system : KernelDrive κ) : Prop where
  link : (pinged system.link).Consistent KermitKernel.create
  drive : system.drive.Sound
  replies : system.link.replies.map (fun replied => (replied.1, replied.2.request)) =
    system.link.processed.map fun entry => (entry.client, entry.request)
  answered : system.answered ≤ system.link.replies.length
  arrived : ∀ client call, (system.link.pingers client).call = some call → system.Arrived client call
  stops : system.Stops

end KernelDrive

section Kernel

variable {message : List UInt8} {asked : Ping}

/-- The answer to every state request. -/
def acknowledgement : Ping := { type := PingType.ack, code := 0, excess := 0 }

/-- What the server replies to a state request, and what it keeps, is the same for every
kernel. -/
theorem pingServerCallback_state (server : RmtControlClient KermitKernel) (behind : Memory)
    (callbacks : server.pingCallbacks.lookup (PingType.stateRequest.toNat : Int) =
      some robotPingHandler)
    (request : IsStateRequest message asked) (kernel : KermitKernel) :
    pingServerCallback server kernel message behind =
      { response := wireString server.buffers.outgoing acknowledgement
        client :=
          { server with
            buffers :=
              { server.buffers with
                incomming := (readPing server.buffers.incomming).run (Memory.ofString message behind)
                outgoing := toWirePing (assignPing server.buffers.outgoing acknowledgement) } }
        state := (robotPingHandler (decodedPing server.buffers.incomming message behind) kernel).2 } := by
  have type : (decodedPing server.buffers.incomming message behind).type =
      PingType.stateRequest := request.decoded.1
  have dispatched : dispatchPing server (decodedPing server.buffers.incomming message behind) kernel =
      (acknowledgement,
        (robotPingHandler (decodedPing server.buffers.incomming message behind) kernel).2) := by
    rw [dispatchPing, type, callbacks]
    dsimp only [robotPingHandler]
    cases selectHandler (decodedPing server.buffers.incomming message behind).code <;> rfl
  rw [decodedPing] at dispatched
  simp only [pingServerCallback, serializeFromPing, if_true, dispatched]
  rfl

end Kernel

namespace KernelDrive

section Sound

variable {system : KernelDrive κ} {client : κ}

theorem append_cases {earlier processed later : List (Processed κ)} {executed entry : Processed κ}
    (split : processed ++ [entry] = earlier ++ executed :: later) :
    (later = [] ∧ executed = entry ∧ earlier = processed) ∨
      ∃ rest, later = rest ++ [entry] ∧ processed = earlier ++ executed :: rest := by
  rcases List.eq_nil_or_concat later with rfl | ⟨rest, last, rfl⟩
  · obtain ⟨same, last⟩ := List.append_inj' split rfl
    exact Or.inl ⟨rfl, (List.head_eq_of_cons_eq last).symm, same.symm⟩
  · rw [List.concat_eq_append, ← List.cons_append, ← List.append_assoc] at split
    obtain ⟨same, last⟩ := List.append_inj' split rfl
    exact Or.inr ⟨rest, by rw [List.concat_eq_append, last], same⟩

/-- A request that leaves the gate closed, as the sender thread's side sees it. -/
theorem keepsClosed_of_not_opens {entry : Processed κ} (closed : ¬OpensGate entry.ping) :
    (DriveEvent.callback (.request entry.asked)).KeepsClosed :=
  fun handler selected opens => closed ⟨handler, selected, opens⟩

theorem create_sound (device : TeensyDevice) : (create device : KernelDrive κ).Sound where
  link := KernelLink.create_consistent
  drive := DriveLink.create_sound device
  replies := rfl
  answered := Nat.le_refl _
  arrived _ _ running := by cases running
  stops _ _ _ split := by simp [create, KernelLink.create] at split

/-- Once the callbacks are done every reply is out. -/
theorem settle_sound (sound : system.Sound) : system.settle.Sound := by
  have later : system.answered ≤ system.settle.answered := by
    unfold settle
    split
    · exact sound.answered
    · exact Nat.le_refl _
  refine ⟨sound.link, sound.drive, sound.replies, ?_, ?_, ?_⟩
  · unfold settle
    split
    · exact Nat.le_refl _
    · exact sound.answered
  · intro client call running reply waiting
    obtain ⟨position, sent, entry, processed⟩ := sound.arrived client call running reply waiting
    exact ⟨position, Nat.lt_of_lt_of_le sent later, entry, processed⟩
  · intro earlier executed rest split stop closed
    obtain ⟨halting, halted⟩ := sound.stops earlier executed rest split stop closed
    refine ⟨halting, fun sent => ?_⟩
    cases writing : system.drive.command.writing with
    | none => exact ⟨halting, halting.done writing⟩
    | some busy => exact halted (by simpa [settle, writing] using sent)

/-- The threads that have nothing to do with requests. -/
theorem onDrive_sound (sound : system.Sound) {event : DriveEvent} (keeps : event.KeepsClosed) :
    (system.onDrive event).Sound := by
  refine ⟨sound.link, DriveLink.step_sound sound.drive event, sound.replies, sound.answered,
    sound.arrived, ?_⟩
  intro earlier executed later split stop closed
  obtain ⟨halting, halted⟩ := sound.stops earlier executed later split stop closed
  exact ⟨DriveLink.step_halting halting keeps, fun sent => DriveLink.step_halted (halted sent) keeps⟩

theorem Arrived.none {call : PingCall} (inbox : call.socket.inbox = []) :
    system.Arrived client call := by
  intro reply waiting
  rw [inbox] at waiting
  cases waiting

/-- A reply that was sent arrives at its client. -/
theorem reply_arrived (sound : system.Sound) {position : Nat} {reply : Reply}
    (sent : position < system.answered) (found : system.link.replies[position]? = some (client, reply))
    (call : PingCall) (running : ((system.link.pingers client).arrive reply).call = some call) :
    system.Arrived client call := by
  intro waiting member
  obtain ⟨_, _, own⟩ : _ ∧ (system.link.pingers client).Since 0 _ ∧ _ :=
    Pinger.arrive_cases (sound.link.pingers client) reply
  obtain ⟨before, held, number, asked, arrived⟩ := own call running
  rcases arrived waiting member with earlier | ⟨rfl, calls, request, asks, stateRequest⟩
  · obtain ⟨place, before_place, entry, listed, same, call_eq, code⟩ :=
      sound.arrived client before held waiting earlier
    exact ⟨place, before_place, entry, listed, same, call_eq.trans number, code.trans (by rw [asked])⟩
  · have paired : (system.link.processed[position]?).map
        (fun entry => (entry.client, entry.request)) = some (client, waiting.request) := by
      rw [← List.getElem?_map, ← sound.replies, List.getElem?_map, found]
      rfl
    obtain ⟨entry, listed, same⟩ := Option.map_eq_some_iff.mp paired
    obtain ⟨rfl, answers⟩ := Prod.mk.inj same
    obtain ⟨recorded, sent', incomming, behind, found', decoded⟩ :=
      sound.link.recorded entry (List.mem_of_getElem? listed)
    rw [answers] at recorded found'
    obtain rfl := Option.some.inj (asks.symm.trans found')
    refine ⟨position, sent, entry, listed, rfl, Option.some.inj (recorded.symm.trans calls), ?_⟩
    rw [decoded]
    exact stateRequest.decoded.2

end Sound

section Steps

variable [DecidableEq κ] {link : KernelLink κ} {system : KernelDrive κ} {client : κ}

/-- A request is delivered to the kernel the first time, whatever the kernel is. -/
theorem deliver_cases (link : KernelLink κ) (client : κ) (request : Nat) (behind : Memory) :
    (∀ kernel, ({ link with kernel } : KernelLink κ).step (.deliver client request behind) =
      { link with kernel }) ∨
    ∃ sent, (link.pingers client).client.context.sent[request]? = some sent ∧
      (∀ entry ∈ link.processed, ¬(entry.client = client ∧ entry.request = request)) ∧
      ∀ kernel, ({ link with kernel } : KernelLink κ).step (.deliver client request behind) =
        ({ link with kernel } : KernelLink κ).process client request sent.message behind := by
  by_cases known : (link.processed.any fun entry =>
      decide (entry.client = client ∧ entry.request = request)) = true
  · exact Or.inl fun kernel => by simp only [KernelLink.step, known, if_true]
  · cases found : (link.pingers client).client.context.sent[request]? with
    | none =>
        exact Or.inl fun kernel => by
          simp only [KernelLink.step, known, found, if_false, Bool.false_eq_true]
    | some sent =>
        refine Or.inr ⟨sent, rfl, fun entry member same => known ?_, fun kernel => ?_⟩
        · exact List.any_eq_true.mpr ⟨entry, member, decide_eq_true same⟩
        · simp only [KernelLink.step, known, found, if_false, Bool.false_eq_true]

/-- Nothing but the kernel itself depends on what the kernel got besides requests. -/
theorem pinged_step (consistent : (pinged link).Consistent KermitKernel.create)
    (event : LinkEvent κ) : pinged (link.step event) = (pinged link).step event := by
  cases event with
  | start client code excess =>
      simp only [KernelLink.step, pinged]
      split <;> rfl
  | poll client => rfl
  | reply position =>
      simp only [KernelLink.step, pinged]
      split <;> rfl
  | deliver client request behind =>
      rcases deliver_cases link client request behind with same | ⟨sent, found, _, delivers⟩
      · exact (congrArg pinged (same link.kernel)).trans (same _).symm
      · obtain ⟨asked, stateRequest⟩ :=
          (consistent.pingers client).requests sent (List.mem_of_getElem? found)
        have served := pingServerCallback_state link.server behind consistent.callbacks stateRequest
        have kernel := (consistent.step (.deliver client request behind)).kernel
        rw [pinged, delivers] at kernel
        refine (congrArg pinged (delivers link.kernel)).trans (Eq.trans ?_ (delivers _).symm)
        simp only [pinged, KernelLink.process] at kernel ⊢
        rw [kernel, served link.kernel, served]

/-- A step of one client, whose waiting replies were all sent. -/
theorem onLink_sound (sound : system.Sound) {event : LinkEvent κ} {after : Pinger} {started : Nat}
    (moved : system.link.step event =
      { system.link with pingers := Function.update system.link.pingers client after, started })
    (arrived : ∀ call, after.call = some call → system.Arrived client call) :
    (system.onLink event).Sound := by
  have consistent := pinged_step sound.link event ▸ sound.link.step event
  rw [onLink]
  rw [moved] at consistent ⊢
  refine ⟨consistent, sound.drive, sound.replies, sound.answered, ?_, sound.stops⟩
  exact (Function.forall_update_iff system.link.pingers fun other pinger => ∀ call,
    pinger.call = some call → system.Arrived other call).mpr
      ⟨arrived, fun other _ => sound.arrived other⟩

theorem onReply_sound (sound : system.Sound) (position : Nat) : (system.onReply position).Sound := by
  unfold onReply
  split
  · next sent =>
      cases found : system.link.replies[position]? with
      | none =>
          have same : system.link.step (.reply position) = system.link := by
            simp only [KernelLink.step, found]
          rw [onLink, same]
          exact sound
      | some replied =>
          obtain ⟨client, reply⟩ := replied
          have moved : system.link.step (.reply position) = { system.link with
              pingers := Function.update system.link.pingers client
                ((system.link.pingers client).arrive reply) } := by
            simp only [KernelLink.step, found]
          exact onLink_sound sound moved (reply_arrived sound sent found)
  · exact sound

theorem start_sound (sound : system.Sound) (client : κ) (code : UInt16) (excess : UInt64) :
    (system.onLink (.start client code excess)).Sound := by
  cases began : (system.link.pingers client).start system.link.started
      { type := PingType.stateRequest, code, excess } with
  | none =>
      have same : system.link.step (.start client code excess) = system.link := by
        simp only [KernelLink.step, began]
      rw [onLink, same]
      exact sound
  | some after =>
      obtain ⟨_, _, inbox⟩ := Pinger.start_cases (sound.link.pingers client) rfl began
      have moved : system.link.step (.start client code excess) = { system.link with
          pingers := Function.update system.link.pingers client after
          started := system.link.started + 1 } := by
        simp only [KernelLink.step, began]
      exact onLink_sound sound moved fun call running => .none (inbox call running)

theorem poll_sound (sound : system.Sound) (client : κ) : (system.onLink (.poll client)).Sound := by
  obtain ⟨_, _, inbox⟩ : _ ∧ (system.link.pingers client).Since 0 _ ∧ _ :=
    Pinger.poll_cases (sound.link.pingers client)
  exact onLink_sound sound rfl fun call running => .none (inbox call running)

/-- The request that a delivery adds to those processed. -/
def delivered (link : KernelLink κ) (client : κ) (request : Nat) (message : List UInt8)
    (behind : Memory) : Processed κ :=
  { client, request, call := (link.pingers client).calls.getD request 0
    ping := decodedPing link.server.buffers.incomming message behind }

theorem onDeliver_cases (system : KernelDrive κ) (client : κ) (request : Nat) (behind : Memory) :
    system.onDeliver client request behind = system ∨
    ∃ message, system.drive.command.writing = none ∧
      system.link.step (.deliver client request behind) =
        system.link.process client request message behind ∧
      system.onDeliver client request behind = { system with
        link := system.link.process client request message behind
        drive := system.drive.step
          (.callback (.request (delivered system.link client request message behind).asked)) } := by
  rcases deliver_cases system.link client request behind with same | ⟨sent, _, _, delivers⟩
  · have same : system.link.step (.deliver client request behind) = system.link :=
      same system.link.kernel
    refine Or.inl ?_
    simp only [onDeliver, same, List.drop_length]
    cases system.drive.command.writing <;> rfl
  · have delivers : system.link.step (.deliver client request behind) = _ :=
      delivers system.link.kernel
    cases writing : system.drive.command.writing with
    | some busy => exact Or.inl (by simp only [onDeliver, writing])
    | none =>
        refine Or.inr ⟨sent.message, rfl, delivers, ?_⟩
        have new : (system.link.process client request sent.message behind).processed.drop
            system.link.processed.length =
              [delivered system.link client request sent.message behind] :=
          List.drop_left
        simp only [onDeliver, delivers, writing, new]

theorem onDeliver_sound (sound : system.Sound) (client : κ) (request : Nat) (behind : Memory) :
    (system.onDeliver client request behind).Sound := by
  rcases onDeliver_cases system client request behind with same | ⟨message, free, delivers, took⟩
  · rw [same]
    exact sound
  · rw [took]
    have consistent := pinged_step sound.link (.deliver client request behind) ▸
      sound.link.step (.deliver client request behind)
    rw [delivers] at consistent
    have drive := DriveLink.step_sound sound.drive
      (.callback (.request (delivered system.link client request message behind).asked))
    refine ⟨consistent, drive, ?_, ?_, ?_, ?_⟩
    · simp [KernelLink.process, sound.replies]
    · simp only [KernelLink.process, List.length_append]
      exact Nat.le_add_right_of_le sound.answered
    · intro other call running reply waiting
      obtain ⟨position, sent, entry, listed, own⟩ := sound.arrived other call running reply waiting
      exact ⟨position, sent, entry, KernelLink.getElem?_kept (List.prefix_append _ _) listed, own⟩
    · intro earlier executed later split stop closed
      rcases append_cases split with ⟨rfl, rfl, rfl⟩ | ⟨rest, rfl, before⟩
      · refine ⟨stop_halting stop free, fun sent => ?_⟩
        have same : system.link.replies.length = system.link.processed.length := by
          simpa using congrArg List.length sound.replies
        have bound : system.link.processed.length < system.answered := sent
        have answered := sound.answered
        omega
      · obtain ⟨first, last⟩ := List.forall_mem_append.mp closed
        have keeps := keepsClosed_of_not_opens (last _ (List.mem_singleton_self _))
        obtain ⟨halting, halted⟩ := sound.stops earlier executed rest before stop first
        exact ⟨DriveLink.step_halting halting keeps,
          fun sent => DriveLink.step_halted (halted sent) keeps⟩

theorem step_sound (sound : system.Sound) (event : KernelDriveEvent κ) : (system.step event).Sound := by
  cases event with
  | start client code excess => exact settle_sound (start_sound sound client code excess)
  | poll client => exact settle_sound (poll_sound sound client)
  | deliver client request behind => exact settle_sound (onDeliver_sound sound client request behind)
  | reply position => exact settle_sound (onReply_sound sound position)
  | drive message behind => exact settle_sound (onDrive_sound sound trivial)
  | store => exact settle_sound (onDrive_sound sound trivial)
  | loadArguments angFirst => exact settle_sound (onDrive_sound sound trivial)
  | load => exact settle_sound (onDrive_sound sound trivial)
  | sendDrive accepted => exact settle_sound (onDrive_sound sound trivial)

theorem run_sound (sound : system.Sound) (events : List (KernelDriveEvent κ)) :
    (Run.final step system events).Sound :=
  Run.final_invariant Sound (fun event _ _ sound => step_sound sound event) sound

/-- What a step is to the link: nothing, or one of its own steps. -/
theorem step_link (sound : system.Sound) (event : KernelDriveEvent κ) :
    pinged (system.step event).link = pinged system.link ∨
      ∃ move, pinged (system.step event).link = (pinged system.link).step move := by
  cases event with
  | start client code excess => exact Or.inr ⟨_, pinged_step sound.link (.start client code excess)⟩
  | poll client => exact Or.inr ⟨_, pinged_step sound.link (.poll client)⟩
  | deliver client request behind =>
      have moves := pinged_step sound.link (.deliver client request behind)
      rcases onDeliver_cases system client request behind with same | ⟨message, _, delivers, took⟩
      · exact Or.inl (congrArg (fun system => pinged system.link) same)
      · refine Or.inr ⟨_, Eq.trans ?_ moves⟩
        rw [delivers]
        exact congrArg (fun system => pinged system.link) took
  | reply position =>
      by_cases sent : position < system.answered
      · refine Or.inr ⟨_, Eq.trans ?_ (pinged_step sound.link (.reply position))⟩
        simp only [step, onReply, if_pos sent]
        rfl
      · refine Or.inl ?_
        simp only [step, onReply, if_neg sent]
        rfl
  | drive message behind => exact Or.inl rfl
  | store => exact Or.inl rfl
  | loadArguments angFirst => exact Or.inl rfl
  | load => exact Or.inl rfl
  | sendDrive accepted => exact Or.inl rfl

/-- What a step is to the motors' side, and which request it processes. -/
theorem step_drives (system : KernelDrive κ) (event : KernelDriveEvent κ) :
    ∃ moves new, (system.step event).drive = Run.final DriveLink.step system.drive moves ∧
      (system.step event).link.processed = system.link.processed ++ new ∧
      (LeaveClosed new → ∀ move ∈ moves, move.KeepsClosed) := by
  have still (event : LinkEvent κ) (same : (system.link.step event).processed = system.link.processed) :
      ∃ moves new, (system.onLink event).settle.drive = Run.final DriveLink.step system.drive moves ∧
        (system.onLink event).settle.link.processed = system.link.processed ++ new ∧
        (LeaveClosed new → ∀ move ∈ moves, move.KeepsClosed) :=
    ⟨[], [], rfl, same.trans (List.append_nil _).symm, fun _ _ member => (by cases member)⟩
  have moved (event : DriveEvent) (keeps : event.KeepsClosed) :
      ∃ moves new, (system.onDrive event).settle.drive = Run.final DriveLink.step system.drive moves ∧
        (system.onDrive event).settle.link.processed = system.link.processed ++ new ∧
        (LeaveClosed new → ∀ move ∈ moves, move.KeepsClosed) :=
    ⟨[event], [], rfl, (List.append_nil _).symm, fun _ => List.forall_mem_singleton.mpr keeps⟩
  cases event with
  | start client code excess =>
      refine still _ ?_
      simp only [KernelLink.step]
      split <;> rfl
  | poll client => exact still _ rfl
  | deliver client request behind =>
      rcases onDeliver_cases system client request behind with same | ⟨message, _, _, took⟩
      · refine ⟨[], [], ?_, ?_, fun _ _ member => (by cases member)⟩
        · simp only [step, settle, same, Run.final_nil]
        · simp only [step, settle, same, List.append_nil]
      · refine ⟨[.callback (.request (delivered system.link client request message behind).asked)],
          [delivered system.link client request message behind], ?_, ?_, fun closed => ?_⟩
        · simp only [step, settle, took, Run.final_cons, Run.final_nil]
        · simp only [step, settle, took]
          rfl
        · exact List.forall_mem_singleton.mpr
            (keepsClosed_of_not_opens (closed _ (List.mem_singleton_self _)))
  | reply position =>
      simp only [step, onReply]
      split
      · refine still _ ?_
        simp only [KernelLink.step]
        split <;> rfl
      · exact ⟨[], [], rfl, (List.append_nil _).symm, fun _ _ member => (by cases member)⟩
  | drive message behind => exact moved _ trivial
  | store => exact moved _ trivial
  | loadArguments angFirst => exact moved _ trivial
  | load => exact moved _ trivial
  | sendDrive accepted => exact moved _ trivial

theorem run_drives (system : KernelDrive κ) (events : List (KernelDriveEvent κ)) :
    ∃ moves new, (Run.final step system events).drive = Run.final DriveLink.step system.drive moves ∧
      (Run.final step system events).link.processed = system.link.processed ++ new ∧
      (LeaveClosed new → ∀ move ∈ moves, move.KeepsClosed) := by
  induction events generalizing system with
  | nil => exact ⟨[], [], rfl, (List.append_nil _).symm, fun _ _ member => (by cases member)⟩
  | cons event rest ih =>
      obtain ⟨moves, new, drive, processed, closed⟩ := step_drives system event
      obtain ⟨moves', new', drive', processed', closed'⟩ := ih (system.step event)
      refine ⟨moves ++ moves', new ++ new', ?_, ?_, fun keeps => ?_⟩
      · rw [Run.final_cons, drive', drive, Run.final_append]
      · rw [Run.final_cons, processed', processed, List.append_assoc]
      · obtain ⟨first, later⟩ := List.forall_mem_append.mp keeps
        exact List.forall_mem_append.mpr ⟨closed first, closed' later⟩

theorem run_since {origin : KernelLink κ} {events : List (KernelDriveEvent κ)} (sound : system.Sound)
    (since : origin.Since (pinged system.link)) :
    origin.Since (pinged (Run.final step system events).link) := by
  induction events generalizing system with
  | nil => exact since
  | cons event rest ih =>
      refine ih (step_sound sound event) ?_
      rcases step_link sound event with same | ⟨move, moved⟩
      · rw [same]
        exact since
      · rw [moved]
        exact since.step sound.link move

end Steps

/-- A stop of the client returns from its next poll with an acknowledgement. -/
def Acknowledges (system : KernelDrive κ) (client : κ) (call : PingCall) : Prop :=
  (system.link.pingers client).call = some call ∧ call.asked.code = Kernel.stopEverything ∧
    ∃ reply behind ping, (system.link.pingers client).returns reply behind = some ping ∧
      ping.type = PingType.ack

/-- `"No response"` does not read as an acknowledgement. -/
theorem noResponse_type (reply : PingBuffer) (behind : Memory) :
    (decodedPing reply noResponse behind).type ≠ PingType.ack := by
  have version : Memory.ofString noResponse behind 0 ≠ 1 := by
    rw [Memory.ofString_inside (by decide)]
    decide
  simp [decodedPing, receivedPing, readPing, getProtocolVersionPing, getTypeImplPing, version]
  decide

theorem Acknowledges.inbox {system : KernelDrive κ} {client : κ} {call : PingCall}
    (acknowledges : system.Acknowledges client call) : call.socket.inbox ≠ [] := by
  obtain ⟨running, _, reply, behind, ping, returns, ack⟩ := acknowledges
  intro empty
  by_cases last : call.retriesLeft - 1 = 0
  · simp only [Pinger.returns, running, innerTurn, empty, last, if_true, Option.some.injEq] at returns
    exact noResponse_type reply behind (returns ▸ ack)
  · simp only [Pinger.returns, running, innerTurn, empty, last, if_false] at returns
    cases returns

end KernelDrive

/-- When a stop returns with an acknowledgement, the kernel has executed it. Every frame
from then on stops the motors, but for one whose turn was under way, unless a request
opens the gate: one that the kernel processed before the acknowledgement came back, or
one of those still to come then. -/
theorem acknowledged_stop_halts {κ : Type} [DecidableEq κ] (device : TeensyDevice)
    (before after : List (KernelDriveEvent κ)) (client : κ) (call : PingCall)
    (acknowledges :
      (Run.final KernelDrive.step (.create device) before).Acknowledges client call) :
    let acked := Run.final KernelDrive.step (.create device) before
    let system := Run.final KernelDrive.step acked after
    ∃ earlier executed later new, acked.link.processed = earlier ++ executed :: later ∧
      executed.client = client ∧ executed.call = call.number ∧
      executed.ping.code = Kernel.stopEverything ∧
      system.link.processed = acked.link.processed ++ new ∧
      (∀ entry ∈ new, acked.link.StillComing entry) ∧
      (LeaveClosed (later ++ new) → ∃ stale frames,
        system.drive.sent = acked.drive.sent ++ (stale ++ frames) ∧ stale.length ≤ 1 ∧
          (acked.drive.Clean → stale = []) ∧ ∀ frame ∈ frames, frame.lin = 0 ∧ frame.ang = 0) := by
  intro acked system
  have sound : acked.Sound := KernelDrive.run_sound (KernelDrive.create_sound device) before
  obtain ⟨reply, waiting⟩ := List.exists_mem_of_ne_nil _ acknowledges.inbox
  obtain ⟨running, stop, _⟩ := acknowledges
  obtain ⟨position, sent, executed, listed, own, number, code⟩ :=
    sound.arrived client call running reply waiting
  obtain ⟨inside, rfl⟩ := List.getElem?_eq_some_iff.mp listed
  obtain ⟨moves, new, drive, processed, keeps⟩ := KernelDrive.run_drives acked after
  have split : acked.link.processed = acked.link.processed.take position ++
      acked.link.processed[position] :: acked.link.processed.drop (position + 1) := by
    rw [List.getElem_cons_drop, List.take_append_drop]
  refine ⟨_, _, _, new, split, own, number, code.trans stop, processed, ?_, fun closed => ?_⟩
  · intro entry member
    have since : (KernelDrive.pinged acked.link).Since (KernelDrive.pinged system.link) :=
      KernelDrive.run_since sound .refl
    exact since.stillComing (sound.link.pingers entry.client)
      (KernelDrive.run_sound sound after).link processed member rfl
  · obtain ⟨first, rest⟩ := List.forall_mem_append.mp closed
    have halted : acked.drive.Halted := by
      refine (sound.stops _ _ _ split (code.trans stop) first).2 ?_
      rw [List.length_take]
      omega
    obtain ⟨stale, frames, sends, one, clean, stops⟩ :=
      DriveLink.halted_sends sound.drive halted (keeps rest)
    exact ⟨stale, frames, (congrArg DriveLink.sent drive).trans sends, one, clean, stops⟩

/-- The robot drives; the stop is executed and acknowledged while the sender thread has
loaded the velocity. -/
def drivenThenStopped : List (KernelDriveEvent Unit) :=
  [.start () moveToMine startDriving, .deliver () 0 fun _ => 0, .reply 0, .poll (),
    .drive (messageString (cmdVelToWire { createCmdVel with lin := 0x3f800000, ang := 0 }).buff)
      fun _ => 0,
    .store, .store, .store, .loadArguments false, .load, .load,
    .start () Kernel.stopEverything 0, .deliver () 1 fun _ => 0, .store, .store, .store, .reply 1]

def twoMoreFrames : List (KernelDriveEvent Unit) :=
  [.sendDrive 11, .poll (), .loadArguments false, .load, .load, .sendDrive 11]

theorem acknowledged_stop_halts_driven :
    let acked := Run.final KernelDrive.step (.create silentDevice) drivenThenStopped
    let system := Run.final KernelDrive.step acked twoMoreFrames
    ∃ call : PingCall, ∃ earlier executed later new,
      acked.link.processed = earlier ++ executed :: later ∧
      executed.client = () ∧ executed.call = call.number ∧
      executed.ping.code = Kernel.stopEverything ∧
      system.link.processed = acked.link.processed ++ new ∧
      (∀ entry ∈ new, acked.link.StillComing entry) ∧
      (LeaveClosed (later ++ new) → ∃ stale frames,
        system.drive.sent = acked.drive.sent ++ (stale ++ frames) ∧ stale.length ≤ 1 ∧
          (acked.drive.Clean → stale = []) ∧ ∀ frame ∈ frames, frame.lin = 0 ∧ frame.ang = 0) :=
  ⟨_, acknowledged_stop_halts silentDevice drivenThenStopped twoMoreFrames () _
    ⟨rfl, rfl, createBufferPing, fun _ => 0, _, rfl, by decide⟩⟩

/-- The first frame behind the acknowledgement still drives. -/
example : ((Run.final KernelDrive.step (.create silentDevice)
      (drivenThenStopped ++ twoMoreFrames)).drive.sent.map fun frame => (frame.lin, frame.ang)) =
    [(0x3f800000, 0), (0, 0)] := by
  decide

end Sentinet.Network
