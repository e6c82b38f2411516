import Sentinet.Network.KernelLink

namespace Sentinet.Network

open Sentinet.Data Sentinet.Messages Sentinet.Control Sentinet.Kernel KermitKernel

/-! What a stop is worth: requests carry nothing by which the kernel could tell an
old one from a new one. -/

/-- A kernel after some pings. -/
def afterPings (kernel : KermitKernel) (pings : List Ping) : KermitKernel :=
  pings.foldl (fun kernel ping => (robotPingHandler ping kernel).2) kernel

/-- A ping that opens a closed gate. -/
def OpensGate (ping : Ping) : Prop :=
  ∃ handler, selectHandler ping.code = some handler ∧ Opens handler ping.excess

section Gate

variable {kernel : KermitKernel} {ping : Ping} {pings : List Ping}

theorem robotPingHandler_request :
    (robotPingHandler ping kernel).2 = kernel.request { code := ping.code, excess := ping.excess } :=
  rfl

theorem opensGate_of_opened (closed : kernel.receivingCvels = false)
    (opened : (robotPingHandler ping kernel).2.receivingCvels = true) : OpensGate ping := by
  rw [robotPingHandler_request] at opened
  cases selected : selectHandler ping.code with
  | none =>
      rw [request_unselected selected, closed] at opened
      contradiction
  | some handler =>
      rw [request_selected selected, runHandler_receivingCvels, closed] at opened
      exact ⟨handler, selected, opened.resolve_right fun still => by simp at still⟩

theorem robotPingHandler_stop (stop : ping.code = Kernel.stopEverything) :
    (robotPingHandler ping kernel).2.receivingCvels = false := by
  have selected : selectHandler ping.code = some .stopEverything := by
    rw [stop]
    rfl
  rw [robotPingHandler_request, request_selected selected]
  rfl

/-- Some ping opened a gate that was closed before and is open after. -/
theorem opened_by (closed : kernel.receivingCvels = false)
    (opened : (afterPings kernel pings).receivingCvels = true) : ∃ ping ∈ pings, OpensGate ping := by
  induction pings generalizing kernel with
  | nil =>
      change kernel.receivingCvels = true at opened
      rw [closed] at opened
      contradiction
  | cons ping rest ih =>
      cases next : (robotPingHandler ping kernel).2.receivingCvels with
      | true => exact ⟨ping, List.mem_cons_self, opensGate_of_opened closed next⟩
      | false =>
          obtain ⟨later, member, opens⟩ := ih next opened
          exact ⟨later, List.mem_cons_of_mem ping member, opens⟩

end Gate

section Process

variable {server : RmtControlClient KermitKernel} {kernel : KermitKernel} {message : List UInt8}
  {asked : Ping} {behind : Memory} {incomming : PingBuffer}

theorem IsStateRequest.decoded (request : IsStateRequest message asked) :
    (decodedPing incomming message behind).type = PingType.stateRequest ∧
      (decodedPing incomming message behind).code = asked.code := by
  obtain ⟨type, buffer, version, rfl⟩ := request
  have limited : asked.type ≤ maxPingType := by
    rw [type]
    decide
  rw [decodedPing_wireString version limited]
  exact ⟨type, rfl⟩

/-- The kernel's handler runs for every state request, whatever its code. -/
theorem process_state (callbacks : server.pingCallbacks.lookup (PingType.stateRequest.toNat : Int) =
      some robotPingHandler) (request : IsStateRequest message asked) :
    (pingServerCallback server kernel message behind).state =
      (robotPingHandler (decodedPing server.buffers.incomming message behind) kernel).2 := by
  have type : ((readPing server.buffers.incomming).run (Memory.ofString message behind)).type =
      PingType.stateRequest := request.decoded.1
  have action : pingAction server message behind = .registered robotPingHandler := by
    simp only [pingAction, serializeFromPing, if_true]
    rw [type, callbacks]
  rw [(pingServerCallback_eq_run server kernel message behind).2, action]
  rfl

end Process

/-! Invariants of the link. -/

/-- A processed request is one that its client sent for that call. -/
def KernelLink.Recorded {κ : Type} (link : KernelLink κ) (entry : Processed κ) : Prop :=
  (link.pingers entry.client).calls[entry.request]? = some entry.call ∧
    ∃ sent incomming behind,
      (link.pingers entry.client).client.context.sent[entry.request]? = some sent ∧
        entry.ping = decodedPing incomming sent.message behind

structure KernelLink.Consistent {κ : Type} (link : KernelLink κ) (kernel : KermitKernel) : Prop where
  pingers : ∀ client, (link.pingers client).Tracked
  callbacks : link.server.pingCallbacks.lookup (PingType.stateRequest.toNat : Int) =
    some robotPingHandler
  recorded : ∀ entry ∈ link.processed, link.Recorded entry
  distinct : (link.processed.map fun entry => (entry.client, entry.request)).Nodup
  kernel : link.kernel = afterPings kernel (link.processed.map Processed.ping)
  replies : ∀ replied ∈ link.replies, ∃ entry ∈ link.processed,
    entry.client = replied.1 ∧ entry.request = replied.2.request
  answered : ∀ client call, (link.pingers client).call = some call → ∀ reply ∈ call.socket.inbox,
    ∃ entry ∈ link.processed, entry.client = client ∧ entry.call = call.number ∧
      entry.ping.code = call.asked.code

/-- What happened up to one link is still there in a later one. -/
structure KernelLink.Since {κ : Type} (origin link : KernelLink κ) : Prop where
  started : origin.started ≤ link.started
  processed : origin.processed <+: link.processed
  pingers : ∀ client, (origin.pingers client).Since origin.started (link.pingers client)

namespace KernelLink

section Steps

variable {κ : Type} {link origin : KernelLink κ} {kernel : KermitKernel} {client : κ}
  {after : Pinger} {started : Nat}

theorem getElem?_kept {α : Type} {before later : List α} {index : Nat} {value : α}
    (kept : before <+: later) (found : before[index]? = some value) :
    later[index]? = some value := by
  obtain ⟨inside, rfl⟩ := List.getElem?_eq_some_iff.mp found
  exact List.prefix_iff_getElem?.mp kept index inside

theorem create_consistent : (create kernel : KernelLink κ).Consistent kernel :=
  ⟨fun _ => Pinger.create_tracked, rfl, nofun, List.nodup_nil, rfl, nofun, nofun⟩

theorem Since.refl : link.Since link :=
  ⟨Nat.le_refl _, List.prefix_refl _, fun _ => .refl⟩

/-- The kernel processes a request for the first time. -/
theorem Consistent.process (consistent : link.Consistent kernel) {request : Nat}
    {sent : SentRequest} (behind : Memory)
    (found : (link.pingers client).client.context.sent[request]? = some sent)
    (first : ∀ entry ∈ link.processed, ¬ (entry.client = client ∧ entry.request = request)) :
    (link.process client request sent.message behind).Consistent kernel := by
  have tracked := consistent.pingers client
  obtain ⟨asked, stateRequest⟩ := tracked.requests sent (List.mem_of_getElem? found)
  refine ⟨consistent.pingers, consistent.callbacks, ?_, ?_, ?_, ?_, ?_⟩
  · intro entry member
    rcases List.mem_append.mp member with earlier | last
    · exact consistent.recorded entry earlier
    · rw [List.mem_singleton.mp last]
      obtain ⟨inside, _⟩ := List.getElem?_eq_some_iff.mp found
      rw [← tracked.count] at inside
      refine ⟨?_, sent, link.server.buffers.incomming, behind, found, rfl⟩
      have number := List.getElem?_eq_getElem inside
      simp only [KernelLink.process, List.getD_eq_getElem?_getD, number, Option.getD_some]
  · simp only [KernelLink.process, List.map_append, List.map_cons, List.map_nil]
    refine List.nodup_append.mpr ⟨consistent.distinct, List.nodup_singleton _,
      fun key listed other last same => ?_⟩
    obtain ⟨entry, member, rfl⟩ := List.mem_map.mp listed
    rw [List.mem_singleton.mp last] at same
    exact first entry member ⟨congrArg Prod.fst same, congrArg Prod.snd same⟩
  · simp only [KernelLink.process, List.map_append, afterPings, List.foldl_append]
    rw [process_state consistent.callbacks stateRequest, consistent.kernel]
    rfl
  · intro replied member
    rcases List.mem_append.mp member with earlier | last
    · obtain ⟨entry, listed, same⟩ := consistent.replies replied earlier
      exact ⟨entry, List.mem_append_left _ listed, same⟩
    · rw [List.mem_singleton.mp last]
      exact ⟨_, List.mem_append_right _ (List.mem_singleton_self _), rfl, rfl⟩
  · intro other call running reply waiting
    obtain ⟨entry, listed, same⟩ := consistent.answered other call running reply waiting
    exact ⟨entry, List.mem_append_left _ listed, same⟩

/-- A client gets a reply that the kernel sent. -/
theorem Consistent.arrive (consistent : link.Consistent kernel) {reply : Reply}
    (replied : (client, reply) ∈ link.replies) (call : PingCall)
    (running : ((link.pingers client).arrive reply).call = some call) :
    ∀ waiting ∈ call.socket.inbox, ∃ entry ∈ link.processed, entry.client = client ∧
      entry.call = call.number ∧ entry.ping.code = call.asked.code := by
  intro waiting member
  obtain ⟨_, _, own⟩ : _ ∧ (link.pingers client).Since 0 _ ∧ _ :=
    Pinger.arrive_cases (consistent.pingers client) reply
  obtain ⟨before, held, number, asked, arrived⟩ := own call running
  rcases arrived waiting member with earlier | ⟨_, calls, sent, found, request⟩
  · obtain ⟨entry, listed, same⟩ := consistent.answered client before held waiting earlier
    rw [number, asked] at same
    exact ⟨entry, listed, same⟩
  · obtain ⟨entry, listed, rfl, same⟩ := consistent.replies _ replied
    obtain ⟨recorded, request', incomming, behind, found', decoded⟩ :=
      consistent.recorded entry listed
    rw [same] at recorded found'
    obtain rfl := Option.some.inj (found.symm.trans found')
    refine ⟨entry, listed, rfl, Option.some.inj (recorded.symm.trans calls), ?_⟩
    rw [decoded]
    exact request.decoded.2

variable [DecidableEq κ]

/-- A step of one client. -/
theorem Consistent.update (consistent : link.Consistent kernel) (tracked : after.Tracked)
    (since : (link.pingers client).Since 0 after)
    (answered : ∀ call, after.call = some call → ∀ reply ∈ call.socket.inbox,
      ∃ entry ∈ link.processed, entry.client = client ∧ entry.call = call.number ∧
        entry.ping.code = call.asked.code) (started : Nat) :
    ({ link with pingers := Function.update link.pingers client after, started } :
      KernelLink κ).Consistent kernel := by
  refine ⟨?_, consistent.callbacks, ?_, consistent.distinct,
    consistent.kernel, consistent.replies, ?_⟩
  · rw [Function.forall_update_iff link.pingers fun _ pinger => pinger.Tracked]
    exact ⟨tracked, fun other _ => consistent.pingers other⟩
  · intro entry member
    obtain ⟨call, request, incomming, behind, found, decoded⟩ := consistent.recorded entry member
    by_cases same : entry.client = client
    · subst same
      obtain ⟨more, calls, _⟩ := since.calls
      simp only [Recorded, Function.update_self, calls]
      exact ⟨getElem?_kept (List.prefix_append _ _) call, request, incomming, behind,
        getElem?_kept since.sent found, decoded⟩
    · simp only [Recorded, Function.update_of_ne same]
      exact ⟨call, request, incomming, behind, found, decoded⟩
  · rw [Function.forall_update_iff link.pingers fun other pinger => ∀ call,
      pinger.call = some call → ∀ reply ∈ call.socket.inbox, ∃ entry ∈ link.processed,
        entry.client = other ∧ entry.call = call.number ∧ entry.ping.code = call.asked.code]
    exact ⟨answered, fun other _ => consistent.answered other⟩

theorem Since.update (since : origin.Since link)
    (next : (link.pingers client).Since origin.started after) (later : link.started ≤ started) :
    origin.Since { link with pingers := Function.update link.pingers client after, started } := by
  refine ⟨Nat.le_trans since.started later, since.processed, ?_⟩
  rw [Function.forall_update_iff link.pingers fun other pinger =>
    (origin.pingers other).Since origin.started pinger]
  exact ⟨(since.pingers client).trans next, fun other _ => since.pingers other⟩

theorem Consistent.step (consistent : link.Consistent kernel) (event : LinkEvent κ) :
    (link.step event).Consistent kernel := by
  cases event with
  | start client code excess =>
      simp only [KernelLink.step]
      split
      · exact consistent
      next after began =>
        obtain ⟨tracked, since, inbox⟩ := Pinger.start_cases (consistent.pingers client) rfl began
        refine consistent.update tracked (since 0 (Nat.zero_le _)) (fun call running => ?_) _
        rw [inbox call running]
        exact nofun
  | poll client =>
      obtain ⟨tracked, since, inbox⟩ := Pinger.poll_cases (consistent.pingers client)
      refine consistent.update tracked since (fun call running => ?_) link.started
      rw [inbox call running]
      exact nofun
  | deliver client request behind =>
      simp only [KernelLink.step]
      split
      · exact consistent
      next first =>
        split
        · exact consistent
        next sent found =>
          refine consistent.process behind found fun entry member same => first ?_
          exact List.any_eq_true.mpr ⟨entry, member, decide_eq_true same⟩
  | reply position =>
      simp only [KernelLink.step]
      split
      · exact consistent
      next client reply found =>
        obtain ⟨tracked, since, _⟩ := Pinger.arrive_cases (consistent.pingers client) reply
        exact consistent.update tracked since
          (consistent.arrive (List.mem_of_getElem? found)) link.started

theorem Since.step (since : origin.Since link) (consistent : link.Consistent kernel)
    (event : LinkEvent κ) : origin.Since (link.step event) := by
  cases event with
  | start client code excess =>
      simp only [KernelLink.step]
      split
      · exact since
      next after began =>
        obtain ⟨_, next, _⟩ := Pinger.start_cases (consistent.pingers client) rfl began
        exact since.update (next _ since.started) (Nat.le_succ _)
  | poll client =>
      exact since.update (Pinger.poll_cases (consistent.pingers client)).2.1 (Nat.le_refl _)
  | deliver client request behind =>
      simp only [KernelLink.step]
      split
      · exact since
      · split
        · exact since
        · exact ⟨since.started, since.processed.trans (List.prefix_append _ _), since.pingers⟩
  | reply position =>
      simp only [KernelLink.step]
      split
      · exact since
      next client reply found =>
        exact since.update (Pinger.arrive_cases (consistent.pingers client) reply).2.1 (Nat.le_refl _)

theorem run_since (consistent : link.Consistent kernel) (since : origin.Since link)
    (events : List (LinkEvent κ)) :
    (Run.final KernelLink.step link events).Consistent kernel ∧
      origin.Since (Run.final KernelLink.step link events) :=
  Run.final_invariant (fun state : KernelLink κ => state.Consistent kernel ∧ origin.Since state)
    (fun event _ _ held => ⟨held.1.step event, held.2.step held.1 event⟩) ⟨consistent, since⟩

end Steps

/-- The next poll of the client returns a reply to its stop request. -/
def AcknowledgesStop {κ : Type} (link : KernelLink κ) (client : κ) : Prop :=
  ∃ call, (link.pingers client).call = some call ∧ call.asked.code = Kernel.stopEverything ∧
    call.socket.inbox ≠ []

/-- A request that the kernel may still get: of a later call, under way, or of a
call that is running. -/
def StillComing {κ : Type} (link : KernelLink κ) (entry : Processed κ) : Prop :=
  link.started ≤ entry.call ∨
    (entry.request < (link.pingers entry.client).client.context.sent.length ∧
      ∀ other ∈ link.processed, ¬ (other.client = entry.client ∧ other.request = entry.request)) ∨
    ∃ call, (link.pingers entry.client).call = some call ∧ call.number = entry.call

section Stop

variable {κ : Type} {acked link : KernelLink κ} {kernel : KermitKernel} {client : κ}

/-- What is processed later was still to come. -/
theorem Since.stillComing (since : acked.Since link) (tracked : (acked.pingers client).Tracked)
    (consistent : link.Consistent kernel) {new : List (Processed κ)}
    (processed : link.processed = acked.processed ++ new) {entry : Processed κ} (member : entry ∈ new)
    (own : entry.client = client) : acked.StillComing entry := by
  subst own
  have listed : entry ∈ link.processed := by
    rw [processed]
    exact List.mem_append_right _ member
  obtain ⟨recorded, _⟩ := consistent.recorded entry listed
  obtain ⟨more, calls, allowed⟩ := (since.pingers entry.client).calls
  by_cases sent : entry.request < (acked.pingers entry.client).calls.length
  · refine Or.inr (Or.inl ⟨tracked.count ▸ sent, fun other earlier same => ?_⟩)
    have distinct := consistent.distinct
    rw [processed, List.map_append] at distinct
    exact (List.nodup_append.mp distinct).2.2 _ (List.mem_map_of_mem earlier) _
      (List.mem_map_of_mem member) (Prod.ext same.1 same.2)
  · rw [calls, List.getElem?_append_right (Nat.le_of_not_lt sent)] at recorded
    rcases allowed _ (List.mem_of_getElem? recorded) with later | running
    · exact Or.inl later
    · exact Or.inr (Or.inr running)

/-- Once a stop was executed, the gate is open only if a later request opened it. -/
theorem Consistent.opened (consistent : link.Consistent kernel)
    {earlier later : List (Processed κ)} {executed : Processed κ}
    (processed : link.processed = earlier ++ executed :: later)
    (stop : executed.ping.code = Kernel.stopEverything)
    (opened : link.kernel.receivingCvels = true) : ∃ entry ∈ later, OpensGate entry.ping := by
  rw [consistent.kernel, processed, List.map_append, List.map_cons, afterPings, List.foldl_append,
    List.foldl_cons] at opened
  obtain ⟨ping, member, opens⟩ := opened_by (robotPingHandler_stop stop) opened
  obtain ⟨entry, listed, rfl⟩ := List.mem_map.mp member
  exact ⟨entry, listed, opens⟩

end Stop

end KernelLink

/-- A stop that was acknowledged has been executed.  From then on the gate stays
closed until the kernel processes a request that opens it: one that it processed
before the acknowledgement arrived, or one that was still to come then. -/
theorem stop_holds_until {κ : Type} [DecidableEq κ] (kernel : KermitKernel)
    (before after : List (LinkEvent κ)) (client : κ)
    (acknowledged : (Run.final KernelLink.step (KernelLink.create kernel) before).AcknowledgesStop
      client) :
    let acked := Run.final KernelLink.step (KernelLink.create kernel) before
    let link := Run.final KernelLink.step acked (.poll client :: after)
    ∃ earlier executed later new, acked.processed = earlier ++ executed :: later ∧
      executed.client = client ∧ executed.ping.code = Kernel.stopEverything ∧
      (acked.pingers client).call.map PingCall.number = some executed.call ∧
      link.processed = acked.processed ++ new ∧
      (link.kernel.receivingCvels = true → ∃ entry, OpensGate entry.ping ∧
        (entry ∈ later ∨ entry ∈ new ∧ acked.StillComing entry)) := by
  intro acked link
  have start : acked.Consistent kernel :=
    (KernelLink.run_since KernelLink.create_consistent .refl before).1
  obtain ⟨consistent, since⟩ := KernelLink.run_since start .refl (.poll client :: after)
  obtain ⟨call, running, stop, inbox⟩ := acknowledged
  obtain ⟨reply, waiting⟩ := List.exists_mem_of_ne_nil _ inbox
  obtain ⟨executed, listed, own, number, code⟩ := start.answered client call running reply waiting
  obtain ⟨earlier, later, split⟩ := List.append_of_mem listed
  obtain ⟨new, processed⟩ := since.processed
  refine ⟨earlier, executed, later, new, split, own, code.trans stop, ?_, processed.symm, ?_⟩
  · rw [running, number]
    rfl
  · intro opened
    have total : link.processed = earlier ++ executed :: (later ++ new) := by
      rw [← processed, split, List.append_assoc]
      rfl
    obtain ⟨entry, member, opens⟩ := consistent.opened total (code.trans stop) opened
    refine ⟨entry, opens, ?_⟩
    rcases List.mem_append.mp member with between | arrived
    · exact Or.inl between
    · exact Or.inr ⟨arrived,
        since.stillComing (start.pingers entry.client) consistent processed.symm arrived rfl⟩

/-- A client asks to drive and gives up after three polls; then it asks to stop,
and the kernel executes that first. -/
def staleEvents : List (LinkEvent Unit) :=
  [.start () moveToMine startDriving, .poll (), .poll (), .poll (),
    .start () Kernel.stopEverything 0, .deliver () 3 fun _ => 0, .reply 0]

def stoppedLink : KernelLink Unit :=
  Run.final KernelLink.step (KernelLink.create KermitKernel.create) staleEvents

/-- The stop returns, and then the first request to drive arrives. -/
def overtakenLink : KernelLink Unit :=
  Run.final KernelLink.step stoppedLink [.poll (), .deliver () 0 fun _ => 0]

theorem stoppedLink_acknowledges : stoppedLink.AcknowledgesStop () :=
  ⟨_, rfl, rfl, by decide⟩

theorem stop_holds_until_stale :
    ∃ earlier executed later new, stoppedLink.processed = earlier ++ executed :: later ∧
      executed.client = () ∧ executed.ping.code = Kernel.stopEverything ∧
      (stoppedLink.pingers ()).call.map PingCall.number = some executed.call ∧
      overtakenLink.processed = stoppedLink.processed ++ new ∧
      (overtakenLink.kernel.receivingCvels = true → ∃ entry, OpensGate entry.ping ∧
        (entry ∈ later ∨ entry ∈ new ∧ stoppedLink.StillComing entry)) :=
  stop_holds_until KermitKernel.create staleEvents [.deliver () 0 fun _ => 0] ()
    stoppedLink_acknowledges

/-- The gate is open again, though every request processed since is of a call that
was over before the stop. -/
theorem stale_request_opens :
    stoppedLink.AcknowledgesStop () ∧ stoppedLink.kernel.receivingCvels = false ∧
      overtakenLink.kernel.receivingCvels = true ∧
      ∀ entry ∈ overtakenLink.processed.drop stoppedLink.processed.length,
        ¬ stoppedLink.started ≤ entry.call := by
  refine ⟨stoppedLink_acknowledges, by decide, by decide, ?_⟩
  have since : (overtakenLink.processed.drop stoppedLink.processed.length).map Processed.call = [0] := by
    decide
  intro entry member
  have first : entry.call ∈ [0] := since ▸ List.mem_map_of_mem member
  rw [List.mem_singleton.mp first]
  decide

end Sentinet.Network
