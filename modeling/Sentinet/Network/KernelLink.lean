import Mathlib.Logic.Function.Basic
import Sentinet.Control.PingServer
import Sentinet.Kernel.Gate
import Sentinet.Network.Requests

namespace Sentinet.Network

open Sentinet.Data Sentinet.Messages Sentinet.Control Sentinet.Kernel

/-! Any number of clients that send state requests to one kernel.  A request is
delivered once or never, after any delay; a reply reaches the socket that sent
the request, as long as it is open. -/

/-- A running call of `ping_endpoint`.  Its number plays no part in the code, and
what the caller makes of the reply none here. -/
structure PingCall where
  number : Nat
  asked : Ping
  message : List UInt8
  retriesLeft : Nat
  socket : ReqSocket

/-- A client, with the number of the call for each request that it sent. -/
structure Pinger where
  request : PingBuffer
  client : RequestClient
  call : Option PingCall
  calls : List Nat

/-- A request that the kernel has processed, as it decoded it. -/
structure Processed (κ : Type) where
  client : κ
  request : Nat
  call : Nat
  ping : Ping
deriving DecidableEq

structure KernelLink (κ : Type) where
  pingers : κ → Pinger
  started : Nat
  server : RmtControlClient KermitKernel
  kernel : KermitKernel
  processed : List (Processed κ)
  replies : List (κ × Reply)

inductive LinkEvent (κ : Type) where
  | start (client : κ) (code : UInt16) (excess : UInt64)
  | poll (client : κ)
  | deliver (client : κ) (request : Nat) (behind : Memory)
  | reply (position : Nat)

/-- Where the kernel serves. -/
def kernelAddress : String := "tcp://localhost:5555"

namespace Pinger

def create : Pinger :=
  { request := createBufferPing, client := (initializeClient RequestClient.create).2, call := none
    calls := [] }

/-- `ping_endpoint` up to the first poll. -/
def start (pinger : Pinger) (number : Nat) (asked : Ping) : Option Pinger :=
  match pinger.call, pinger.client.thisClient with
  | none, some socket =>
      let request := toWirePing (assignPing pinger.request asked)
      let message := pingString request.data
      let socket := socket.connect kernelAddress
      let context := pinger.client.context.sSend socket message
      some
        { request, client := { thisClient := none, context }
          call := some { number, asked, message, retriesLeft := requestRetries, socket }
          calls := pinger.calls ++ [number] }
  | _, _ => none

/-- From the end of one poll to the next, or to the return. -/
def poll (pinger : Pinger) : Pinger :=
  match pinger.call with
  | none => pinger
  | some call =>
      match innerTurn kernelAddress call.message call.retriesLeft call.socket pinger.client.context with
      | .received _ => { pinger with client := (initializeClient pinger.client).2, call := none }
      | .exhausted => { pinger with client := (initializeClient pinger.client).2, call := none }
      | .resent socket context =>
          { pinger with
            client := { pinger.client with context }
            call := some { call with retriesLeft := call.retriesLeft - 1, socket }
            calls := pinger.calls ++ [call.number] }

/-- A reply arrives; without a running call no socket waits for one. -/
def arrive (pinger : Pinger) (reply : Reply) : Pinger :=
  match pinger.call with
  | none => pinger
  | some call =>
      { pinger with
        call := some { call with socket := call.socket.arrive pinger.client.context reply } }

end Pinger

namespace KernelLink

variable {κ : Type}

def create (kernel : KermitKernel) : KernelLink κ :=
  { pingers := fun _ => Pinger.create
    started := 0
    server := (registerPingFunc createRmtControlClient (PingType.stateRequest.toNat : Int)
      KermitKernel.robotPingHandler).2
    kernel, processed := [], replies := [] }

variable [DecidableEq κ]

/-- The server thread receives a request and replies to it. -/
def process (link : KernelLink κ) (client : κ) (request : Nat) (message : List UInt8)
    (behind : Memory) : KernelLink κ :=
  let served := pingServerCallback link.server link.kernel message behind
  { link with
    server := served.client
    kernel := served.state
    processed := link.processed ++
      [{ client, request, call := (link.pingers client).calls.getD request 0
         ping := decodedPing link.server.buffers.incomming message behind }]
    replies := link.replies ++ [(client, { request, text := served.response })] }

/-- An event that cannot happen changes nothing. -/
def step (link : KernelLink κ) : LinkEvent κ → KernelLink κ
  | .start client code excess =>
      match (link.pingers client).start link.started { type := PingType.stateRequest, code, excess } with
      | none => link
      | some pinger =>
          { link with
            pingers := Function.update link.pingers client pinger, started := link.started + 1 }
  | .poll client =>
      { link with pingers := Function.update link.pingers client (link.pingers client).poll }
  | .deliver client request behind =>
      if link.processed.any fun entry => decide (entry.client = client ∧ entry.request = request) then
        link
      else
        match (link.pingers client).client.context.sent[request]? with
        | none => link
        | some sent => link.process client request sent.message behind
  | .reply position =>
      match link.replies[position]? with
      | none => link
      | some (client, reply) =>
          { link with
            pingers := Function.update link.pingers client ((link.pingers client).arrive reply) }

end KernelLink

/-! One client.  Its requests are state requests on sockets of their own, and a
reply that its socket takes is for a request of the running call. -/

def IsStateRequest (message : List UInt8) (asked : Ping) : Prop :=
  asked.type = PingType.stateRequest ∧
    ∃ buffer : PingBuffer, buffer.prot = protocolVersion ∧ message = wireString buffer asked

structure PingCall.Tracked (call : PingCall) (pinger : Pinger) : Prop where
  message : IsStateRequest call.message call.asked
  moved : pinger.client.thisClient = none
  own : ∀ (index : Nat) (sent : SentRequest), pinger.client.context.sent[index]? = some sent →
    sent.socket = call.socket.id →
      pinger.calls[index]? = some call.number ∧ sent.message = call.message

structure Pinger.Tracked (pinger : Pinger) : Prop where
  version : pinger.request.prot = protocolVersion
  count : pinger.calls.length = pinger.client.context.sent.length
  ordered : pinger.client.context.Ordered
  requests : ∀ sent ∈ pinger.client.context.sent, ∃ asked, IsStateRequest sent.message asked
  idle : pinger.call = none → ∃ socket, pinger.client.Ready socket
  waiting : ∀ call, pinger.call = some call → call.Tracked pinger

/-- A call that is running, or was started when that many calls had been. -/
def Pinger.MayNumber (pinger : Pinger) (started number : Nat) : Prop :=
  started ≤ number ∨ ∃ call, pinger.call = some call ∧ call.number = number

/-- What a client was is still there: its later requests belong to later calls or
to the one that was running. -/
structure Pinger.Since (origin : Pinger) (started : Nat) (pinger : Pinger) : Prop where
  sent : origin.client.context.sent <+: pinger.client.context.sent
  calls : ∃ more, pinger.calls = origin.calls ++ more ∧
    ∀ number ∈ more, origin.MayNumber started number
  call : ∀ call, pinger.call = some call → origin.MayNumber started call.number

section Pinger

variable {pinger after origin : Pinger} {number started retriesLeft : Nat} {asked : Ping}
  {socket : ReqSocket} {context : ReqContext} {message : List UInt8} {calls : List Nat}

theorem Pinger.none_running (idle : pinger.call = none) {property : PingCall → Prop} :
    ∀ call, pinger.call = some call → property call := by
  intro call running
  rw [idle] at running
  contradiction

theorem Pinger.Since.refl : origin.Since started origin :=
  ⟨List.prefix_refl _, ⟨[], (List.append_nil _).symm, nofun⟩, fun call running =>
    Or.inr ⟨call, running, rfl⟩⟩

theorem Pinger.Since.trans (since : origin.Since started pinger) (next : pinger.Since started after) :
    origin.Since started after := by
  have mayNumber {number : Nat} (may : pinger.MayNumber started number) :
      origin.MayNumber started number := by
    rcases may with later | ⟨call, running, rfl⟩
    · exact Or.inl later
    · exact since.call call running
  obtain ⟨first, earlier, allowed⟩ := since.calls
  obtain ⟨second, later, allowed'⟩ := next.calls
  refine ⟨since.sent.trans next.sent, ⟨first ++ second, ?_, ?_⟩,
    fun call running => mayNumber (next.call call running)⟩
  · rw [later, earlier, List.append_assoc]
  · intro number member
    rcases List.mem_append.mp member with old | new
    · exact allowed number old
    · exact mayNumber (allowed' number new)

theorem Pinger.create_tracked : Pinger.create.Tracked :=
  ⟨rfl, rfl, initialized_ready.ordered, nofun, fun _ => ⟨_, initialized_ready⟩, nofun⟩

/-- The requests after one more, on a socket that none was sent on. -/
theorem own_sSend (count : calls.length = context.sent.length)
    (younger : ∀ sent ∈ context.sent, sent.socket < socket.id) (index : Nat) (sent : SentRequest)
    (found : (context.sSend socket message).sent[index]? = some sent)
    (same : sent.socket = socket.id) :
    (calls ++ [number])[index]? = some number ∧ sent.message = message := by
  rcases Nat.lt_trichotomy index context.sent.length with before | last | beyond
  · rw [ReqContext.sSend, List.getElem?_append_left before] at found
    exact absurd same (Nat.ne_of_lt (younger sent (List.mem_of_getElem? found)))
  · subst last
    rw [ReqContext.sSend, List.getElem?_append_right (Nat.le_refl _), Nat.sub_self] at found
    cases found
    rw [← count, List.getElem?_append_right (Nat.le_refl _), Nat.sub_self]
    exact ⟨rfl, rfl⟩
  · rw [ReqContext.sSend, List.getElem?_eq_none (by
      simp only [List.length_append, List.length_singleton]
      omega)] at found
    contradiction

theorem requests_sSend (requests : ∀ sent ∈ context.sent, ∃ asked, IsStateRequest sent.message asked)
    (own : IsStateRequest message asked) :
    ∀ sent ∈ (context.sSend socket message).sent, ∃ asked, IsStateRequest sent.message asked := by
  intro sent member
  rcases List.mem_append.mp member with earlier | last
  · exact requests sent earlier
  · rw [List.mem_singleton.mp last]
    exact ⟨asked, own⟩

/-- What starting a call does to a client. -/
theorem Pinger.start_cases (tracked : pinger.Tracked) (stateRequest : asked.type = PingType.stateRequest)
    (began : pinger.start number asked = some after) :
    after.Tracked ∧ (∀ started ≤ number, pinger.Since started after) ∧
      ∀ call, after.call = some call → call.socket.inbox = [] := by
  cases running : pinger.call with
  | some call => simp [Pinger.start, running] at began
  | none =>
      obtain ⟨socket, ready⟩ := tracked.idle running
      simp only [Pinger.start, running, ready.holds, Option.some.injEq] at began
      subst began
      have message : IsStateRequest (wireString pinger.request asked) asked :=
        ⟨stateRequest, pinger.request, tracked.version, rfl⟩
      refine ⟨⟨tracked.version, ?_, ready.ordered.sSend ready.younger ready.made,
        requests_sSend tracked.requests message, nofun, ?_⟩, ?_, ?_⟩
      · simp only [ReqContext.sSend, List.length_append, List.length_singleton, tracked.count]
      · intro call found
        cases found
        have younger : ∀ sent ∈ pinger.client.context.sent,
            sent.socket < (socket.connect kernelAddress).id := ready.younger
        exact ⟨message, rfl, own_sSend tracked.count younger⟩
      · intro started bound
        refine ⟨List.prefix_append _ _, ⟨[number], rfl, ?_⟩, ?_⟩
        · intro other member
          rw [List.mem_singleton.mp member]
          exact Or.inl bound
        · intro call found
          cases found
          exact Or.inl bound
      · intro call found
        cases found
        exact ready.inbox

/-- Returning from a call leaves a fresh socket. -/
theorem Pinger.returned (tracked : pinger.Tracked) (moved : pinger.client.thisClient = none) :
    ({ pinger with client := (initializeClient pinger.client).2, call := none } : Pinger).Tracked ∧
      (initializeClient pinger.client).2.context.sent = pinger.client.context.sent := by
  have fresh : (initializeClient pinger.client).2 =
      { thisClient := some pinger.client.context.makeSocket.1
        context := pinger.client.context.makeSocket.2 } := by
    simp only [initializeClient, moved]
  rw [fresh]
  exact ⟨⟨tracked.version, tracked.count, tracked.ordered.makeSocket, tracked.requests,
    fun _ => ⟨_, rfl, rfl, rfl, tracked.ordered.below, Nat.lt_succ_self _,
      tracked.ordered.makeSocket⟩, Pinger.none_running rfl⟩, rfl⟩

/-- What a poll does to a client: nothing, a return, or one more request of the
running call. -/
theorem Pinger.poll_cases (tracked : pinger.Tracked) :
    pinger.poll.Tracked ∧ pinger.Since started pinger.poll ∧
      ∀ call, pinger.poll.call = some call → call.socket.inbox = [] := by
  cases found : pinger.call with
  | none =>
      have same : pinger.poll = pinger := by simp only [Pinger.poll, found]
      rw [same]
      exact ⟨tracked, .refl, Pinger.none_running found⟩
  | some call =>
      have waiting := tracked.waiting call found
      obtain ⟨back, sent⟩ := Pinger.returned tracked waiting.moved
      have kept : pinger.Since started
          { pinger with client := (initializeClient pinger.client).2, call := none } := by
        refine ⟨sent ▸ List.prefix_refl _, ⟨[], (List.append_nil _).symm, ?_⟩,
          Pinger.none_running rfl⟩
        intro number member
        contradiction
      have silent (again : PingCall) (running : (none : Option PingCall) = some again) :
          again.socket.inbox = [] := absurd running (by simp)
      cases inbox : call.socket.inbox with
      | cons reply later =>
          simp only [Pinger.poll, found, innerTurn, inbox]
          exact ⟨back, kept, silent⟩
      | nil =>
          by_cases last : call.retriesLeft - 1 = 0
          · simp only [Pinger.poll, found, innerTurn, inbox, if_pos last]
            exact ⟨back, kept, silent⟩
          · simp only [Pinger.poll, found, innerTurn, inbox, if_neg last]
            have younger : ∀ sent ∈ pinger.client.context.makeSocket.2.sent,
                sent.socket < (pinger.client.context.makeSocket.1.connect kernelAddress).id :=
              tracked.ordered.below
            have same : pinger.MayNumber started call.number := Or.inr ⟨call, found, rfl⟩
            refine ⟨⟨tracked.version, ?_, tracked.ordered.makeSocket.sSend younger (Nat.lt_succ_self _),
              requests_sSend tracked.requests waiting.message, ?_, ?_⟩,
              ⟨List.prefix_append _ _, ⟨[call.number], rfl, ?_⟩, ?_⟩, ?_⟩
            · simp only [ReqContext.sSend, ReqContext.makeSocket, List.length_append,
                List.length_singleton, tracked.count]
            · intro ended
              contradiction
            · intro again running
              cases running
              exact ⟨waiting.message, waiting.moved, own_sSend tracked.count younger⟩
            · intro number member
              rw [List.mem_singleton.mp member]
              exact same
            · intro again running
              cases running
              exact same
            · intro again running
              cases running
              rfl

/-- What a reply does to a client: at most, it waits in the socket of the running
call, whose request it answers. -/
theorem Pinger.arrive_cases (tracked : pinger.Tracked) (reply : Reply) :
    (pinger.arrive reply).Tracked ∧ pinger.Since started (pinger.arrive reply) ∧
      ∀ call, (pinger.arrive reply).call = some call → ∃ running, pinger.call = some running ∧
        running.number = call.number ∧ running.asked = call.asked ∧
        ∀ waiting ∈ call.socket.inbox, waiting ∈ running.socket.inbox ∨ waiting = reply ∧
          pinger.calls[reply.request]? = some call.number ∧
          ∃ sent, pinger.client.context.sent[reply.request]? = some sent ∧
            IsStateRequest sent.message call.asked := by
  cases found : pinger.call with
  | none =>
      have same : pinger.arrive reply = pinger := by simp only [Pinger.arrive, found]
      rw [same]
      exact ⟨tracked, .refl, Pinger.none_running found⟩
  | some call =>
      have waiting := tracked.waiting call found
      have arrived : pinger.arrive reply = { pinger with
          call := some { call with socket := call.socket.arrive pinger.client.context reply } } := by
        simp only [Pinger.arrive, found]
      obtain ⟨id, inbox⟩ := call.socket.arrive_cases pinger.client.context reply
      rw [arrived]
      refine ⟨⟨tracked.version, tracked.count, tracked.ordered, tracked.requests, nofun,
        ?_⟩, ⟨List.prefix_refl _, ⟨[], (List.append_nil _).symm, nofun⟩, ?_⟩, ?_⟩
      · intro again running
        cases running
        refine ⟨waiting.message, waiting.moved, ?_⟩
        intro index sent found same
        exact waiting.own index sent found (same.trans id)
      · intro again running
        cases running
        exact Or.inr ⟨call, found, rfl⟩
      · intro again running
        cases running
        refine ⟨call, rfl, rfl, rfl, ?_⟩
        intro other member
        refine (inbox other member).imp_right ?_
        rintro ⟨last, sent, request, same⟩
        obtain ⟨calls, message⟩ := waiting.own _ sent request same
        exact ⟨last, calls, sent, request, message ▸ waiting.message⟩

end Pinger

end Sentinet.Network
