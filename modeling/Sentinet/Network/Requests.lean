import Mathlib.Data.List.Nodup
import Mathlib.Data.List.Induction
import Sentinet.Data.Run

namespace Sentinet.Network

open Sentinet.Data

/-! One-shot requests of `ZMQControlClient`.  A request may get its reply at any
time or never; the reply is for the socket that sent the request, and is lost
once that socket is closed. -/

/-- A reply to the request with that number. -/
structure Reply where
  request : Nat
  text : List UInt8

/-- An open `ZMQ_REQ` socket. -/
structure ReqSocket where
  id : Nat
  endpoints : List String
  inbox : List Reply

structure SentRequest where
  socket : Nat
  endpoints : List String
  message : List UInt8
deriving DecidableEq

/-- The context: the sockets made so far are numbered, and so are the requests. -/
structure ReqContext where
  nextSocket : Nat
  sent : List SentRequest

/-- `std::make_unique<::zmq::socket_t>(context, ZMQ_REQ)` -/
def ReqContext.makeSocket (context : ReqContext) : ReqSocket × ReqContext :=
  ({ id := context.nextSocket, endpoints := [], inbox := [] },
    { context with nextSocket := context.nextSocket + 1 })

def ReqSocket.connect (socket : ReqSocket) (server : String) : ReqSocket :=
  { socket with endpoints := socket.endpoints ++ [server] }

def ReqContext.sSend (context : ReqContext) (socket : ReqSocket) (message : List UInt8) :
    ReqContext :=
  { context with
    sent := context.sent ++ [{ socket := socket.id, endpoints := socket.endpoints, message }] }

/-- A reply reaches a socket only if that socket sent the request. -/
def ReqSocket.arrive (context : ReqContext) (socket : ReqSocket) (reply : Reply) : ReqSocket :=
  match context.sent[reply.request]? with
  | some request =>
      if request.socket = socket.id then { socket with inbox := socket.inbox ++ [reply] } else socket
  | none => socket

def requestRetries : Nat := 3

inductive Turn where
  | received (reply : Reply)
  | exhausted
  | resent (socket : ReqSocket) (context : ReqContext)

/-- The `while (expect_reply)` loop from the end of its poll to the next one. -/
def innerTurn (server : String) (message : List UInt8) (retriesLeft : Nat) (socket : ReqSocket)
    (context : ReqContext) : Turn :=
  match socket.inbox with
  | reply :: _ => .received reply
  | [] =>
      if retriesLeft - 1 = 0 then .exhausted
      else
        let (socket, context) := context.makeSocket
        let socket := socket.connect server
        .resent socket (context.sSend socket message)

inductive LoopEnd where
  | received (reply : Reply) (context : ReqContext)
  | exhausted (retriesLeft : Nat) (socket : ReqSocket) (context : ReqContext)
      (polls : List (List Reply))

/-- The `while (expect_reply)` loop; each poll waits while some replies arrive. -/
def innerLoop (server : String) (message : List UInt8) :
    (retriesLeft : Nat) → ReqSocket → ReqContext → (polls : List (List Reply)) → LoopEnd
  | 0, socket, context, polls => .exhausted 0 socket context polls
  | retriesLeft + 1, socket, context, polls =>
      let socket := (polls.headD []).foldl (ReqSocket.arrive context) socket
      match innerTurn server message (retriesLeft + 1) socket context with
      | .received reply => .received reply context
      | .exhausted => .exhausted retriesLeft socket context polls.tail
      | .resent socket context => innerLoop server message retriesLeft socket context polls.tail

section Loops

variable {server : String} {message : List UInt8} {retriesLeft : Nat} {socket : ReqSocket}
  {context : ReqContext} {polls : List (List Reply)}

/-- The next try: a new socket, the same server and the same message. -/
def resend (server : String) (message : List UInt8) (context : ReqContext) : ReqSocket × ReqContext :=
  let socket := context.makeSocket.1.connect server
  (socket, context.makeSocket.2.sSend socket message)

theorem innerLoop_received {reply : Reply} {later : List Reply}
    (inbox : ((polls.headD []).foldl (ReqSocket.arrive context) socket).inbox = reply :: later) :
    innerLoop server message (retriesLeft + 1) socket context polls = .received reply context := by
  simp only [innerLoop, innerTurn, inbox]

theorem innerLoop_last
    (inbox : ((polls.headD []).foldl (ReqSocket.arrive context) socket).inbox = []) :
    innerLoop server message 1 socket context polls = .exhausted 0
      ((polls.headD []).foldl (ReqSocket.arrive context) socket) context polls.tail := by
  rw [innerLoop, innerTurn, inbox]
  rfl

theorem innerLoop_again
    (inbox : ((polls.headD []).foldl (ReqSocket.arrive context) socket).inbox = []) :
    innerLoop server message (retriesLeft + 2) socket context polls =
      innerLoop server message (retriesLeft + 1) (resend server message context).1
        (resend server message context).2 polls.tail := by
  rw [innerLoop, innerTurn, inbox]
  rfl

theorem innerLoop_exhausted {left : Nat} {last : ReqSocket} {after : ReqContext}
    {rest : List (List Reply)} (ended : innerLoop server message retriesLeft socket context polls =
      .exhausted left last after rest) : left = 0 := by
  induction retriesLeft generalizing socket context polls with
  | zero =>
      cases ended
      rfl
  | succ retriesLeft ih =>
      cases inbox : ((polls.headD []).foldl (ReqSocket.arrive context) socket).inbox with
      | cons reply later =>
          rw [innerLoop_received inbox] at ended
          contradiction
      | nil =>
          cases retriesLeft with
          | zero =>
              rw [innerLoop_last inbox] at ended
              cases ended
              rfl
          | succ retriesLeft =>
              rw [innerLoop_again inbox] at ended
              exact ih ended

end Loops

/-- The `while (retries_left)` loop: the reply, if any. -/
def outerLoop (server : String) (message : List UInt8) (retriesLeft : Nat) (socket : ReqSocket)
    (context : ReqContext) (polls : List (List Reply)) : Option Reply × ReqContext :=
  if retriesLeft = 0 then (none, context)
  else
    let context := context.sSend socket message
    match _ended : innerLoop server message retriesLeft socket context polls with
    | .received reply context => (some reply, context)
    | .exhausted left socket context polls => outerLoop server message left socket context polls
termination_by retriesLeft
decreasing_by
  have spent := innerLoop_exhausted _ended
  omega

/-- `"No response"` -/
def noResponse : List UInt8 := [78, 111, 32, 114, 101, 115, 112, 111, 110, 115, 101]

/-- What one-shot requests use of a client. -/
structure RequestClient where
  thisClient : Option ReqSocket
  context : ReqContext

def RequestClient.create : RequestClient :=
  { thisClient := none, context := { nextSocket := 0, sent := [] } }

def initializeClient (client : RequestClient) : Bool × RequestClient :=
  match client.thisClient with
  | some _ => (false, client)
  | none =>
      let (socket, context) := client.context.makeSocket
      (true, { thisClient := some socket, context })

/-- The string that a call returns, and the reply it was read from. -/
structure Answer where
  reply : List UInt8
  received : Option Reply
  client : RequestClient

/-- Both ways out close the socket and make a new client. -/
def concurrentRequest (client : RequestClient) (server : String) (socket : ReqSocket)
    (message : List UInt8) (polls : List (List Reply)) : Answer :=
  let socket := socket.connect server
  let (received, context) := outerLoop server message requestRetries socket client.context polls
  let (_, client) := initializeClient { client with context }
  { reply := (received.map Reply.text).getD noResponse, received, client }

/-- The socket moves out of the client before the call. -/
def request (client : RequestClient) (destination : String) (message : List UInt8)
    (polls : List (List Reply)) : Answer :=
  match client.thisClient with
  | none => { reply := [], received := none, client }
  | some socket =>
      concurrentRequest { client with thisClient := none } destination socket message polls

/-! What the requests of a context look like. -/

/-- Every request was sent on a socket of its own, in the order of the sockets. -/
structure ReqContext.Ordered (context : ReqContext) : Prop where
  increasing : (context.sent.map SentRequest.socket).Pairwise (· < ·)
  below : ∀ sent ∈ context.sent, sent.socket < context.nextSocket

/-- The requests that a call added, all of them its own. -/
structure Adds (server : String) (message : List UInt8) (context after : ReqContext)
    (made : List SentRequest) : Prop where
  sent : after.sent = context.sent ++ made
  own : ∀ sent ∈ made, sent.endpoints = [server] ∧ sent.message = message
  ordered : after.Ordered

/-- A socket whose request is the last one that was sent, before any reply. -/
structure Polling (server : String) (message : List UInt8) (socket : ReqSocket)
    (context : ReqContext) (current : Nat) : Prop where
  last : ∃ earlier, context.sent = earlier ++
    [{ socket := socket.id, endpoints := [server], message }] ∧ earlier.length = current
  ordered : context.Ordered
  inbox : socket.inbox = []

section Matching

variable {server : String} {message : List UInt8} {retriesLeft current : Nat} {socket : ReqSocket}
  {context : ReqContext} {polls : List (List Reply)}

theorem ReqContext.Ordered.makeSocket (ordered : context.Ordered) :
    context.makeSocket.2.Ordered :=
  ⟨ordered.increasing, fun sent member => Nat.lt_succ_of_lt (ordered.below sent member)⟩

/-- Sending on a socket younger than all that sent before. -/
theorem ReqContext.Ordered.sSend (ordered : context.Ordered)
    (younger : ∀ sent ∈ context.sent, sent.socket < socket.id)
    (made : socket.id < context.nextSocket) : (context.sSend socket message).Ordered := by
  constructor
  · simp only [ReqContext.sSend, List.map_append, List.pairwise_append, List.map_cons, List.map_nil,
      List.pairwise_singleton, List.mem_singleton, List.mem_map, true_and]
    refine ⟨ordered.increasing, ?_⟩
    intro id listed last same
    obtain ⟨sent, member, rfl⟩ := listed
    rw [same]
    exact younger sent member
  · intro sent member
    rcases List.mem_append.mp member with earlier | last
    · exact ordered.below sent earlier
    · rw [List.mem_singleton.mp last]
      exact made

theorem polling_sSend (ordered : context.Ordered)
    (younger : ∀ sent ∈ context.sent, sent.socket < socket.id)
    (made : socket.id < context.nextSocket) (connected : socket.endpoints = [server])
    (inbox : socket.inbox = []) :
    Polling server message socket (context.sSend socket message) context.sent.length :=
  ⟨⟨context.sent, by rw [ReqContext.sSend, connected], rfl⟩, ordered.sSend younger made, inbox⟩

theorem Polling.resend (polling : Polling server message socket context current) :
    Polling server message (resend server message context).1 (resend server message context).2
        (current + 1) ∧
      (resend server message context).2.sent = context.sent ++
        [{ socket := context.nextSocket, endpoints := [server], message }] := by
  obtain ⟨earlier, sent, length⟩ := polling.last
  have count : context.sent.length = current + 1 := by
    rw [sent, List.length_append, length]
    rfl
  refine ⟨?_, rfl⟩
  rw [← count]
  exact polling_sSend polling.ordered.makeSocket polling.ordered.below (Nat.lt_succ_self _) rfl rfl

theorem Polling.length (polling : Polling server message socket context current) :
    context.sent.length = current + 1 := by
  obtain ⟨earlier, sent, length⟩ := polling.last
  rw [sent, List.length_append, length]
  rfl

/-- A reply keeps the socket what it is, and lands in its inbox only when the socket
sent the request. -/
theorem ReqSocket.arrive_cases (context : ReqContext) (socket : ReqSocket) (reply : Reply) :
    (socket.arrive context reply).id = socket.id ∧
      ∀ waiting ∈ (socket.arrive context reply).inbox, waiting ∈ socket.inbox ∨
        waiting = reply ∧ ∃ sent, context.sent[reply.request]? = some sent ∧ sent.socket = socket.id := by
  unfold ReqSocket.arrive
  cases request : context.sent[reply.request]? with
  | none => exact ⟨rfl, fun waiting member => Or.inl member⟩
  | some sent =>
      by_cases same : sent.socket = socket.id
      · simp only [if_pos same]
        refine ⟨trivial, fun waiting member => ?_⟩
        rcases List.mem_append.mp member with earlier | last
        · exact Or.inl earlier
        · exact Or.inr ⟨List.mem_singleton.mp last, sent, rfl, same⟩
      · simp only [if_neg same]
        exact ⟨trivial, fun waiting member => Or.inl member⟩

/-- Only a reply to its own request reaches a polling socket. -/
theorem Polling.arrive (polling : Polling server message socket context current)
    {other : ReqSocket} (same : other.id = socket.id) (reply : Reply) :
    other.arrive context reply =
      if reply.request = current then { other with inbox := other.inbox ++ [reply] } else other := by
  have count := polling.length
  obtain ⟨earlier, sent, length⟩ := polling.last
  by_cases own : reply.request = current
  · have found : context.sent[reply.request]? =
        some { socket := socket.id, endpoints := [server], message } := by
      rw [sent, own, ← length, List.getElem?_append_right (Nat.le_refl _), Nat.sub_self]
      rfl
    simp only [ReqSocket.arrive, found, same, if_true, if_pos own]
  · rw [if_neg own]
    by_cases earlierRequest : reply.request < current
    · have inside : reply.request < earlier.length := by omega
      have found : context.sent[reply.request]? = some (earlier[reply.request]) := by
        rw [sent, List.getElem?_append_left inside, List.getElem?_eq_getElem inside]
      have older : (earlier[reply.request]).socket < socket.id := by
        have increasing := polling.ordered.increasing
        rw [sent, List.map_append, List.pairwise_append] at increasing
        exact increasing.2.2 _ (List.mem_map_of_mem (List.getElem_mem inside)) _ (by simp)
      simp only [ReqSocket.arrive, found, same, if_neg (Nat.ne_of_lt older)]
    · have missing : context.sent[reply.request]? = none :=
        List.getElem?_eq_none (by omega)
      simp only [ReqSocket.arrive, missing]

theorem Polling.arrivals (polling : Polling server message socket context current)
    {other : ReqSocket} (same : other.id = socket.id) (replies : List Reply) :
    (replies.foldl (ReqSocket.arrive context) other).inbox =
      other.inbox ++ replies.filter fun reply => reply.request == current := by
  induction replies generalizing other with
  | nil => rw [List.foldl_nil, List.filter_nil, List.append_nil]
  | cons reply rest ih =>
      rw [List.foldl_cons, polling.arrive same]
      by_cases own : reply.request = current
      · have later := @ih { other with inbox := other.inbox ++ [reply] } same
        rw [if_pos own, later, List.filter_cons_of_pos (by simpa using own), List.append_assoc]
        rfl
      · rw [if_neg own, ih same, List.filter_cons_of_neg (by simpa using own)]

/-- The replies that a call may still get, poll by poll. -/
def OwnReply (polls : List (List Reply)) (current turn : Nat) (reply : Reply) : Prop :=
  reply ∈ polls.getD turn [] ∧ reply.request = current + turn

theorem OwnReply.mem_flatten {turn : Nat} {reply : Reply} (own : OwnReply polls current turn reply) :
    reply ∈ polls.flatten := by
  cases found : polls[turn]? with
  | none =>
      have arrived := own.1
      rw [List.getD_eq_getElem?_getD, found] at arrived
      contradiction
  | some replies =>
      have arrived := own.1
      rw [List.getD_eq_getElem?_getD, found] at arrived
      exact List.mem_flatten.mpr ⟨replies, List.mem_of_getElem? found, arrived⟩

theorem ownReply_succ {turn : Nat} {reply : Reply} :
    OwnReply polls current (turn + 1) reply ↔ OwnReply polls.tail (current + 1) turn reply := by
  have shifted : current + (turn + 1) = current + 1 + turn := by omega
  cases polls with
  | nil => simp [OwnReply]
  | cons first rest => simp [OwnReply, shifted]

theorem Polling.inbox_nil (polling : Polling server message socket context current)
    (inbox : ((polls.headD []).foldl (ReqSocket.arrive context) socket).inbox = []) (reply : Reply) :
    ¬ OwnReply polls current 0 reply := by
  intro own
  have arrived := polling.arrivals rfl (polls.headD [])
  have listed : reply ∈ polls.headD [] := by
    cases polls with
    | nil => simpa [OwnReply] using own.1
    | cons first rest => simpa using own.1
  rw [inbox, polling.inbox, List.nil_append] at arrived
  have kept : reply ∈ (polls.headD []).filter fun reply => reply.request == current :=
    List.mem_filter.mpr ⟨listed, beq_iff_eq.mpr own.2⟩
  rw [← arrived] at kept
  contradiction

theorem Polling.inbox_cons (polling : Polling server message socket context current) {reply : Reply}
    {later : List Reply}
    (inbox : ((polls.headD []).foldl (ReqSocket.arrive context) socket).inbox = reply :: later) :
    OwnReply polls current 0 reply := by
  have arrived := polling.arrivals rfl (polls.headD [])
  rw [inbox, polling.inbox, List.nil_append] at arrived
  have kept : reply ∈ (polls.headD []).filter fun reply => reply.request == current := by
    rw [← arrived]
    exact List.mem_cons_self
  obtain ⟨listed, own⟩ := List.mem_filter.mp kept
  refine ⟨?_, beq_iff_eq.mp own⟩
  cases polls with
  | nil => contradiction
  | cons first rest => exact listed

theorem Adds.after {middle after : ReqContext} {first : SentRequest} {made : List SentRequest}
    (adds : Adds server message middle after made) (sent : middle.sent = context.sent ++ [first])
    (own : first.endpoints = [server] ∧ first.message = message) :
    Adds server message context after (first :: made) := by
  refine ⟨?_, ?_, adds.ordered⟩
  · rw [adds.sent, sent, List.append_assoc]
    rfl
  · intro request member
    rcases List.mem_cons.mp member with same | later
    · rw [same]
      exact own
    · exact adds.own request later

/-- The loop resends at most as often as it may, and ends with the first reply to
one of its own requests or after waiting for each of them in vain. -/
theorem innerLoop_spec (polling : Polling server message socket context current) :
    match innerLoop server message (retriesLeft + 1) socket context polls with
    | .received reply after => ∃ made, Adds server message context after made ∧
        made.length ≤ retriesLeft ∧ ∃ turn ≤ made.length, OwnReply polls current turn reply
    | .exhausted left _ after _ => left = 0 ∧ ∃ made, Adds server message context after made ∧
        made.length = retriesLeft ∧ ∀ turn ≤ retriesLeft, ∀ reply, ¬ OwnReply polls current turn reply := by
  induction retriesLeft generalizing socket context current polls with
  | zero =>
      cases inbox : ((polls.headD []).foldl (ReqSocket.arrive context) socket).inbox with
      | cons reply later =>
          rw [innerLoop_received inbox]
          exact ⟨[], ⟨(List.append_nil _).symm, nofun, polling.ordered⟩, Nat.le_refl _, 0,
            Nat.le_refl _, polling.inbox_cons inbox⟩
      | nil =>
          rw [innerLoop_last inbox]
          refine ⟨rfl, [], ⟨(List.append_nil _).symm, nofun, polling.ordered⟩, rfl, ?_⟩
          intro turn bound
          obtain rfl := Nat.le_zero.mp bound
          exact polling.inbox_nil inbox
  | succ retriesLeft ih =>
      cases inbox : ((polls.headD []).foldl (ReqSocket.arrive context) socket).inbox with
      | cons reply later =>
          rw [innerLoop_received inbox]
          exact ⟨[], ⟨(List.append_nil _).symm, nofun, polling.ordered⟩, Nat.zero_le _, 0,
            Nat.le_refl _, polling.inbox_cons inbox⟩
      | nil =>
          rw [innerLoop_again inbox]
          obtain ⟨next, sent⟩ := polling.resend
          have later := @ih _ _ _ polls.tail next
          cases ended : innerLoop server message (retriesLeft + 1) (resend server message context).1
              (resend server message context).2 polls.tail with
          | received reply after =>
              rw [ended] at later
              obtain ⟨made, adds, bound, turn, within, own⟩ := later
              exact ⟨_ :: made, adds.after sent ⟨rfl, rfl⟩, Nat.succ_le_succ bound, turn + 1,
                Nat.succ_le_succ within, ownReply_succ.mpr own⟩
          | exhausted left last after rest =>
              rw [ended] at later
              obtain ⟨spent, made, adds, count, silent⟩ := later
              refine ⟨spent, _ :: made, adds.after sent ⟨rfl, rfl⟩, congrArg (· + 1) count, ?_⟩
              intro turn bound reply
              cases turn with
              | zero => exact polling.inbox_nil inbox reply
              | succ turn =>
                  rw [ownReply_succ]
                  exact silent turn (Nat.le_of_succ_le_succ bound) reply

theorem outerLoop_received {reply : Reply} {after : ReqContext}
    (round : innerLoop server message (retriesLeft + 1) socket (context.sSend socket message) polls =
      .received reply after) :
    outerLoop server message (retriesLeft + 1) socket context polls = (some reply, after) := by
  rw [outerLoop, if_neg (Nat.succ_ne_zero retriesLeft)]
  dsimp only
  split
  next reply' after' received =>
    rw [round] at received
    cases received
    rfl
  next exhausted =>
    rw [round] at exhausted
    contradiction

theorem outerLoop_exhausted {last : ReqSocket} {after : ReqContext} {rest : List (List Reply)}
    (round : innerLoop server message (retriesLeft + 1) socket (context.sSend socket message) polls =
      .exhausted 0 last after rest) :
    outerLoop server message (retriesLeft + 1) socket context polls = (none, after) := by
  rw [outerLoop, if_neg (Nat.succ_ne_zero retriesLeft)]
  dsimp only
  split
  next received =>
    rw [round] at received
    contradiction
  next exhausted =>
    rw [round] at exhausted
    cases exhausted
    rw [outerLoop, if_pos rfl]

/-- The outer loop goes round once. -/
theorem outerLoop_spec (ordered : context.Ordered)
    (younger : ∀ sent ∈ context.sent, sent.socket < socket.id)
    (made : socket.id < context.nextSocket) (connected : socket.endpoints = [server])
    (inbox : socket.inbox = []) :
    ∃ made, Adds server message context
        (outerLoop server message requestRetries socket context polls).2 made ∧
      0 < made.length ∧ made.length ≤ requestRetries ∧
      match (outerLoop server message requestRetries socket context polls).1 with
      | some reply => ∃ turn < made.length, OwnReply polls context.sent.length turn reply
      | none => ∀ turn < requestRetries, ∀ reply, ¬ OwnReply polls context.sent.length turn reply := by
  have polling : Polling server message socket (context.sSend socket message) _ :=
    polling_sSend ordered younger made connected inbox
  have ended := @innerLoop_spec server message 2 _ _ _ polls polling
  have first : (context.sSend socket message).sent = context.sent ++
      [{ socket := socket.id, endpoints := [server], message }] := by
    rw [ReqContext.sSend, connected]
  have retries : requestRetries = 2 + 1 := rfl
  rw [retries]
  cases round : innerLoop server message (2 + 1) socket (context.sSend socket message) polls with
  | received reply after =>
      rw [round] at ended
      obtain ⟨made, adds, bound, turn, within, own⟩ := ended
      rw [outerLoop_received round]
      exact ⟨_ :: made, adds.after first ⟨rfl, rfl⟩, Nat.succ_pos _, Nat.succ_le_succ bound, turn,
        Nat.lt_succ_of_le within, own⟩
  | exhausted left last after rest =>
      rw [round] at ended
      obtain ⟨rfl, made, adds, count, silent⟩ := ended
      rw [outerLoop_exhausted round]
      exact ⟨_ :: made, adds.after first ⟨rfl, rfl⟩, Nat.succ_pos _,
        Nat.succ_le_succ (Nat.le_of_eq count), fun turn bound => silent turn (Nat.le_of_lt_succ bound)⟩

end Matching

/-! Runs of calls. -/

structure RequestCall where
  destination : String
  message : List UInt8
  polls : List (List Reply)

def RequestCall.answer (call : RequestCall) (client : RequestClient) : Answer :=
  request client call.destination call.message call.polls

def RequestCall.apply (client : RequestClient) (call : RequestCall) : RequestClient :=
  (call.answer client).client

/-- No poll of the call sees a reply to the request that was sent before it; the
requests of the call are numbered from the first one on. -/
def RequestCall.TimesOut (call : RequestCall) (first : Nat) : Prop :=
  ∀ turn < requestRetries, ∀ reply ∈ call.polls.getD turn [], reply.request ≠ first + turn

/-- A client with a fresh and unconnected socket. -/
structure RequestClient.Ready (client : RequestClient) (socket : ReqSocket) : Prop where
  holds : client.thisClient = some socket
  unconnected : socket.endpoints = []
  inbox : socket.inbox = []
  younger : ∀ sent ∈ client.context.sent, sent.socket < socket.id
  made : socket.id < client.context.nextSocket
  ordered : client.context.Ordered

/-- What one call does: it sends its own message, each time on a new socket, and
answers with a reply to one of those requests or, when every poll times out, with
`"No response"`. -/
structure RequestCall.Matched (call : RequestCall) (client : RequestClient) : Prop where
  sends : ∃ made, (call.apply client).context.sent = client.context.sent ++ made ∧
    0 < made.length ∧ made.length ≤ requestRetries ∧
    ∀ sent ∈ made, sent.endpoints = [call.destination] ∧ sent.message = call.message
  distinct : ((call.apply client).context.sent.map SentRequest.socket).Nodup
  own : ∀ reply, (call.answer client).received = some reply →
    (call.answer client).reply = reply.text ∧ reply ∈ call.polls.flatten ∧
      client.context.sent.length ≤ reply.request ∧
      reply.request < (call.apply client).context.sent.length
  silent : (call.answer client).received = none ↔ call.TimesOut client.context.sent.length
  noResponse : (call.answer client).received = none → (call.answer client).reply = noResponse
  ready : ∃ socket, (call.apply client).Ready socket

section Calls

variable {client : RequestClient} {socket : ReqSocket}

theorem initialized_ready : (initializeClient RequestClient.create).2.Ready
    { id := 0, endpoints := [], inbox := [] } :=
  ⟨rfl, rfl, rfl, nofun, by decide, ⟨List.Pairwise.nil, nofun⟩⟩

theorem RequestClient.Ready.answer (ready : client.Ready socket) (call : RequestCall) :
    call.answer client =
      let ended := outerLoop call.destination call.message requestRetries
        (socket.connect call.destination) client.context call.polls
      { reply := (ended.1.map Reply.text).getD noResponse, received := ended.1
        client := { thisClient := some ended.2.makeSocket.1, context := ended.2.makeSocket.2 } } := by
  simp only [RequestCall.answer, request, ready.holds, concurrentRequest, initializeClient]

theorem RequestClient.Ready.matched (ready : client.Ready socket) (call : RequestCall) :
    call.Matched client := by
  have connected : (socket.connect call.destination).endpoints = [call.destination] := by
    rw [ReqSocket.connect, ready.unconnected]
    rfl
  have spec := @outerLoop_spec call.destination call.message (socket.connect call.destination) _
    call.polls ready.ordered ready.younger ready.made connected ready.inbox
  have answer := ready.answer call
  dsimp only at answer
  generalize outerLoop call.destination call.message requestRetries (socket.connect call.destination)
    client.context call.polls = ended at spec answer
  obtain ⟨received, after⟩ := ended
  obtain ⟨made, adds, positive, bound, matched⟩ := spec
  have applied : call.apply client =
      { thisClient := some after.makeSocket.1, context := after.makeSocket.2 } :=
    congrArg Answer.client answer
  have sent : (call.apply client).context.sent = client.context.sent ++ made := by
    rw [applied]
    exact adds.sent
  refine ⟨⟨made, sent, positive, bound, adds.own⟩, ?_, ?_, ?_, ?_, ?_⟩
  · rw [applied]
    exact adds.ordered.increasing.imp Nat.ne_of_lt
  · intro reply found
    rw [answer] at found ⊢
    obtain rfl : received = some reply := found
    obtain ⟨turn, within, own⟩ := matched
    refine ⟨rfl, own.mem_flatten, ?_, ?_⟩
    · rw [own.2]
      exact Nat.le_add_right _ _
    · rw [sent, List.length_append, own.2]
      omega
  · rw [answer]
    cases received with
    | none =>
        refine ⟨fun _ turn within reply arrived own => matched turn within reply ⟨arrived, own⟩,
          fun _ => rfl⟩
    | some reply =>
        obtain ⟨turn, within, own⟩ := matched
        refine ⟨nofun, ?_⟩
        intro silent
        exact absurd own.2 (silent turn (by omega) reply own.1)
  · intro silent
    rw [answer] at silent ⊢
    obtain rfl : received = none := silent
    rfl
  · rw [applied]
    exact ⟨_, rfl, rfl, rfl, adds.ordered.below, Nat.lt_succ_self _, adds.ordered.makeSocket⟩

theorem run_ready (calls : List RequestCall) :
    ∃ socket, (Run.final RequestCall.apply (initializeClient RequestClient.create).2 calls).Ready
      socket :=
  Run.final_invariant (fun client : RequestClient => ∃ socket, client.Ready socket)
    (fun call _ _ ready => (ready.choose_spec.matched call).ready) ⟨_, initialized_ready⟩

end Calls

/-- In every run of calls each call is matched with its own replies only. -/
theorem requests_matched (before : List RequestCall) (call : RequestCall) :
    call.Matched
      (Run.final RequestCall.apply (initializeClient RequestClient.create).2 before) := by
  obtain ⟨socket, ready⟩ := run_ready before
  exact ready.matched call

end Sentinet.Network
