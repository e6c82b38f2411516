import Mathlib.Data.List.Nodup
import Mathlib.Data.List.Perm.Basic
import Mathlib.Logic.Function.Basic
import Sentinet.Network.ServerProxy

namespace Sentinet.Network

open Sentinet.Data

/-! Requests from any number of requester threads through `ZMQServerProxy` to any number
of server threads, whose callbacks share a state of type `σ`, and back. -/

variable {κ ι σ : Type}

/-- The router socket's name for a connection; the empty frame is the delimiter. -/
abbrev ConnectionName := { name : Frame // name ≠ [] }

/-- What `get_data` returned, and the connection it went over. -/
structure Asked (κ : Type) where
  client : κ
  connection : ConnectionName
  request : Frame

/-- One run of a server's callback, for the request that the dealer sent in that place;
the server's socket keeps the envelope for the reply. -/
structure Executed (ι : Type) where
  position : Nat
  server : ι
  envelope : List Frame
  request : Frame
  reply : Frame
deriving DecidableEq

/-- `waiting` between `s_send` and the callback, with the number of the request; `given`
what the callback got, with the request before it. -/
structure Requester where
  waiting : Option (Nat × Frame)
  inbox : List Frame
  given : List (Frame × Frame)

/-- Of the messages that left the proxy, the servers have got the first `dispatched` and
the requesters the first `routed`; the queues of the servers name them by their place.
The replies in `returning` are on their way to the dealer, those in `returned` have
reached it. -/
structure ProxiedRequests (κ ι σ : Type) where
  requesters : κ → Requester
  proxy : ServerProxy
  dispatched : Nat
  servers : ι → List Nat
  state : σ
  returning : List (Executed ι × Multipart)
  routed : Nat
  asked : List (Asked κ)
  executed : List (Executed ι)
  returned : List (Executed ι)

inductive RequestEvent (κ ι : Type) where
  | ask (client : κ) (connection : ConnectionName) (request : Frame)
  | spin
  | dispatch (server : ι)
  | serve (server : ι)
  | deliver (index : Nat)
  | route
  | receive (client : κ)

/-- A request as the router receives it. -/
def requestMessage (asked : Asked κ) : Multipart :=
  { first := asked.connection.val, rest := [[], asked.request] }

/-- A reply as a `ZMQ_REP` socket sends it. -/
def replyMessage (executed : Executed ι) : Multipart :=
  Multipart.close (executed.envelope ++ [[]]) executed.reply

/-- What a `ZMQ_REP` socket keeps of a message, and what it gives out. -/
def openEnvelope (message : Multipart) : Option (List Frame × Frame) :=
  let frames := message.first :: message.rest
  match frames.dropWhile (fun frame => !frame.isEmpty) with
  | _ :: body :: _ => some (frames.takeWhile fun frame => !frame.isEmpty, body)
  | _ => none

namespace ProxiedRequests

def start (initial : σ) : ProxiedRequests κ ι σ :=
  { requesters := fun _ => { waiting := none, inbox := [], given := [] }
    proxy := .start, dispatched := 0, servers := fun _ => [], state := initial, returning := []
    routed := 0, asked := [], executed := [], returned := [] }

variable [DecidableEq κ] [DecidableEq ι] (callback : ι → Frame → σ → Frame × σ)
  (system : ProxiedRequests κ ι σ)

/-- The request with that number, if its requester still waits over its connection. -/
def connected (place : Nat) : Option (Asked κ) :=
  (system.asked[place]?).filter fun asked =>
    (system.requesters asked.client).waiting.map Prod.fst = some place

/-- The open connection that the router knows by that name. -/
def routing (name : Frame) : Option Nat :=
  (List.range system.asked.length).find? fun place =>
    (system.connected place).map (fun asked => asked.connection.val) = some name

/-- A requester connects and sends; no two open connections have one name. -/
def ask (client : κ) (connection : ConnectionName) (request : Frame) : ProxiedRequests κ ι σ :=
  match (system.requesters client).waiting, system.routing connection.val with
  | none, none =>
      let asked := { client, connection, request }
      let waiting := some (system.asked.length, request)
      { system with
        requesters := Function.update system.requesters client
          { system.requesters client with waiting, inbox := [] }
        proxy := system.proxy.step (.arriveFrontend (requestMessage asked))
        asked := system.asked ++ [asked] }
  | _, _ => system

/-- The dealer sends its next message to one of the servers. -/
def dispatch (server : ι) : ProxiedRequests κ ι σ :=
  if system.dispatched < system.proxy.backendSock.sent.length then
    { system with
      servers := Function.update system.servers server
        (system.servers server ++ [system.dispatched])
      dispatched := system.dispatched + 1 }
  else system

/-- A server's turn with a request, under `mutex_lock`. -/
def serve (server : ι) : ProxiedRequests κ ι σ :=
  match system.servers server with
  | [] => system
  | position :: queue =>
      let system := { system with servers := Function.update system.servers server queue }
      match (system.proxy.backendSock.sent[position]?).bind openEnvelope with
      | none => system
      | some (envelope, request) =>
          let (reply, state) := callback server request system.state
          let entry := { position, server, envelope, request, reply }
          { system with
            state
            returning := system.returning ++ [(entry, replyMessage entry)]
            executed := system.executed ++ [entry] }

/-- Replies of different servers reach the dealer in any order. -/
def deliver (index : Nat) : ProxiedRequests κ ι σ :=
  match system.returning[index]? with
  | none => system
  | some (entry, message) =>
      { system with
        returning := system.returning.eraseIdx index
        proxy := system.proxy.step (.arriveBackend message)
        returned := system.returned ++ [entry] }

/-- The router sends its next message to the connection of its first frame; a reply for a
connection that is closed is lost. -/
def route : ProxiedRequests κ ι σ :=
  match system.proxy.frontendSock.sent[system.routed]? with
  | none => system
  | some message =>
      let system := { system with routed := system.routed + 1 }
      match (system.routing message.first).bind system.connected, message.rest with
      | some asked, [[], reply] =>
          let requester := system.requesters asked.client
          { system with
            requesters := Function.update system.requesters asked.client
              { requester with inbox := requester.inbox ++ [reply] } }
      | _, _ => system

/-- `s_recv`, the callback and `disconnect`. -/
def receive (client : κ) : ProxiedRequests κ ι σ :=
  match (system.requesters client).waiting, (system.requesters client).inbox with
  | some (_, request), reply :: _ =>
      let given := (system.requesters client).given ++ [(request, reply)]
      { system with
        requesters :=
          Function.update system.requesters client { waiting := none, inbox := [], given } }
  | _, _ => system

def step (system : ProxiedRequests κ ι σ) : RequestEvent κ ι → ProxiedRequests κ ι σ
  | .ask client connection request => system.ask client connection request
  | .spin => { system with proxy := system.proxy.step .turn }
  | .dispatch server => system.dispatch server
  | .serve server => system.serve callback server
  | .deliver index => system.deliver index
  | .route => system.route
  | .receive client => system.receive client

end ProxiedRequests

/-- What a client asked for, in order. -/
def askedBy [DecidableEq κ] (client : κ) (asked : List (Asked κ)) : List Frame :=
  (asked.filter fun entry => entry.client = client).map Asked.request

/-- What was executed for a client: its requests with their replies. -/
def executedFor [DecidableEq κ] (client : κ) (asked : List (Asked κ))
    (executed : List (Executed ι)) : List (Frame × Frame) :=
  (executed.filter fun entry => (asked[entry.position]?).map Asked.client = some client).map
    fun entry => (entry.request, entry.reply)

def positions (executed : List (Executed ι)) : List Nat := executed.map Executed.position

/-- Where a client stands: between two requests, with one that nobody executed yet, or
with one whose reply it has not taken. -/
inductive Standing [DecidableEq κ] [DecidableEq ι] (asked : List (Asked κ))
    (executed handed : List (Executed ι)) (client : κ) (requester : Requester) : Prop where
  | idle (waiting : requester.waiting = none)
      (asks : askedBy client asked = requester.given.map Prod.fst)
      (runs : executedFor client asked executed = requester.given)
      (done : ∀ (place : Nat) (entry : Asked κ), asked[place]? = some entry →
        entry.client = client → place ∈ positions executed)
  | open (number : Nat) (connection : ConnectionName) (request : Frame)
      (waiting : requester.waiting = some (number, request))
      (inbox : requester.inbox = [])
      (own : asked[number]? = some { client, connection, request })
      (asks : askedBy client asked = requester.given.map Prod.fst ++ [request])
      (runs : executedFor client asked executed = requester.given)
      (fresh : number ∉ positions executed)
      (done : ∀ (place : Nat) (entry : Asked κ), asked[place]? = some entry →
        entry.client = client → place = number ∨ place ∈ positions executed)
  | replied (entry : Executed ι) (connection : ConnectionName)
      (waiting : requester.waiting = some (entry.position, entry.request))
      (inbox : requester.inbox = if entry ∈ handed then [entry.reply] else [])
      (own : asked[entry.position]? = some { client, connection, request := entry.request })
      (ran : entry ∈ executed)
      (asks : askedBy client asked = requester.given.map Prod.fst ++ [entry.request])
      (runs : executedFor client asked executed = requester.given ++ [(entry.request, entry.reply)])
      (done : ∀ (place : Nat) (entry : Asked κ), asked[place]? = some entry →
        entry.client = client → place ∈ positions executed)

/-- What a client was given are the replies to its requests in the order it asked them,
but for the one it waits for. -/
def AnsweredInOrder [DecidableEq κ] (asked : List (Asked κ)) (executed : List (Executed ι))
    (client : κ) (requester : Requester) : Prop :=
  ∃ owed unexecuted, executedFor client asked executed = requester.given ++ owed ∧
    askedBy client asked = (executedFor client asked executed).map Prod.fst ++ unexecuted ∧
    owed.length + unexecuted.length = if requester.waiting.isSome then 1 else 0

/-- Every execution is of a request that was asked, at most once. -/
structure Genuine (asked : List (Asked κ)) (dispatched : Nat) (executed : List (Executed ι)) :
    Prop where
  asked : ∀ entry ∈ executed, ∃ request, asked[entry.position]? = some request ∧
    entry.envelope = [request.connection.val] ∧ entry.request = request.request
  dispatched : ∀ entry ∈ executed, entry.position < dispatched
  once : (positions executed).Nodup

/-- A request waits with one server until that server executes it. -/
structure Queued (servers : ι → List Nat) (dispatched : Nat) (executed : List (Executed ι)) :
    Prop where
  held : ∀ place < dispatched, place ∈ positions executed ∨ ∃ server, place ∈ servers server
  known : ∀ server, ∀ place ∈ servers server, place < dispatched ∧ place ∉ positions executed
  once : ∀ server, (servers server).Nodup
  apart : ∀ (first second : ι) (place : Nat), place ∈ servers first → place ∈ servers second →
    first = second

/-- The callbacks ran one after the other on one state. -/
def RanInTurn (callback : ι → Frame → σ → Frame × σ) (initial : σ) (executed : List (Executed ι))
    (state : σ) : Prop :=
  Run.outputs (fun state (entry : Executed ι) => callback entry.server entry.request state) initial
      executed = executed.map Executed.reply ∧
    Run.final (fun state (entry : Executed ι) => (callback entry.server entry.request state).2)
      initial executed = state

/-- No two connections that are open have one name. -/
def ProxiedRequests.Apart (system : ProxiedRequests κ ι σ) : Prop :=
  ∀ (first second : Nat) (left right : Asked κ), system.connected first = some left →
    system.connected second = some right → left.connection = right.connection → first = second

/-- Over a connection whose request is executed its requester waits until the router hands
the reply over. -/
structure ProxiedRequests.Sound [DecidableEq κ] [DecidableEq ι]
    (callback : ι → Frame → σ → Frame × σ) (initial : σ) (system : ProxiedRequests κ ι σ) :
    Prop where
  proxy : ServerProxy.Steady (system.asked.map requestMessage) (system.returned.map replyMessage)
    system.proxy
  apart : system.Apart
  awaited : ∀ entry ∈ system.executed, entry ∉ system.returned.take system.routed →
    (system.connected entry.position).isSome
  dispatched : system.dispatched ≤ system.proxy.backendSock.sent.length
  routed : system.routed ≤ system.returned.length
  genuine : Genuine system.asked system.dispatched system.executed
  queued : Queued system.servers system.dispatched system.executed
  ran : RanInTurn callback initial system.executed system.state
  replies : ∀ entry ∈ system.returning, entry.2 = replyMessage entry.1
  returned : (system.returned ++ system.returning.map Prod.fst).Perm system.executed
  standing : ∀ client, Standing system.asked system.executed (system.returned.take system.routed)
    client (system.requesters client)

section Histories

variable {asked : List (Asked κ)} {executed handed : List (Executed ι)} {client other : κ}
  {requester : Requester} {request : Frame} {connection : ConnectionName} {entry : Executed ι}
  {dispatched : Nat}

@[simp] theorem positions_append :
    positions (executed ++ [entry]) = positions executed ++ [entry.position] := by
  simp [positions]

theorem position_mem (member : entry ∈ executed) : entry.position ∈ positions executed :=
  List.mem_map_of_mem member

/-- One request is executed once. -/
theorem Genuine.same (genuine : Genuine asked dispatched executed) {left right : Executed ι}
    (ran : left ∈ executed) (again : right ∈ executed) (same : left.position = right.position) :
    left = right :=
  List.inj_on_of_nodup_map genuine.once ran again same

/-- A callback for a request that was dispatched and not yet executed. -/
theorem Genuine.append (genuine : Genuine asked dispatched executed) {found : Asked κ}
    (listed : asked[entry.position]? = some found)
    (envelope : entry.envelope = [found.connection.val]) (request : entry.request = found.request)
    (known : entry.position < dispatched) (fresh : entry.position ∉ positions executed) :
    Genuine asked dispatched (executed ++ [entry]) := by
  refine ⟨fun other member => ?_, fun other member => ?_, ?_⟩
  · rcases List.mem_append.mp member with before | last
    · exact genuine.asked other before
    · rw [List.mem_singleton.mp last]
      exact ⟨found, listed, envelope, request⟩
  · rcases List.mem_append.mp member with before | last
    · exact genuine.dispatched other before
    · rw [List.mem_singleton.mp last]
      exact known
  · rw [positions_append, List.nodup_append]
    refine ⟨genuine.once, List.nodup_singleton _, fun place before last final same => ?_⟩
    rw [same, List.mem_singleton.mp final] at before
    exact fresh before

/-- A place below the end holds what it held before. -/
theorem asked_append {more found : Asked κ} {place : Nat}
    (listed : (asked ++ [more])[place]? = some found) :
    asked[place]? = some found ∨ place = asked.length ∧ found = more := by
  rcases Nat.lt_trichotomy place asked.length with inside | rfl | outside
  · exact Or.inl ((List.getElem?_append_left inside).symm.trans listed)
  · rw [List.getElem?_append_right (Nat.le_refl _), Nat.sub_self] at listed
    cases listed
    exact Or.inr ⟨rfl, rfl⟩
  · rw [List.getElem?_eq_none (by simp; omega)] at listed
    cases listed

theorem asked_append_left {more found : Asked κ} {place : Nat}
    (listed : asked[place]? = some found) :
    (asked ++ [more])[place]? = some found := by
  rw [List.getElem?_append_left (List.getElem?_eq_some_iff.mp listed).1, listed]

variable [DecidableEq κ]

theorem askedBy_append_self :
    askedBy client (asked ++ [{ client := client, connection, request }]) =
      askedBy client asked ++ [request] := by
  simp [askedBy]

theorem askedBy_append_other (different : client ≠ other) :
    askedBy client (asked ++ [{ client := other, connection, request }]) =
      askedBy client asked := by
  simp [askedBy, Ne.symm different]

/-- New requests do not change whose the executed ones were. -/
theorem executedFor_asked {more : Asked κ} (genuine : Genuine asked dispatched executed) :
    executedFor client (asked ++ [more]) executed = executedFor client asked executed := by
  unfold executedFor
  congr 1
  refine List.filter_congr fun entry member => ?_
  obtain ⟨found, listed, _⟩ := genuine.asked entry member
  rw [listed, asked_append_left listed]

theorem executedFor_append_self
    (found : asked[entry.position]? = some { client, connection, request }) :
    executedFor client asked (executed ++ [entry]) =
      executedFor client asked executed ++ [(entry.request, entry.reply)] := by
  simp [executedFor, List.filter_append, found]

theorem executedFor_append_other (different : client ≠ other)
    (found : asked[entry.position]? = some { client := other, connection, request }) :
    executedFor client asked (executed ++ [entry]) = executedFor client asked executed := by
  simp [executedFor, List.filter_append, found, Ne.symm different]

variable [DecidableEq ι]

theorem Standing.asked_self (standing : Standing asked executed handed client requester)
    (waiting : requester.waiting = none) (genuine : Genuine asked dispatched executed)
    (bound : dispatched ≤ asked.length) (connection : ConnectionName) (request : Frame) :
    Standing (asked ++ [{ client := client, connection, request }]) executed handed client
      { requester with waiting := some (asked.length, request), inbox := [] } := by
  cases standing with
  | idle _ asks runs done =>
      refine .open asked.length connection request rfl rfl ?_ ?_ ?_ ?_ ?_
      · rw [List.getElem?_append_right (Nat.le_refl _), Nat.sub_self]
        rfl
      · rw [askedBy_append_self, asks]
      · rw [executedFor_asked genuine, runs]
      · intro member
        obtain ⟨entry, listed, same⟩ := List.mem_map.mp member
        have below := genuine.dispatched entry listed
        omega
      · intro place entry found own
        rcases asked_append found with before | ⟨new, _⟩
        · exact Or.inr (done place entry before own)
        · exact Or.inl new
  | «open» _ _ _ busy => cases waiting.symm.trans busy
  | replied _ _ busy => cases waiting.symm.trans busy

theorem Standing.asked_other (standing : Standing asked executed handed client requester)
    (different : client ≠ other) (genuine : Genuine asked dispatched executed)
    (connection : ConnectionName) (request : Frame) :
    Standing (asked ++ [{ client := other, connection, request }]) executed handed client
      requester := by
  have before {place : Nat} {entry : Asked κ}
      (found : (asked ++ [{ client := other, connection, request }])[place]? = some entry)
      (own : entry.client = client) : asked[place]? = some entry := by
    rcases asked_append found with before | ⟨_, rfl⟩
    · exact before
    · exact absurd own.symm different
  cases standing with
  | idle waiting asks runs done =>
      refine .idle waiting ?_ ?_ fun place entry found own =>
        done place entry (before found own) own
      · rw [askedBy_append_other different, asks]
      · rw [executedFor_asked genuine, runs]
  | «open» number name mine waiting inbox own asks runs fresh done =>
      refine .open number name mine waiting inbox (asked_append_left own) ?_ ?_ fresh
        fun place entry found own => done place entry (before found own) own
      · rw [askedBy_append_other different, asks]
      · rw [executedFor_asked genuine, runs]
  | replied mine name waiting inbox own ran asks runs done =>
      refine .replied mine name waiting inbox (asked_append_left own) ran ?_ ?_
        fun place entry found own => done place entry (before found own) own
      · rw [askedBy_append_other different, asks]
      · rw [executedFor_asked genuine, runs]

/-- Executing a request answers the client that waits for it. -/
theorem Standing.executed_self (standing : Standing asked executed handed client requester)
    (found : asked[entry.position]? = some { client, connection, request := entry.request })
    (fresh : entry.position ∉ positions executed) (bound : entry ∉ handed) :
    Standing asked (executed ++ [entry]) handed client requester := by
  cases standing with
  | idle _ _ _ done => exact absurd (done _ _ found rfl) fresh
  | replied _ _ _ _ _ _ _ _ done => exact absurd (done _ _ found rfl) fresh
  | «open» number name mine waiting inbox own asks runs _ done =>
      obtain rfl := (done _ _ found rfl).resolve_right fresh
      obtain rfl : mine = entry.request := by
        rw [own] at found
        cases found
        rfl
      refine .replied entry name waiting ?_ own (by simp) asks ?_ ?_
      · rw [inbox, if_neg bound]
      · rw [executedFor_append_self found, runs]
      · intro place other listed own
        rw [positions_append, List.mem_append, List.mem_singleton]
        exact (done place other listed own).symm

theorem Standing.executed_other (standing : Standing asked executed handed client requester)
    (different : client ≠ other)
    (found : asked[entry.position]? = some { client := other, connection, request }) :
    Standing asked (executed ++ [entry]) handed client requester := by
  have same : executedFor client asked (executed ++ [entry]) = _ :=
    executedFor_append_other different found
  have later {place : Nat} (before : place ∈ positions executed) :
      place ∈ positions (executed ++ [entry]) := by
    rw [positions_append]
    exact List.mem_append_left _ before
  cases standing with
  | idle waiting asks runs done =>
      exact .idle waiting asks (same.trans runs) fun place entry listed own =>
        later (done place entry listed own)
  | «open» number name mine waiting inbox own asks runs fresh done =>
      refine .open number name mine waiting inbox own asks (same.trans runs) ?_
        fun place entry listed own => (done place entry listed own).imp_right later
      rw [positions_append, List.mem_append, List.mem_singleton, not_or]
      refine ⟨fresh, fun clash => ?_⟩
      rw [← clash, own] at found
      exact different (congrArg Asked.client (Option.some.inj found))
  | replied mine name waiting inbox own ran asks runs done =>
      exact .replied mine name waiting inbox own (List.mem_append_left _ ran) asks (same.trans runs)
        fun place entry listed own => later (done place entry listed own)

/-- The router hands over the reply of the execution that the client waits for. -/
theorem Standing.routed_self (standing : Standing asked executed handed client requester)
    (waits : requester.waiting.map Prod.fst = some entry.position)
    (genuine : Genuine asked dispatched executed) (member : entry ∈ executed)
    (fresh : entry ∉ handed) :
    Standing asked executed (handed ++ [entry]) client
      { requester with inbox := requester.inbox ++ [entry.reply] } := by
  cases standing with
  | idle waiting => simp [waiting] at waits
  | «open» number _ _ waiting _ _ _ _ unexecuted _ =>
      rw [waiting] at waits
      obtain rfl : number = entry.position := Option.some.inj waits
      exact absurd (position_mem member) unexecuted
  | replied mine name waiting inbox own ran asks runs done =>
      rw [waiting] at waits
      obtain rfl : mine = entry := genuine.same ran member (Option.some.inj waits)
      refine .replied mine name waiting ?_ own ran asks runs done
      simp [inbox, fresh]

theorem Standing.routed_other (standing : Standing asked executed handed client requester)
    (different : client ≠ other)
    (found : asked[entry.position]? = some { client := other, connection, request }) :
    Standing asked executed (handed ++ [entry]) client requester := by
  cases standing with
  | idle waiting asks runs done => exact .idle waiting asks runs done
  | «open» number name mine waiting inbox own asks runs fresh done =>
      exact .open number name mine waiting inbox own asks runs fresh done
  | replied mine name waiting inbox own ran asks runs done =>
      refine .replied mine name waiting ?_ own ran asks runs done
      have apart : mine ≠ entry := by
        rintro rfl
        rw [own] at found
        exact different (congrArg Asked.client (Option.some.inj found))
      simp [inbox, apart]

theorem Standing.received {number : Nat} {reply : Frame} {later : List Frame}
    (standing : Standing asked executed handed client requester)
    (waiting : requester.waiting = some (number, request))
    (inbox : requester.inbox = reply :: later) :
    Standing asked executed handed client
      { waiting := none, inbox := [], given := requester.given ++ [(request, reply)] } := by
  cases standing with
  | idle idle => cases idle.symm.trans waiting
  | «open» _ _ _ _ empty => cases empty.symm.trans inbox
  | replied mine _ busy arrived own ran asks runs done =>
      obtain ⟨rfl, rfl⟩ := Prod.mk.inj (Option.some.inj (busy.symm.trans waiting))
      rw [inbox] at arrived
      split at arrived
      · cases arrived
        exact .idle rfl (by rw [asks, List.map_append]; rfl) runs done
      · cases arrived

/-- A request that nobody executed is one that its client waits for. -/
theorem Standing.waits_unexecuted (standing : Standing asked executed handed client requester)
    {place : Nat} {found : Asked κ} (listed : asked[place]? = some found)
    (own : found.client = client) (fresh : place ∉ positions executed) :
    requester.waiting.map Prod.fst = some place := by
  cases standing with
  | idle _ _ _ done => exact absurd (done place found listed own) fresh
  | «open» number _ _ waiting _ _ _ _ _ done =>
      rw [waiting, (done place found listed own).resolve_right fresh]
      rfl
  | replied _ _ _ _ _ _ _ _ done => exact absurd (done place found listed own) fresh

/-- What a client finds in its inbox is the reply that it waits for. -/
theorem Standing.handed_of_inbox (standing : Standing asked executed handed client requester)
    (waits : requester.waiting.map Prod.fst = some entry.position)
    (genuine : Genuine asked dispatched executed) (member : entry ∈ executed)
    (arrived : requester.inbox ≠ []) : entry ∈ handed := by
  cases standing with
  | idle waiting => simp [waiting] at waits
  | «open» _ _ _ _ empty => exact absurd empty arrived
  | replied mine _ waiting inbox _ ran =>
      rw [waiting] at waits
      obtain rfl : mine = entry := genuine.same ran member (Option.some.inj waits)
      by_contra absent
      exact arrived (inbox.trans (if_neg absent))

theorem Standing.answered (standing : Standing asked executed handed client requester) :
    AnsweredInOrder asked executed client requester := by
  cases standing with
  | idle waiting asks runs _ =>
      exact ⟨[], [], by rw [runs, List.append_nil], by rw [asks, runs, List.append_nil],
        by rw [waiting]; rfl⟩
  | «open» _ _ request waiting _ _ asks runs _ _ =>
      exact ⟨[], [request], by rw [runs, List.append_nil], by rw [asks, runs],
        by rw [waiting]; rfl⟩
  | replied entry _ waiting _ _ _ asks runs _ =>
      refine ⟨[(entry.request, entry.reply)], [], runs, ?_, by rw [waiting]; rfl⟩
      rw [asks, runs, List.map_append, List.append_nil]
      rfl

end Histories

section Queues

variable [DecidableEq ι] {servers : ι → List Nat} {dispatched : Nat} {executed : List (Executed ι)}
  {server other : ι} {queue : List Nat} {place : Nat}

theorem mem_update : place ∈ Function.update servers server queue other ↔
    other = server ∧ place ∈ queue ∨ other ≠ server ∧ place ∈ servers other := by
  by_cases same : other = server
  · subst same
    simp
  · simp [same]

theorem Queued.dispatch (queued : Queued servers dispatched executed)
    (bound : ∀ entry ∈ executed, entry.position < dispatched) (server : ι) :
    Queued (Function.update servers server (servers server ++ [dispatched])) (dispatched + 1)
      executed := by
  have unseen (other : ι) : dispatched ∉ servers other := fun member =>
    Nat.lt_irrefl dispatched (queued.known other dispatched member).1
  have listed {other : ι} {place : Nat}
      (member : place ∈ Function.update servers server (servers server ++ [dispatched]) other) :
      place ∈ servers other ∨ other = server ∧ place = dispatched := by
    rcases mem_update.mp member with ⟨rfl, here⟩ | ⟨_, before⟩
    · exact (List.mem_append.mp here).imp_right fun last => ⟨rfl, List.mem_singleton.mp last⟩
    · exact Or.inl before
  refine ⟨fun place below => ?_, fun other place member => ?_, ?_,
    fun first second place left right => ?_⟩
  · by_cases last : place = dispatched
    · exact Or.inr ⟨server, mem_update.mpr (Or.inl ⟨rfl, by simp [last]⟩)⟩
    · refine (queued.held place (by omega)).imp_right fun ⟨other, member⟩ => ⟨other, ?_⟩
      by_cases same : other = server
      · subst same
        exact mem_update.mpr (Or.inl ⟨rfl, List.mem_append_left _ member⟩)
      · exact mem_update.mpr (Or.inr ⟨same, member⟩)
  · rcases listed member with before | ⟨_, rfl⟩
    · obtain ⟨below, waiting⟩ := queued.known other place before
      exact ⟨Nat.lt_succ_of_lt below, waiting⟩
    · refine ⟨Nat.lt_succ_self _, fun run => ?_⟩
      obtain ⟨entry, ran, same⟩ := List.mem_map.mp run
      exact Nat.lt_irrefl place (same ▸ bound entry ran)
  · refine (Function.forall_update_iff _ fun _ (queue : List Nat) => queue.Nodup).mpr
      ⟨?_, fun other _ => queued.once other⟩
    rw [List.nodup_append]
    refine ⟨queued.once server, List.nodup_singleton _, fun place before last final same => ?_⟩
    exact unseen server (List.mem_singleton.mp final ▸ same ▸ before)
  · rcases listed left with before | ⟨rfl, rfl⟩
    · rcases listed right with later | ⟨_, rfl⟩
      · exact queued.apart first second place before later
      · exact absurd before (unseen first)
    · rcases listed right with later | ⟨rfl, _⟩
      · exact absurd later (unseen second)
      · rfl

/-- The server that takes a request from its queue is the only one that has it. -/
theorem Queued.execute (queued : Queued servers dispatched executed) {entry : Executed ι}
    (front : servers server = entry.position :: queue) :
    Queued (Function.update servers server queue) dispatched (executed ++ [entry]) := by
  have once := queued.once server
  rw [front, List.nodup_cons] at once
  have mine : entry.position ∈ servers server := front ▸ List.mem_cons_self
  have listed {other : ι} {place : Nat}
      (member : place ∈ Function.update servers server queue other) :
      place ∈ servers other ∧ place ≠ entry.position := by
    rcases mem_update.mp member with ⟨rfl, later⟩ | ⟨different, before⟩
    · exact ⟨front ▸ List.mem_cons_of_mem _ later, fun same => once.1 (same ▸ later)⟩
    · exact ⟨before, fun same => different (queued.apart other server _ (same ▸ before) mine)⟩
  refine ⟨fun place below => ?_, fun other place member => ?_, ?_,
    fun first second place left right => queued.apart first second place (listed left).1
      (listed right).1⟩
  · rw [positions_append, List.mem_append, List.mem_singleton]
    rcases queued.held place below with before | ⟨other, member⟩
    · exact Or.inl (Or.inl before)
    · by_cases same : other = server
      · subst same
        rw [front, List.mem_cons] at member
        exact member.imp Or.inr fun later => ⟨other, mem_update.mpr (Or.inl ⟨rfl, later⟩)⟩
      · exact Or.inr ⟨other, mem_update.mpr (Or.inr ⟨same, member⟩)⟩
  · obtain ⟨before, different⟩ := listed member
    obtain ⟨below, waiting⟩ := queued.known other place before
    refine ⟨below, ?_⟩
    rw [positions_append, List.mem_append, List.mem_singleton, not_or]
    exact ⟨waiting, different⟩
  · exact (Function.forall_update_iff _ fun _ (queue : List Nat) => queue.Nodup).mpr
      ⟨once.2, fun other _ => queued.once other⟩

end Queues

theorem RanInTurn.append {callback : ι → Frame → σ → Frame × σ} {initial state : σ}
    {executed : List (Executed ι)} (ran : RanInTurn callback initial executed state)
    (position : Nat) (server : ι) (envelope : List Frame) (request : Frame) :
    RanInTurn callback initial
      (executed ++
        [{ position, server, envelope, request, reply := (callback server request state).1 }])
      (callback server request state).2 := by
  obtain ⟨replies, final⟩ := ran
  refine ⟨?_, ?_⟩
  · rw [Run.outputs_append, replies, final, List.map_append]
    rfl
  · rw [Run.final_append, final]
    rfl

@[simp] theorem openEnvelope_request (asked : Asked κ) :
    openEnvelope (requestMessage asked) = some ([asked.connection.val], asked.request) := by
  have named : asked.connection.val.isEmpty = false := by simpa using asked.connection.property
  simp [openEnvelope, requestMessage, named]

/-- What left the proxy in some place had arrived at its other side in that place. -/
theorem sent_arrived {arrived : List Multipart} {source target : ProxySocket} {place : Nat}
    {message : Multipart} (link : ServerProxy.Link arrived source target)
    (sent : target.sent[place]? = some message) : arrived[place]? = some message := by
  have inside : place < target.sent.length := (List.getElem?_eq_some_iff.mp sent).1
  rw [link.order, List.append_assoc, List.getElem?_append_left inside, sent]

/-- The proxy takes back nothing that it sent. -/
theorem forward_sent {source target received sent : ProxySocket} {more : Bool}
    (forwarded : forward source target = some (more, received, sent)) :
    received.sent = source.sent ∧ target.sent <+: sent.sent := by
  have kept {frame : Frame} {socket : ProxySocket} (read : source.recv = some (frame, socket)) :
      socket.sent = source.sent := by
    unfold ProxySocket.recv at read
    split at read
    · cases read
      rfl
    · cases read
      rfl
    · cases read
  have grown (frame : Frame) (flag : Bool) : target.sent <+: (target.send frame flag).sent := by
    cases flag with
    | true => exact List.prefix_refl _
    | false => exact List.prefix_append _ _
  cases read : source.recv with
  | none => simp [forward, read] at forwarded
  | some found =>
      obtain ⟨frame, socket⟩ := found
      simp only [forward, read, Option.bind_eq_bind, Option.bind_some, Option.pure_def,
        Option.some.injEq, Prod.mk.injEq] at forwarded
      obtain ⟨rfl, rfl, rfl⟩ := forwarded
      exact ⟨kept read, grown frame socket.rcvMore⟩

theorem turn_sent (proxy : ServerProxy) :
    proxy.backendSock.sent <+: proxy.turn.backendSock.sent := by
  obtain ⟨phase, frontendSock, backendSock⟩ := proxy
  cases phase with
  | poll =>
      simp only [ServerProxy.turn]
      split
      · exact List.prefix_refl _
      · split <;> exact List.prefix_refl _
  | frontend ready =>
      cases forwarded : forward frontendSock backendSock with
      | none => simp [ServerProxy.turn, forwarded]
      | some found => simpa [ServerProxy.turn, forwarded] using (forward_sent forwarded).2
  | backend =>
      cases forwarded : forward backendSock frontendSock with
      | none => simp [ServerProxy.turn, forwarded]
      | some found => simp [ServerProxy.turn, forwarded, (forward_sent forwarded).1]

namespace ProxiedRequests

section Connections

variable {system other : ProxiedRequests κ ι σ} {place : Nat} {asked : Asked κ} {name : Frame}

theorem connected_iff : system.connected place = some asked ↔
    system.asked[place]? = some asked ∧
      (system.requesters asked.client).waiting.map Prod.fst = some place := by
  simp [connected]

theorem connected_congr (same : other.asked = system.asked)
    (waiting : ∀ client, (other.requesters client).waiting = (system.requesters client).waiting) :
    other.connected = system.connected := by
  funext place
  simp only [connected, same, waiting]

theorem connected_of_routing (found : system.routing name = some place) :
    ∃ asked, system.connected place = some asked ∧ asked.connection.val = name := by
  have named := List.find?_some found
  simpa only [decide_eq_true_eq, Option.map_eq_some_iff] using named

theorem different_of_routing (unknown : system.routing name = none)
    (stands : system.connected place = some asked) : asked.connection.val ≠ name := by
  intro same
  have inside := (List.getElem?_eq_some_iff.mp (connected_iff.mp stands).1).1
  have unnamed := List.find?_eq_none.mp unknown place (List.mem_range.mpr inside)
  simp [stands, same] at unnamed

/-- The router finds an open connection by its name. -/
theorem Apart.routing (apart : Apart system) (stands : system.connected place = some asked) :
    system.routing asked.connection.val = some place := by
  cases found : system.routing asked.connection.val with
  | none => exact absurd rfl (different_of_routing found stands)
  | some other =>
      obtain ⟨again, also, same⟩ := connected_of_routing found
      rw [apart other place again asked also stands (Subtype.ext same)]

variable [DecidableEq κ] {client : κ} {connection : ConnectionName} {request : Frame}

theorem ask_opens (idle : (system.requesters client).waiting = none)
    (unknown : system.routing connection.val = none) :
    system.ask client connection request =
      { system with
        requesters := Function.update system.requesters client
          { system.requesters client with
            waiting := some (system.asked.length, request), inbox := [] }
        proxy := system.proxy.step
          (.arriveFrontend (requestMessage { client, connection, request }))
        asked := system.asked ++ [{ client, connection, request }] } := by
  simp only [ask, idle, unknown]

/-- A client that asks opens its connection and leaves the others as they are. -/
theorem connected_ask (idle : (system.requesters client).waiting = none)
    (unknown : system.routing connection.val = none) (number : Nat) :
    (system.ask client connection request).connected number =
      if number = system.asked.length then some { client, connection, request }
      else system.connected number := by
  rw [ask_opens idle unknown]
  unfold connected
  by_cases last : number = system.asked.length
  · simp [last]
  · rw [if_neg last]
    rcases Nat.lt_or_gt_of_ne last with inside | outside
    · rw [List.getElem?_append_left inside, List.getElem?_eq_getElem inside]
      by_cases same : system.asked[number].client = client
      · simp [Option.filter, same, idle, Ne.symm last]
      · simp only [Option.filter, Function.update_of_ne same]
    · rw [List.getElem?_eq_none (by simp; omega), List.getElem?_eq_none (Nat.le_of_lt outside)]
      rfl

theorem Apart.ask (apart : Apart system) (idle : (system.requesters client).waiting = none)
    (unknown : system.routing connection.val = none) :
    Apart (system.ask client connection request) := by
  intro first second left right opens also same
  rw [connected_ask idle unknown] at opens also
  split at opens <;> split at also
  case isTrue.isTrue one two => exact one.trans two.symm
  case isTrue.isFalse =>
    cases opens
    exact absurd (congrArg Subtype.val same.symm) (different_of_routing unknown also)
  case isFalse.isTrue =>
    cases also
    exact absurd (congrArg Subtype.val same) (different_of_routing unknown opens)
  case isFalse.isFalse => exact apart first second left right opens also same

/-- A reply goes to the connection that its first frame names, which stays open. -/
theorem route_hands {reply : Frame} (apart : Apart system)
    (sent : system.proxy.frontendSock.sent[system.routed]? =
      some { first := asked.connection.val, rest := [[], reply] })
    (stands : system.connected place = some asked) :
    system.route =
      { system with
        routed := system.routed + 1
        requesters := Function.update system.requesters asked.client
          { system.requesters asked.client with
            inbox := (system.requesters asked.client).inbox ++ [reply] } } := by
  have known (routed : Nat) :
      (routing { system with routed } asked.connection.val).bind
        (connected { system with routed }) = some asked := by
    have found : routing { system with routed } asked.connection.val = some place :=
      apart.routing stands
    rw [found]
    exact stands
  simp only [route, sent, known]

theorem connected_route {reply : Frame} (apart : Apart system)
    (sent : system.proxy.frontendSock.sent[system.routed]? =
      some { first := asked.connection.val, rest := [[], reply] })
    (stands : system.connected place = some asked) :
    system.route.connected = system.connected := by
  rw [route_hands apart sent stands]
  exact connected_congr rfl <| (Function.forall_update_iff system.requesters fun who requester =>
    requester.waiting = (system.requesters who).waiting).mpr ⟨rfl, fun _ _ => rfl⟩

theorem receive_takes {number : Nat} {reply : Frame} {later : List Frame}
    (busy : (system.requesters client).waiting = some (number, request))
    (inbox : (system.requesters client).inbox = reply :: later) :
    system.receive client =
      { system with
        requesters := Function.update system.requesters client
          { waiting := none, inbox := [],
            given := (system.requesters client).given ++ [(request, reply)] } } := by
  simp only [receive, busy, inbox]

/-- `disconnect` closes a client's connection and leaves the others open. -/
theorem connected_receive {number : Nat} {reply : Frame} {later : List Frame}
    (busy : (system.requesters client).waiting = some (number, request))
    (inbox : (system.requesters client).inbox = reply :: later) :
    (system.receive client).connected place = some asked ↔
      system.connected place = some asked ∧ asked.client ≠ client := by
  rw [receive_takes busy inbox, connected_iff, connected_iff]
  by_cases same : asked.client = client
  · simp [same]
  · simp [same]

end Connections

section Steps

variable [DecidableEq κ] [DecidableEq ι] {callback : ι → Frame → σ → Frame × σ} {initial : σ}
  {system : ProxiedRequests κ ι σ} {place : Nat}

theorem Sound.start : Sound callback initial (start initial : ProxiedRequests κ ι σ) := by
  refine ⟨ServerProxy.steady_start, ?_, ?_, Nat.le_refl 0, Nat.le_refl 0,
    ⟨?_, ?_, List.nodup_nil⟩, ⟨?_, ?_, fun _ => List.nodup_nil, ?_⟩, ⟨rfl, rfl⟩, ?_,
    List.Perm.refl _, fun client => ?_⟩
  · intro first second left right open_
    cases open_
  · intro entry member
    cases member
  · intro entry member
    cases member
  · intro entry member
    cases member
  · intro place below
    cases below
  · intro server place member
    cases member
  · intro first second place member
    cases member
  · intro entry member
    cases member
  · exact .idle rfl rfl rfl fun place entry listed => nomatch listed

theorem Sound.handed_executed (sound : Sound callback initial system) {entry : Executed ι}
    (member : entry ∈ system.returned.take system.routed) : entry ∈ system.executed :=
  sound.returned.subset (List.mem_append_left _ (List.mem_of_mem_take member))

/-- What the dealer sent in some place is the request of that number. -/
theorem Sound.request_sent (sound : Sound callback initial system) {message : Multipart}
    (sent : system.proxy.backendSock.sent[place]? = some message) :
    ∃ asked, system.asked[place]? = some asked ∧ message = requestMessage asked := by
  have arrived := sent_arrived sound.proxy.toBackend sent
  rw [List.getElem?_map, Option.map_eq_some_iff] at arrived
  obtain ⟨asked, listed, same⟩ := arrived
  exact ⟨asked, listed, same.symm⟩

/-- What the router sent in some place is the reply that came back in that place. -/
theorem Sound.reply_sent (sound : Sound callback initial system) {message : Multipart}
    (sent : system.proxy.frontendSock.sent[place]? = some message) :
    ∃ entry, system.returned[place]? = some entry ∧ message = replyMessage entry := by
  have arrived := sent_arrived sound.proxy.toFrontend sent
  rw [List.getElem?_map, Option.map_eq_some_iff] at arrived
  obtain ⟨entry, listed, same⟩ := arrived
  exact ⟨entry, listed, same.symm⟩

/-- The reply that the router hands over next is one that nobody was handed yet. -/
theorem Sound.handed_next (sound : Sound callback initial system) {entry : Executed ι}
    (back : system.returned[system.routed]? = some entry) :
    system.returned.take (system.routed + 1) = system.returned.take system.routed ++ [entry] ∧
      entry ∉ system.returned.take system.routed := by
  have handed : system.returned.take (system.routed + 1) =
      system.returned.take system.routed ++ [entry] := by
    rw [List.take_add_one, back]
    rfl
  have once : (system.returned ++ system.returning.map Prod.fst).Nodup :=
    sound.returned.nodup_iff.mpr (List.Nodup.of_map _ sound.genuine.once)
  have sent := (List.take_sublist (system.routed + 1) system.returned).nodup
    (List.nodup_append.mp once).1
  rw [handed, List.nodup_append] at sent
  exact ⟨handed, fun again => sent.2.2 entry again entry (List.mem_singleton_self entry) rfl⟩

/-- The reply that goes back for an execution names the connection of its request. -/
theorem Sound.reply_message (sound : Sound callback initial system) {entry : Executed ι}
    {asked : Asked κ} (ran : entry ∈ system.executed)
    (listed : system.asked[entry.position]? = some asked) :
    entry.request = asked.request ∧
      replyMessage entry = { first := asked.connection.val, rest := [[], entry.reply] } := by
  obtain ⟨found, again, envelope, request⟩ := sound.genuine.asked entry ran
  obtain rfl : found = asked := Option.some.inj (again.symm.trans listed)
  refine ⟨request, ?_⟩
  rw [replyMessage, envelope]
  rfl

theorem Sound.dispatched_asked (sound : Sound callback initial system) :
    system.dispatched ≤ system.asked.length := by
  have order := congrArg List.length sound.proxy.toBackend.order
  have bound := sound.dispatched
  simp only [List.length_map, List.length_append] at order
  omega

theorem Sound.ask (sound : Sound callback initial system) (client : κ)
    (connection : ConnectionName) (request : Frame) :
    Sound callback initial (system.ask client connection request) := by
  cases idle : (system.requesters client).waiting with
  | some _ => simpa only [ProxiedRequests.ask, idle] using sound
  | none =>
      cases unknown : system.routing connection.val with
      | some _ => simpa only [ProxiedRequests.ask, idle, unknown] using sound
      | none =>
          have apart : Apart (system.ask client connection request) := sound.apart.ask idle unknown
          have opened (number : Nat) :
              (system.ask client connection request).connected number =
                if number = system.asked.length then some { client, connection, request }
                else system.connected number := connected_ask idle unknown number
          rw [ask_opens idle unknown] at apart opened ⊢
          refine ⟨?_, apart, fun entry member late => ?_, sound.dispatched, sound.routed, ?_,
            sound.queued, sound.ran, sound.replies, sound.returned, ?_⟩
          · rw [List.map_append]
            exact ServerProxy.steady_arriveFrontend sound.proxy _
          · rw [opened]
            split
            · rfl
            · exact sound.awaited entry member late
          · refine ⟨fun entry member => ?_, sound.genuine.dispatched, sound.genuine.once⟩
            obtain ⟨asked, listed, same⟩ := sound.genuine.asked entry member
            exact ⟨asked, asked_append_left listed, same⟩
          · refine (Function.forall_update_iff _ fun who requester =>
              Standing _ _ _ who requester).mpr ⟨?_, fun other different => ?_⟩
            · exact (sound.standing client).asked_self idle sound.genuine sound.dispatched_asked
                connection request
            · exact (sound.standing other).asked_other different sound.genuine connection request

theorem Sound.spin (sound : Sound callback initial system) :
    Sound callback initial { system with proxy := system.proxy.step .turn } :=
  { sound with
    proxy := (ServerProxy.steady_turn sound.proxy).1
    dispatched := Nat.le_trans sound.dispatched (turn_sent system.proxy).length_le }

theorem Sound.dispatch (sound : Sound callback initial system) (server : ι) :
    Sound callback initial (system.dispatch server) := by
  unfold ProxiedRequests.dispatch
  split
  case isFalse => exact sound
  case isTrue waits =>
    exact
      { sound with
        dispatched := waits
        genuine := ⟨sound.genuine.asked,
          fun entry member => Nat.lt_succ_of_lt (sound.genuine.dispatched entry member),
          sound.genuine.once⟩
        queued := sound.queued.dispatch sound.genuine.dispatched server }

/-- A callback runs for a request that no server ran before, and answers it. -/
theorem Sound.execute (sound : Sound callback initial system) {server : ι}
    {position : Nat} {queue : List Nat} {asked : Asked κ}
    (front : system.servers server = position :: queue)
    (listed : system.asked[position]? = some asked) :
    let reply := (callback server asked.request system.state).1
    let entry :=
      { position, server, envelope := [asked.connection.val], request := asked.request, reply }
    Sound callback initial
      { system with
        servers := Function.update system.servers server queue
        state := (callback server asked.request system.state).2
        returning := system.returning ++ [(entry, replyMessage entry)]
        executed := system.executed ++ [entry] } := by
  intro reply entry
  have mine : position ∈ system.servers server := front ▸ List.mem_cons_self
  obtain ⟨known, fresh⟩ := sound.queued.known server position mine
  have unhanded : entry ∉ system.returned.take system.routed := fun member =>
    fresh (position_mem (sound.handed_executed member))
  have waits : (system.requesters asked.client).waiting.map Prod.fst = some position :=
    (sound.standing asked.client).waits_unexecuted listed rfl fresh
  refine ⟨sound.proxy, sound.apart, ?_, sound.dispatched, sound.routed,
    sound.genuine.append listed rfl rfl known fresh, sound.queued.execute front,
    sound.ran.append position server _ asked.request, ?_, ?_, fun client => ?_⟩
  · intro other member late
    rcases List.mem_append.mp member with before | last
    · exact sound.awaited other before late
    · rw [List.mem_singleton.mp last]
      exact Option.isSome_iff_exists.mpr ⟨asked, connected_iff.mpr ⟨listed, waits⟩⟩
  · intro other member
    rcases List.mem_append.mp member with before | last
    · exact sound.replies other before
    · rw [List.mem_singleton.mp last]
  · rw [List.map_append, ← List.append_assoc]
    exact sound.returned.append_right _
  · by_cases same : client = asked.client
    · subst same
      exact (sound.standing asked.client).executed_self listed fresh unhanded
    · exact (sound.standing client).executed_other same listed

theorem Sound.serve (sound : Sound callback initial system) (server : ι) :
    Sound callback initial (system.serve callback server) := by
  unfold ProxiedRequests.serve
  cases front : system.servers server with
  | nil => exact sound
  | cons position queue =>
      have mine : position ∈ system.servers server := front ▸ List.mem_cons_self
      have inside : position < system.proxy.backendSock.sent.length :=
        Nat.lt_of_lt_of_le (sound.queued.known server position mine).1 sound.dispatched
      dsimp only
      cases sent : system.proxy.backendSock.sent[position]? with
      | none => exact absurd inside (Nat.not_lt.mpr (List.getElem?_eq_none_iff.mp sent))
      | some message =>
          obtain ⟨asked, listed, rfl⟩ := sound.request_sent sent
          rw [Option.bind_some, openEnvelope_request]
          exact sound.execute front listed

theorem Sound.deliver (sound : Sound callback initial system) (index : Nat) :
    Sound callback initial (system.deliver index) := by
  unfold ProxiedRequests.deliver
  cases listed : system.returning[index]? with
  | none => exact sound
  | some reply =>
      obtain ⟨entry, message⟩ := reply
      obtain ⟨inside, found⟩ := List.getElem?_eq_some_iff.mp listed
      have member : (entry, message) ∈ system.returning := List.mem_of_getElem? listed
      obtain rfl : message = replyMessage entry := sound.replies _ member
      have taken : ((entry, replyMessage entry) :: system.returning.eraseIdx index).Perm
          system.returning := found ▸ List.getElem_cons_eraseIdx_perm inside
      refine ⟨?_, sound.apart, ?_, sound.dispatched, ?_, sound.genuine, sound.queued, sound.ran,
        ?_, ?_, ?_⟩
      · rw [List.map_append]
        exact ServerProxy.steady_arriveBackend sound.proxy (replyMessage entry)
      · rw [List.take_append_of_le_length sound.routed]
        exact sound.awaited
      · have bound := sound.routed
        simp only [List.length_append, List.length_singleton]
        omega
      · exact fun other later => sound.replies other (List.mem_of_mem_eraseIdx later)
      · rw [List.append_assoc]
        exact (((taken.map Prod.fst).append_left system.returned)).trans sound.returned
      · rw [List.take_append_of_le_length sound.routed]
        exact sound.standing

theorem Sound.route (sound : Sound callback initial system) :
    Sound callback initial system.route := by
  cases sent : system.proxy.frontendSock.sent[system.routed]? with
  | none => simpa only [ProxiedRequests.route, sent] using sound
  | some message =>
      obtain ⟨entry, back, rfl⟩ := sound.reply_sent sent
      have inside : system.routed < system.returned.length := (List.getElem?_eq_some_iff.mp back).1
      have ran : entry ∈ system.executed :=
        sound.returned.subset (List.mem_append_left _ (List.mem_of_getElem? back))
      obtain ⟨handed, fresh⟩ := sound.handed_next back
      obtain ⟨asked, stands⟩ := Option.isSome_iff_exists.mp (sound.awaited entry ran fresh)
      obtain ⟨listed, waits⟩ := connected_iff.mp stands
      obtain ⟨request, message⟩ := sound.reply_message ran listed
      have owner : system.asked[entry.position]? = some
          { client := asked.client, connection := asked.connection, request := entry.request } := by
        rw [listed, request]
      rw [message] at sent
      have connected := connected_route sound.apart sent stands
      rw [route_hands sound.apart sent stands] at connected ⊢
      refine ⟨sound.proxy, ?_, ?_, sound.dispatched, inside, sound.genuine, sound.queued, sound.ran,
        sound.replies, sound.returned, ?_⟩
      · unfold Apart
        rw [connected]
        exact sound.apart
      · rw [connected, handed]
        exact fun other member late =>
          sound.awaited other member fun before => late (List.mem_append_left _ before)
      · rw [handed]
        refine (Function.forall_update_iff _ fun who requester =>
          Standing _ _ _ who requester).mpr ⟨?_, fun other different => ?_⟩
        · exact (sound.standing asked.client).routed_self waits sound.genuine ran fresh
        · exact (sound.standing other).routed_other different owner

theorem Sound.receive (sound : Sound callback initial system) (client : κ) :
    Sound callback initial (system.receive client) := by
  cases waiting : (system.requesters client).waiting with
  | none => simpa only [ProxiedRequests.receive, waiting] using sound
  | some sent =>
      cases inbox : (system.requesters client).inbox with
      | nil => simpa only [ProxiedRequests.receive, waiting, inbox] using sound
      | cons reply later =>
          have connected (place : Nat) (asked : Asked κ) :
              (system.receive client).connected place = some asked ↔
                system.connected place = some asked ∧ asked.client ≠ client :=
            connected_receive waiting inbox
          rw [receive_takes waiting inbox] at connected ⊢
          refine { sound with apart := ?_, awaited := ?_, standing := ?_ }
          · intro first second left right one two
            exact sound.apart first second left right ((connected first left).mp one).1
              ((connected second right).mp two).1
          · intro entry member late
            obtain ⟨asked, stands⟩ := Option.isSome_iff_exists.mp (sound.awaited entry member late)
            -- A client whose reply is under way has none in its inbox.
            have apart : asked.client ≠ client := by
              rintro rfl
              have arrived : (system.requesters asked.client).inbox ≠ [] := by simp [inbox]
              exact late ((sound.standing asked.client).handed_of_inbox (connected_iff.mp stands).2
                sound.genuine member arrived)
            exact Option.isSome_iff_exists.mpr
              ⟨asked, (connected entry.position asked).mpr ⟨stands, apart⟩⟩
          · exact
              (Function.forall_update_iff _ fun who requester => Standing _ _ _ who requester).mpr
                ⟨(sound.standing client).received waiting inbox,
                  fun other _ => sound.standing other⟩

theorem Sound.step (sound : Sound callback initial system)
    (event : RequestEvent κ ι) :
    Sound callback initial (system.step callback event) := by
  cases event with
  | ask client connection request => exact sound.ask client connection request
  | spin => exact sound.spin
  | dispatch server => exact sound.dispatch server
  | serve server => exact sound.serve server
  | deliver index => exact sound.deliver index
  | route => exact sound.route
  | receive client => exact sound.receive client

end Steps

/-- Nothing is under way: no message, no reply and no request in a queue. -/
structure Quiet (system : ProxiedRequests κ ι σ) : Prop where
  frontend : system.proxy.frontendSock.pollin = false
  backend : system.proxy.backendSock.pollin = false
  dispatched : system.proxy.backendSock.sent.length ≤ system.dispatched
  servers : ∀ server, system.servers server = []
  returning : system.returning = []
  routed : system.proxy.frontendSock.sent.length ≤ system.routed
  inboxes : ∀ client, (system.requesters client).inbox = []

/-- The callbacks ran one after the other on one state, each for a request that a client
asked and none twice for the same. The clients were answered in order, and none waits
any more once nothing is under way. -/
structure InTurn [DecidableEq κ] (callback : ι → Frame → σ → Frame × σ) (initial : σ)
    (system : ProxiedRequests κ ι σ) : Prop where
  ran : RanInTurn callback initial system.executed system.state
  asked : ∀ entry ∈ system.executed,
    (system.asked[entry.position]?).map Asked.request = some entry.request
  once : (positions system.executed).Nodup
  answered : ∀ client,
    AnsweredInOrder system.asked system.executed client (system.requesters client)
  quiet : Quiet system → ∀ client, (system.requesters client).waiting = none

section Results

variable [DecidableEq κ] [DecidableEq ι] {callback : ι → Frame → σ → Frame × σ} {initial : σ}
  {system : ProxiedRequests κ ι σ}

theorem Sound.quiet (sound : Sound callback initial system) (quiet : Quiet system)
    (client : κ) : (system.requesters client).waiting = none := by
  have requests := sound.proxy.toBackend.delivered (ServerProxy.pending_of_idle quiet.frontend)
  have replies := sound.proxy.toFrontend.delivered (ServerProxy.pending_of_idle quiet.backend)
  cases sound.standing client with
  | idle waiting => exact waiting
  | «open» number _ request _ _ own _ _ fresh _ =>
      -- A request that nobody executed would wait with a server.
      have inside : number < system.asked.length := (List.getElem?_eq_some_iff.mp own).1
      have count := congrArg List.length requests
      rw [List.length_map] at count
      have below : number < system.dispatched := by
        have all := quiet.dispatched
        omega
      rcases sound.queued.held number below with executed | ⟨server, member⟩
      · exact absurd executed fresh
      · rw [quiet.servers server] at member
        cases member
  | replied entry _ _ inbox _ ran _ _ _ =>
      -- A reply that was not taken would wait with the client.
      have returned := sound.returned
      rw [quiet.returning, List.map_nil, List.append_nil] at returned
      have count := congrArg List.length replies
      rw [List.length_map] at count
      have all : system.returned.take system.routed = system.returned :=
        List.take_of_length_le (count ▸ quiet.routed)
      rw [all, if_pos (returned.symm.subset ran), quiet.inboxes client] at inbox
      cases inbox

theorem sound_run (events : List (RequestEvent κ ι)) :
    Sound callback initial
      (Run.final (step callback) (start initial : ProxiedRequests κ ι σ) events) :=
  Run.final_invariant (Sound callback initial) (fun event _ _ sound => sound.step event)
    Sound.start

end Results

end ProxiedRequests

/-- In every interleaving of the requesters, the proxy's spins, the servers and the
messages between them. -/
theorem requests_in_turn [DecidableEq κ] [DecidableEq ι]
    (callback : ι → Frame → σ → Frame × σ) (initial : σ) (events : List (RequestEvent κ ι)) :
    ProxiedRequests.InTurn callback initial
      (Run.final (ProxiedRequests.step callback) (.start initial) events) :=
  have sound := ProxiedRequests.sound_run events
  { ran := sound.ran
    asked := fun entry member => by
      obtain ⟨asked, listed, _, request⟩ := sound.genuine.asked entry member
      rw [listed, request]
      rfl
    once := sound.genuine.once
    answered := fun client => (sound.standing client).answered
    quiet := sound.quiet }

/-- Two requesters and two servers that count: the second request is answered first, and
the last one goes over a connection that has the name of the first. -/
theorem requests_in_turn_two :
    let callback (_ : Bool) (request : Frame) (count : UInt8) := (request ++ [count], count + 1)
    let spins : List (RequestEvent Bool Bool) := List.replicate 11 .spin
    let events :=
      [.ask false ⟨[1], by decide⟩ [7], .ask true ⟨[2], by decide⟩ [8]] ++ spins ++
        [.dispatch false, .dispatch true, .serve true, .serve false, .deliver 0, .deliver 0] ++
        spins ++ [.route, .route, .receive false, .receive true] ++
        [.ask true ⟨[1], by decide⟩ [9]] ++ spins ++ [.dispatch true, .serve true, .deliver 0] ++
        spins ++ [.route, .receive true]
    let system := Run.final (ProxiedRequests.step callback) (.start 0) events
    (system.requesters false).given = [([7], [7, 1])] ∧
      (system.requesters true).given = [([8], [8, 0]), ([9], [9, 2])] ∧
      ProxiedRequests.InTurn callback 0 system :=
  ⟨by decide +kernel, by decide +kernel, requests_in_turn _ 0 _⟩

end Sentinet.Network
