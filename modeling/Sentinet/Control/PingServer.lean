import Mathlib.Data.List.Induction
import Sentinet.Control.PingExchange
import Sentinet.Data.Run

namespace Sentinet.Control

open Sentinet.Data Sentinet.Messages

/-! The ping server over a history of registrations and requests: what a reply
is made of, and which messages it refuses. -/

/-- The ping that a message of full size carries. -/
def requestPing (message : List UInt8) : Ping :=
  if message.getD protoPosPing 0 = 1 then
    { type := if message.getD typePosPing 0 ≤ maxPingType then message.getD typePosPing 0 else 0
      code := UInt16.ofNat (LittleEndian.decode ((message.drop codePosPing).take 2))
      excess := UInt64.ofNat (LittleEndian.decode ((message.drop excessPosPing).take 8)) }
  else { type := 0, code := 0, excess := 0 }

/-- The `PING_MESSAGE_SIZE` bytes of a ping on the wire. -/
def pingImage (ping : Ping) : List UInt8 :=
  [protocolVersion, Messages.ping, ping.type] ++ LittleEndian.encode 2 ping.code.toNat ++
    LittleEndian.encode 2 0 ++ LittleEndian.encode 8 ping.excess.toNat

section Wire

variable {buffer destination : PingBuffer} {ping : Ping} {message : List UInt8} {behind : Memory}

theorem ofString_getD {position : Nat} (inside : position < message.length) :
    Memory.ofString message behind position = message.getD position 0 := by
  rw [Memory.ofString_inside inside, List.getD_eq_getElem?_getD, List.getElem?_eq_getElem inside,
    Option.getD_some]

theorem decodedPing_long (long : pingMessageSize ≤ message.length) :
    decodedPing destination message behind = requestPing message := by
  have size : pingMessageSize = 15 := rfl
  rw [size] at long
  have version : Memory.ofString message behind 0 = message.getD protoPosPing 0 :=
    ofString_getD (by omega)
  have type : Memory.ofString message behind 2 = message.getD typePosPing 0 :=
    ofString_getD (show 2 < message.length by omega)
  have code : (Memory.ofString message behind).load16 3 =
      UInt16.ofNat (LittleEndian.decode ((message.drop codePosPing).take 2)) := by
    rw [Memory.load16, Memory.load_ofString (by omega)]
    rfl
  have excess : (Memory.ofString message behind).load64 7 =
      UInt64.ofNat (LittleEndian.decode ((message.drop excessPosPing).take 8)) := by
    rw [Memory.load64, Memory.load_ofString (by omega)]
    rfl
  rw [requestPing, ← version, ← type, ← code, ← excess]
  by_cases known : Memory.ofString message behind 0 = 1
  · simp [decodedPing, receivedPing, readPing, getProtocolVersionPing, getOpcodeImplPing,
      getTypeImplPing, getCodeImplPing, getChecksumImplPing, getExcessImplPing, limitedByte, known,
      opPosPing, typePosPing, codePosPing, checkPosPing, excessPosPing, protoPosPing]
    rfl
  · simp [decodedPing, receivedPing, readPing, getProtocolVersionPing, getOpcodeImplPing,
      getTypeImplPing, getCodeImplPing, getChecksumImplPing, getExcessImplPing, known]

/-- A buffer as the constructor set it up, but for what each reply rewrites. -/
structure FreshHeader (buffer : PingBuffer) : Prop where
  prot : buffer.prot = protocolVersion
  op : buffer.op = Messages.ping
  check : buffer.check = 0

theorem pingData_store (buffer : PingBuffer) :
    pingData buffer = buffer.data.store 0 ([buffer.prot, buffer.op, buffer.type] ++
      LittleEndian.encode 2 buffer.code.toNat ++ LittleEndian.encode 2 buffer.check.toNat ++
        LittleEndian.encode 8 buffer.excess.toNat) := by
  have header : [buffer.prot, buffer.op, buffer.type] =
      [buffer.prot] ++ [buffer.op] ++ [buffer.type] := rfl
  rw [header]
  simp only [Memory.store_append, List.length_append, List.length_singleton,
    LittleEndian.encode_length]
  rfl

theorem wireString_fresh (fresh : FreshHeader buffer) (ping : Ping) :
    wireString buffer ping = (pingImage ping).take pingHeaderSize := by
  have image : (toWirePing (assignPing buffer ping)).data.load 0 pingMessageSize =
      pingImage ping := by
    have stored := pingData_store (assignPing buffer ping)
    have header : FreshHeader (assignPing buffer ping) := ⟨fresh.prot, fresh.op, fresh.check⟩
    rw [header.prot, header.op, header.check] at stored
    rw [toWirePing, stored]
    change Memory.load (Memory.store _ 0 (pingImage ping)) 0 pingMessageSize = _
    have length : (pingImage ping).length = pingMessageSize := rfl
    exact Memory.load_store_of_length length
  rw [← image, wireString, pingString, Memory.load_take _ _ (by decide)]

end Wire

/-! What one call of the server runs. -/

inductive PingAction (σ : Type) where
  | registered (callback : PingCallback σ)
  | default
  | refused

section Action

variable {σ : Type} (client : RmtControlClient σ) (state : σ) (message : List UInt8)
  (behind : Memory)

/-- The branch that `ping_server_callback` takes for a message. -/
def pingAction : PingAction σ :=
  let (stat, incomming) :=
    serializeFromPing client.buffers.incomming (some (Memory.ofString message behind))
  if stat = .ok then
    match client.pingCallbacks.lookup (incomming.type.toNat : Int) with
    | some callback => .registered callback
    | none => .default
  else .refused

def PingAction.run : PingAction σ → Ping → σ → Ping × σ
  | .registered callback, resp, state => callback resp state
  | .default, resp, state => (processControlCommandDefault resp, state)
  | .refused, _, state => ({ type := PingType.invalidRequest, code := 0, excess := 0 }, state)

/-- The branch decides the reply and the new state; the message only adds the
ping that the branch is given. -/
theorem pingServerCallback_eq_run :
    (pingServerCallback client state message behind).response =
        wireString client.buffers.outgoing ((pingAction client message behind).run
          (decodedPing client.buffers.incomming message behind) state).1 ∧
      (pingServerCallback client state message behind).state =
        ((pingAction client message behind).run
          (decodedPing client.buffers.incomming message behind) state).2 := by
  simp only [pingServerCallback, pingAction, serializeFromPing, if_true, dispatchPing, receivedPing,
    decodedPing]
  cases client.pingCallbacks.lookup
      (((readPing client.buffers.incomming).run (Memory.ofString message behind)).type.toNat : Int) with
  | some callback => exact ⟨rfl, rfl⟩
  | none => exact ⟨rfl, rfl⟩

end Action

/-! Histories of registrations and requests.  The callbacks are pure: they act
on no object. -/

def pureCallback (callback : Ping → Ping) : PingCallback Unit := fun ping state =>
  (callback ping, state)

inductive ServerEvent where
  | register (type : Int) (callback : Ping → Ping)
  | request (message : List UInt8) (behind : Memory)

def ServerEvent.apply (server : RmtControlClient Unit) : ServerEvent → RmtControlClient Unit
  | .register type callback => (registerPingFunc server type (pureCallback callback)).2
  | .request message behind => (pingServerCallback server () message behind).client

def serverAfter (events : List ServerEvent) : RmtControlClient Unit :=
  Run.final ServerEvent.apply createRmtControlClient events

/-- The registrations of a history, the earliest first. -/
def registrations : List ServerEvent → List (Int × (Ping → Ping))
  | [] => []
  | .register type callback :: rest => (type, callback) :: registrations rest
  | .request _ _ :: rest => registrations rest

/-- The callback that was registered first for a type, or the default. -/
def firstRegistered (registered : List (Int × (Ping → Ping))) (type : UInt8) : Ping → Ping :=
  (registered.lookup (type.toNat : Int)).getD processControlCommandDefault

section History

variable {server : RmtControlClient Unit} {registered : List (Int × (Ping → Ping))}

/-- A server between two events: nothing of earlier requests is left where a
reply could show it, and the table holds the first registration for each type. -/
structure Settled (server : RmtControlClient Unit)
    (registered : List (Int × (Ping → Ping))) : Prop where
  header : FreshHeader server.buffers.outgoing
  table : ∀ type, server.pingCallbacks.lookup type =
    (registered.lookup type).map pureCallback

theorem registrations_append (before after : List ServerEvent) :
    registrations (before ++ after) = registrations before ++ registrations after := by
  induction before with
  | nil => rfl
  | cons event rest ih =>
      cases event with
      | register type callback => exact congrArg ((type, callback) :: ·) ih
      | request message behind => exact ih

theorem Settled.register (settled : Settled server registered) (type : Int)
    (callback : Ping → Ping) :
    Settled (registerPingFunc server type (pureCallback callback)).2
      (registered ++ [(type, callback)]) := by
  have entry := settled.table type
  cases found : registered.lookup type with
  | none =>
      rw [found, Option.map_none] at entry
      simp only [registerPingFunc, entry]
      refine ⟨settled.header, ?_⟩
      intro other
      rw [List.lookup_append, List.lookup_cons, List.lookup_cons, settled.table other]
      cases same : other == type with
      | true =>
          rw [eq_of_beq same, found]
          rfl
      | false =>
          rw [List.lookup_nil, Option.or_none]
  | some earlier =>
      rw [found, Option.map_some] at entry
      simp only [registerPingFunc, entry]
      refine ⟨settled.header, ?_⟩
      intro other
      rw [List.lookup_append, settled.table other]
      cases known : registered.lookup other with
      | some callback => rfl
      | none =>
          have different : (other == type) = false := by
            rw [beq_eq_false_iff_ne]
            intro same
            rw [same, found] at known
            contradiction
          rw [List.lookup_cons, different]
          rfl

theorem Settled.request (settled : Settled server registered) (message : List UInt8)
    (behind : Memory) :
    Settled (pingServerCallback server () message behind).client registered :=
  ⟨⟨settled.header.prot, settled.header.op, settled.header.check⟩, settled.table⟩

theorem Settled.step (settled : Settled server registered) (event : ServerEvent) :
    Settled (event.apply server) (registered ++ registrations [event]) := by
  cases event with
  | register type callback => exact settled.register type callback
  | request message behind =>
      rw [registrations, registrations, List.append_nil]
      exact settled.request message behind

theorem serverAfter_settled (events : List ServerEvent) :
    Settled (serverAfter events) (registrations events) := by
  induction events using List.reverseRecOn with
  | nil => exact ⟨⟨rfl, rfl, rfl⟩, fun _ => rfl⟩
  | append_singleton events event ih =>
      rw [serverAfter, Run.final_append, registrations_append]
      exact ih.step event

theorem Settled.action (settled : Settled server registered) {message : List UInt8}
    (long : pingMessageSize ≤ message.length) (behind : Memory) :
    pingAction server message behind =
      match registered.lookup ((requestPing message).type.toNat : Int) with
      | some callback => .registered (pureCallback callback)
      | none => .default := by
  have type : ((readPing server.buffers.incomming).run (Memory.ofString message behind)).type =
      (requestPing message).type := congrArg Ping.type (decodedPing_long long)
  simp only [pingAction, serializeFromPing, if_true]
  rw [type, settled.table]
  cases registered.lookup ((requestPing message).type.toNat : Int) with
  | some callback => rfl
  | none => rfl

theorem Settled.response (settled : Settled server registered) {message : List UInt8}
    (long : pingMessageSize ≤ message.length) (behind : Memory) :
    (pingServerCallback server () message behind).response =
      (pingImage (firstRegistered registered (requestPing message).type
        (requestPing message))).take pingHeaderSize := by
  rw [(pingServerCallback_eq_run server () message behind).1, settled.action long,
    decodedPing_long long, wireString_fresh settled.header, firstRegistered]
  cases registered.lookup ((requestPing message).type.toNat : Int) with
  | some callback => rfl
  | none => rfl

end History

/-- Whatever came before, a request of full size is answered from its own bytes
by the callback registered first for its type, and a second registration for a
type changes nothing. -/
theorem pingServer_history (before : List ServerEvent) :
    (∀ (message : List UInt8) (behind : Memory), pingMessageSize ≤ message.length →
      receivedPing
          (pingServerCallback (serverAfter before) () message behind).client.buffers.incomming =
        requestPing message ∧
      pingAction (serverAfter before) message behind =
        (match (registrations before).lookup ((requestPing message).type.toNat : Int) with
        | some callback => .registered (pureCallback callback)
        | none => .default) ∧
      (pingServerCallback (serverAfter before) () message behind).response =
        (pingImage (firstRegistered (registrations before) (requestPing message).type
          (requestPing message))).take pingHeaderSize) ∧
    ∀ (type : Int) (callback : Ping → Ping),
      registerPingFunc (serverAfter before) type (pureCallback callback) =
        match (registrations before).lookup type with
        | some _ => (false, serverAfter before)
        | none => (true, { serverAfter before with
            pingCallbacks := (type, pureCallback callback) :: (serverAfter before).pingCallbacks }) := by
  have settled := serverAfter_settled before
  refine ⟨fun message behind long => ⟨decodedPing_long long, settled.action long behind,
    settled.response long behind⟩, ?_⟩
  intro type callback
  rw [registerPingFunc, settled.table type]
  cases (registrations before).lookup type with
  | some earlier => rfl
  | none => rfl

/-- An echo for state requests, then a second registration and a request. -/
def echoHistory : List ServerEvent :=
  [.register 8 id, .register 8 processControlCommandDefault, .request [1, 2, 8] fun _ => 7]

def echoMessage : List UInt8 := [1, 2, 8, 5, 6, 0, 0, 1, 2, 3, 4, 5, 6, 7, 8]

theorem pingServer_history_echo :
    (pingServerCallback (serverAfter echoHistory) () echoMessage fun _ => 0).response =
      (pingImage (firstRegistered (registrations echoHistory) (requestPing echoMessage).type
        (requestPing echoMessage))).take pingHeaderSize :=
  ((pingServer_history echoHistory).1 echoMessage (fun _ => 0) (by decide)).2.2

/-! Requests that are none. -/

/-- A message that is a ping: of full size, of the known version and of a
defined type. -/
def ValidPing (message : List UInt8) : Prop :=
  pingMessageSize ≤ message.length ∧ message.getD protoPosPing 0 = 1 ∧
    message.getD typePosPing 0 ≠ PingType.undef ∧ message.getD typePosPing 0 ≤ maxPingType

instance (message : List UInt8) : Decidable (ValidPing message) :=
  inferInstanceAs (Decidable (_ ∧ _))

section Validity

variable {σ : Type} (client : RmtControlClient σ) (state : σ) (message : List UInt8)
  (behind : Memory)

/-- One message is handled as the comments of `UNDEF` and `INVALID_REQUEST` say:
refused without any action when it is no ping, and dispatched by its type when
it is one. -/
structure RefusesInvalid : Prop where
  refused : ¬ ValidPing message → pingAction client message behind = .refused ∧
    (pingServerCallback client state message behind).response[typePosPing]? =
      some PingType.invalidRequest
  dispatched : ValidPing message → pingAction client message behind =
    match client.pingCallbacks.lookup ((message.getD typePosPing 0).toNat : Int) with
    | some callback => .registered callback
    | none => .default

variable {client message behind}

/-- The error code is set for null pointers only, so no message is refused. -/
theorem pingAction_ne_refused : pingAction client message behind ≠ .refused := by
  simp only [pingAction, serializeFromPing, if_true]
  split
  · exact nofun
  · exact nofun

theorem pingAction_valid (valid : ValidPing message) :
    pingAction client message behind =
      match client.pingCallbacks.lookup ((message.getD typePosPing 0).toNat : Int) with
      | some callback => .registered callback
      | none => .default := by
  obtain ⟨long, version, _, limited⟩ := valid
  have type : ((readPing client.buffers.incomming).run (Memory.ofString message behind)).type =
      (requestPing message).type := congrArg Ping.type (decodedPing_long long)
  have given : (requestPing message).type = message.getD typePosPing 0 := by
    rw [requestPing, if_pos version, if_pos limited]
  simp only [pingAction, serializeFromPing, if_true]
  rw [type, given]

end Validity

/-- Only messages that are pings are handled as they should be. -/
theorem refusesInvalid_iff {σ : Type} (client : RmtControlClient σ) (state : σ)
    (message : List UInt8) (behind : Memory) :
    RefusesInvalid client state message behind ↔ ValidPing message := by
  constructor
  · intro refuses
    by_contra invalid
    exact pingAction_ne_refused (refuses.refused invalid).1
  · intro valid
    exact ⟨fun invalid => absurd valid invalid, pingAction_valid⟩

/-- Fifteen zero bytes, which no peer of this protocol sends. -/
def zeroMessage : List UInt8 := List.replicate 15 0

theorem zeroMessage_acknowledged :
    ¬ ValidPing zeroMessage ∧
      (pingServerCallback (createRmtControlClient : RmtControlClient Unit) () zeroMessage
        fun _ => 0).response[typePosPing]? = some PingType.ack ∧
      ¬ RefusesInvalid (createRmtControlClient : RmtControlClient Unit) () zeroMessage
        fun _ => 0 := by
  have invalid : ¬ ValidPing zeroMessage := by decide
  have acknowledged : (pingServerCallback (createRmtControlClient : RmtControlClient Unit) ()
      zeroMessage fun _ => 0).response[typePosPing]? = some PingType.ack := by decide
  refine ⟨invalid, acknowledged, ?_⟩
  intro refuses
  rw [(refuses.refused invalid).2] at acknowledged
  exact absurd acknowledged (by decide)

end Sentinet.Control
