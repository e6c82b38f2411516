import Sentinet.Control.RmtControlClient

namespace Sentinet.Control

open Sentinet.Data Sentinet.Messages

/-! One ping from a client to a server and back.  Each string is read at the
other end with some memory lying behind it. -/

section Wire

variable {σ : Type} {buffer destination : PingBuffer} {ping : Ping} {behind : Memory}

def wireString (buffer : PingBuffer) (ping : Ping) : List UInt8 :=
  pingString (toWirePing (assignPing buffer ping)).data

def decodedPing (destination : PingBuffer) (message : List UInt8) (behind : Memory) : Ping :=
  receivedPing ((readPing destination).run (Memory.ofString message behind))

theorem wireString_version (ping : Ping) (behind : Memory)
    (version : buffer.prot = protocolVersion) :
    Memory.ofString (wireString buffer ping) behind 0 = 1 := by
  rw [wireString, ofString_pingString (by decide)]
  exact pingData_prot.trans version

theorem wireString_type :
    Memory.ofString (wireString buffer ping) behind 2 = ping.type := by
  rw [wireString, ofString_pingString (by decide)]
  exact pingData_type

theorem decodedPing_wireString (version : buffer.prot = protocolVersion)
    (limited : ping.type ≤ maxPingType) :
    decodedPing destination (wireString buffer ping) behind =
      { ping with excess := (Memory.ofString (wireString buffer ping) behind).load64 7 } := by
  obtain ⟨type, code, excess⟩ := readPing_run destination (wireString_version ping behind version)
    (by rw [wireString_type]; exact limited)
  have codeKept : (Memory.ofString (wireString buffer ping) behind).load16 3 = ping.code := by
    rw [wireString, Memory.load16_congr fun _ _ _ => ofString_pingString (by omega)]
    exact pingData_code
  rw [decodedPing, receivedPing, type, code, excess, wireString_type, codeKept]

theorem withExcess_eq_iff {excess : UInt64} :
    { ping with excess } = ping ↔ excess = ping.excess := by
  cases ping
  simp

/-- A ping comes through exactly when the bytes found behind the string are the
upper half of its excess. -/
theorem decodedPing_eq_iff (version : buffer.prot = protocolVersion)
    (limited : ping.type ≤ maxPingType) :
    decodedPing destination (wireString buffer ping) behind = ping ↔
      excessBehind behind = ping.excess.toNat / 2 ^ 32 := by
  have kept : (toWirePing (assignPing buffer ping)).data.load64 7 = ping.excess := pingData_excess
  have excess := pingString_excess_iff (toWirePing (assignPing buffer ping)).data behind
  rw [kept] at excess
  rw [decodedPing_wireString version limited, ← excess, wireString]
  exact withExcess_eq_iff

/-- Decoding never stays inside the string. -/
theorem decode_leaves_string (version : buffer.prot = protocolVersion) :
    ¬ (readPing destination).StaysBelow (wireString buffer ping).length
        (Memory.ofString (wireString buffer ping) behind) := by
  intro stays
  have bound := stays 14 (readPing_touched (wireString_version _ _ version))
  rw [wireString, pingString_length] at bound
  omega

end Wire

section Exchange

variable {σ : Type} (client server : RmtControlClient σ) (state : σ) (address : String)
  (request : Ping) (behindMessage behindResponse : Memory)

def served : Served σ :=
  pingServerCallback server state (wireString client.buffers.request request) behindMessage

def seenPing : Ping :=
  receivedPing (served client server state request behindMessage).client.buffers.incomming

def answeredPing : Ping :=
  (dispatchPing server (seenPing client server state request behindMessage) state).1

/-- The ping that `ping_endpoint` returns when that server serves the address. -/
def returnedPing : Ping :=
  (pingEndpoint client
    (fun _ message => (pingServerCallback server state message behindMessage).response)
    address request behindResponse).1

/-- The exchange carries both pings unchanged, and both ends read only what was sent. -/
structure Faithful : Prop where
  seen : seenPing client server state request behindMessage = request
  returned : (answeredPing client server state request behindMessage).type ≤ maxPingType →
    returnedPing client server state address request behindMessage behindResponse =
      answeredPing client server state request behindMessage
  messageReads : (readPing server.buffers.incomming).StaysBelow
    (wireString client.buffers.request request).length
    (Memory.ofString (wireString client.buffers.request request) behindMessage)
  responseReads : (readPing client.buffers.reply).StaysBelow
    (served client server state request behindMessage).response.length
    (Memory.ofString (served client server state request behindMessage).response behindResponse)

variable {client server} {state} {address} {request} {behindMessage behindResponse}

theorem seenPing_eq :
    seenPing client server state request behindMessage =
      decodedPing server.buffers.incomming (wireString client.buffers.request request)
        behindMessage := rfl

theorem returnedPing_eq :
    returnedPing client server state address request behindMessage behindResponse =
      decodedPing client.buffers.reply
        (wireString server.buffers.outgoing
          (answeredPing client server state request behindMessage)) behindResponse := rfl

/-- No ping is carried as the protocol means it: the excess word ends four bytes
behind the string.  What arrives equals what was sent exactly when those bytes
happen to hold the upper half of the excess. -/
theorem pingExchange_never_faithful (clientReachable : client.Reachable)
    (serverReachable : server.Reachable) (limited : request.type ≤ maxPingType) :
    ¬ Faithful client server state address request behindMessage behindResponse ∧
      (seenPing client server state request behindMessage = request ↔
        excessBehind behindMessage = request.excess.toNat / 2 ^ 32) ∧
      ((answeredPing client server state request behindMessage).type ≤ maxPingType →
        (returnedPing client server state address request behindMessage behindResponse =
            answeredPing client server state request behindMessage ↔
          excessBehind behindResponse =
            (answeredPing client server state request behindMessage).excess.toNat / 2 ^ 32)) := by
  refine ⟨?_, ?_, ?_⟩
  · intro faithful
    exact decode_leaves_string clientReachable.version.1 faithful.messageReads
  · rw [seenPing_eq]
    exact decodedPing_eq_iff clientReachable.version.1 limited
  · intro answerLimited
    rw [returnedPing_eq]
    exact decodedPing_eq_iff serverReachable.version.2 answerLimited

end Exchange

/-! A server that keeps the state requests it is given, with nothing but zero
bytes behind every string. -/

def keepRequest : PingCallback (List Ping) := fun ping seen =>
  ({ type := PingType.ack, code := 0, excess := 0 }, ping :: seen)

def keepingServer : RmtControlClient (List Ping) :=
  (registerPingFunc createRmtControlClient PingType.stateRequest.toNat keepRequest).2

def wideRequest : Ping := { type := PingType.stateRequest, code := 1, excess := 0x100000000 }

theorem pingExchange_never_faithful_wide_request :
    ¬ Faithful createRmtControlClient keepingServer [] "tcp://localhost:5555" wideRequest
        (fun _ => 0) (fun _ => 0) ∧
      (seenPing createRmtControlClient keepingServer [] wideRequest (fun _ => 0) = wideRequest ↔
        excessBehind (fun _ => 0) = wideRequest.excess.toNat / 2 ^ 32) ∧
      ((answeredPing createRmtControlClient keepingServer [] wideRequest fun _ => 0).type ≤
          maxPingType →
        (returnedPing createRmtControlClient keepingServer [] "tcp://localhost:5555" wideRequest
            (fun _ => 0) (fun _ => 0) =
            answeredPing createRmtControlClient keepingServer [] wideRequest (fun _ => 0) ↔
          excessBehind (fun _ => 0) =
            (answeredPing createRmtControlClient keepingServer [] wideRequest
              fun _ => 0).excess.toNat / 2 ^ 32)) :=
  pingExchange_never_faithful .create (.register _ _ .create) (by decide)

theorem wideRequest_cut :
    (served createRmtControlClient keepingServer [] wideRequest fun _ => 0).state =
        [{ wideRequest with excess := 0 }] ∧
      ¬ Faithful createRmtControlClient keepingServer [] "tcp://localhost:5555" wideRequest
        (fun _ => 0) (fun _ => 0) := by
  constructor
  · decide
  · intro faithful
    exact absurd faithful.seen (by decide)

end Sentinet.Control
