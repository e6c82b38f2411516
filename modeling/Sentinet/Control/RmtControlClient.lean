import Sentinet.Messages.Ping

namespace Sentinet.Control

open Sentinet.Data Sentinet.Messages

/-! `RMTControlClient`: one end of the ping protocol.  Registered callbacks act
on the object they are bound to, whose state has the type `σ`. -/

structure Ping where
  type : UInt8
  code : UInt16
  excess : UInt64
deriving DecidableEq

abbrev PingCallback (σ : Type) := Ping → σ → Ping × σ

structure PingBuffers where
  incomming : PingBuffer
  outgoing : PingBuffer
  request : PingBuffer
  reply : PingBuffer

structure RmtControlClient (σ : Type) where
  buffers : PingBuffers
  pingCallbacks : List (Int × PingCallback σ)

variable {σ : Type}

/-- The constructor, less its socket. -/
def createRmtControlClient : RmtControlClient σ :=
  { buffers :=
      { incomming := createBufferPing, outgoing := createBufferPing,
        request := createBufferPing, reply := createBufferPing }
    pingCallbacks := [] }

def registerPingFunc (client : RmtControlClient σ) (type : Int) (callback : PingCallback σ) :
    Bool × RmtControlClient σ :=
  match client.pingCallbacks.lookup type with
  | none => (true, { client with pingCallbacks := (type, callback) :: client.pingCallbacks })
  | some _ => (false, client)

def assignPing (buffer : PingBuffer) (ping : Ping) : PingBuffer :=
  { buffer with type := ping.type, code := ping.code, excess := ping.excess }

def receivedPing (buffer : PingBuffer) : Ping :=
  { type := buffer.type, code := buffer.code, excess := buffer.excess }

def processControlCommandDefault (_ping : Ping) : Ping :=
  { type := PingType.ack, code := 0, excess := 0 }

/-- `ping_endpoint`.  The network takes an address and a message to the response
of whoever serves that address. -/
def pingEndpoint (client : RmtControlClient σ) (network : String → List UInt8 → List UInt8)
    (address : String) (request : Ping) (behind : Memory) : Ping × RmtControlClient σ :=
  let sent := toWirePing (assignPing client.buffers.request request)
  let response := network address (pingString sent.data)
  let (stat, reply) :=
    serializeFromPing client.buffers.reply (some (Memory.ofString response behind))
  let client := { client with buffers := { client.buffers with request := sent, reply } }
  if stat = .ok then (receivedPing reply, client)
  else ({ type := 0, code := 0, excess := 0 }, client)

def dispatchPing (client : RmtControlClient σ) (resp : Ping) (state : σ) : Ping × σ :=
  match client.pingCallbacks.lookup (resp.type.toNat : Int) with
  | some callback => callback resp state
  | none => (processControlCommandDefault resp, state)

structure Served (σ : Type) where
  response : List UInt8
  client : RmtControlClient σ
  state : σ

def pingServerCallback (client : RmtControlClient σ) (state : σ) (message : List UInt8)
    (behind : Memory) : Served σ :=
  let (stat, incomming) :=
    serializeFromPing client.buffers.incomming (some (Memory.ofString message behind))
  let (ret, state) :=
    if stat = .ok then dispatchPing client (receivedPing incomming) state
    else ({ type := PingType.invalidRequest, code := 0, excess := 0 }, state)
  let outgoing := toWirePing (assignPing client.buffers.outgoing ret)
  { response := pingString outgoing.data
    client := { client with buffers := { client.buffers with incomming, outgoing } }
    state }

/-- The clients a program can hold. -/
inductive RmtControlClient.Reachable : RmtControlClient σ → Prop where
  | create : Reachable createRmtControlClient
  | register {client : RmtControlClient σ} (type : Int) (callback : PingCallback σ) :
      Reachable client → Reachable (registerPingFunc client type callback).2
  | endpoint {client : RmtControlClient σ} (network : String → List UInt8 → List UInt8)
      (address : String) (request : Ping) (behind : Memory) :
      Reachable client → Reachable (pingEndpoint client network address request behind).2
  | serve {client : RmtControlClient σ} (state : σ) (message : List UInt8) (behind : Memory) :
      Reachable client → Reachable (pingServerCallback client state message behind).client

theorem RmtControlClient.Reachable.version {client : RmtControlClient σ}
    (reachable : client.Reachable) :
    client.buffers.request.prot = protocolVersion ∧
      client.buffers.outgoing.prot = protocolVersion := by
  induction reachable with
  | create => exact ⟨rfl, rfl⟩
  | @register client type callback _ ih =>
      unfold registerPingFunc
      split <;> exact ih
  | endpoint network address request behind _ ih =>
      simp only [pingEndpoint]
      split <;> exact ih
  | serve state message behind _ ih => exact ih

end Sentinet.Control
