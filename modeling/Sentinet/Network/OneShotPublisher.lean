import Sentinet.Network.PubSub
import Sentinet.Network.Requests

namespace Sentinet.Network

open Sentinet.Data

/-! The one-shot publisher of `ZMQControlClient`.  Its socket is held by a unique
pointer that `publish` moves into `concurrent_publish`, where it is closed. -/

structure ConnectedPublisher where
  address : String
  socket : PubSocket

/-- A message that left a publishing socket, with where the socket was connected. -/
structure Publication where
  address : String
  frames : List Frame
deriving DecidableEq, Repr

structure OneShotClient where
  thisPublisher : Option ConnectedPublisher
  requests : RequestClient
  published : List Publication

namespace OneShotClient

def create : OneShotClient :=
  { thisPublisher := none, requests := RequestClient.create, published := [] }

/-- `std::make_unique<::zmq::socket_t>(context, ZMQ_PUB)` and `connect` -/
def initializePublisher (client : OneShotClient) (address : String) : Bool × OneShotClient :=
  match client.thisPublisher with
  | some _ => (false, client)
  | none => (true, { client with thisPublisher := some { address, socket := { parts := [] } } })

/-- The socket moves out of the client before the call, and does not come back. -/
def publish (client : OneShotClient) (topic message : Frame) : Bool × OneShotClient :=
  match client.thisPublisher with
  | none => (false, client)
  | some publisher =>
      let (frames, _) := concurrentPublish publisher.socket topic message
      (true, { client with
        thisPublisher := none
        published := client.published ++ [{ address := publisher.address, frames }] })

def request (client : OneShotClient) (destination : String) (message : List UInt8)
    (polls : List (List Reply)) : OneShotClient :=
  { client with requests := (Network.request client.requests destination message polls).client }

end OneShotClient

inductive OneShotCall where
  | initializePublisher (address : String)
  | publish (topic message : Frame)
  | request (destination : String) (message : List UInt8) (polls : List (List Reply))

namespace OneShotCall

def apply (client : OneShotClient) : OneShotCall → OneShotClient
  | .initializePublisher address => (client.initializePublisher address).2
  | .publish topic message => (client.publish topic message).2
  | .request destination message polls => client.request destination message polls

def Serves (address : String) (client : OneShotClient) : OneShotCall → Prop
  | .initializePublisher other => client.initializePublisher other = (false, client)
  | .publish topic message => (client.publish topic message).1 = true ∧
      (client.publish topic message).2.published =
        client.published ++ [{ address, frames := [topic, message] }]
  | .request destination message polls =>
      (client.request destination message polls).published = client.published

def publications (address : String) : List OneShotCall → List Publication
  | [] => []
  | .publish topic message :: rest =>
      { address, frames := [topic, message] } :: publications address rest
  | .initializePublisher _ :: rest => publications address rest
  | .request _ _ _ :: rest => publications address rest

def isRequest : OneShotCall → Bool
  | .request _ _ _ => true
  | _ => false

/-- After the first `publish` come requests only. -/
def PublishesOnce : List OneShotCall → Prop
  | [] => True
  | .publish _ _ :: rest => ∀ call ∈ rest, call.isRequest
  | .initializePublisher _ :: rest => PublishesOnce rest
  | .request _ _ _ :: rest => PublishesOnce rest

structure StaysUsable (address : String) (client : OneShotClient) (calls : List OneShotCall) :
    Prop where
  serves : Run.EachStep apply (Serves address) client calls
  published : (Run.final apply client calls).published =
    client.published ++ publications address calls

section Runs

variable {address : String} {client : OneShotClient} {calls : List OneShotCall}

theorem published_of_serves (serves : Run.EachStep apply (Serves address) client calls) :
    (Run.final apply client calls).published = client.published ++ publications address calls := by
  induction calls generalizing client with
  | nil => simp [publications]
  | cons call rest ih =>
      obtain ⟨first, later⟩ := serves
      rw [Run.final_cons, ih later]
      cases call with
      | initializePublisher other => rw [apply, first, publications]
      | publish topic message =>
          rw [apply, first.2, publications, List.append_assoc]
          rfl
      | request destination message polls => rw [apply, first, publications]

/-- Without its socket the client fails every call but the requests. -/
theorem not_serves_absent (absent : client.thisPublisher = none) {call : OneShotCall}
    (guard : call.isRequest = false) : ¬ Serves address client call := by
  intro serves
  cases call with
  | initializePublisher other =>
      have created : (client.initializePublisher other).1 = true := by
        simp only [OneShotClient.initializePublisher, absent]
      rw [serves] at created
      contradiction
  | publish topic message =>
      have failed : (client.publish topic message).1 = false := by
        simp only [OneShotClient.publish, absent]
      rw [serves.1] at failed
      contradiction
  | request destination message polls => contradiction

theorem request_serves {call : OneShotCall} (request : call.isRequest = true) :
    Serves address client call ∧ (apply client call).thisPublisher = client.thisPublisher := by
  cases call with
  | initializePublisher other => contradiction
  | publish topic message => contradiction
  | request destination message polls => exact ⟨rfl, rfl⟩

theorem serves_absent (absent : client.thisPublisher = none) :
    Run.EachStep apply (Serves address) client calls ↔ ∀ call ∈ calls, call.isRequest := by
  induction calls generalizing client with
  | nil => simp [Run.EachStep]
  | cons call rest ih =>
      rw [List.forall_mem_cons, Run.EachStep]
      cases request : call.isRequest with
      | true =>
          obtain ⟨serves, same⟩ : Serves address client call ∧
              (apply client call).thisPublisher = client.thisPublisher := request_serves request
          have still := same.trans absent
          exact and_congr ⟨fun _ => rfl, fun _ => serves⟩ (ih still)
      | false =>
          have fails : ¬ Serves address client call := not_serves_absent absent request
          constructor
          · intro every
            exact absurd every.1 fails
          · intro every
            exact absurd every.1 (by simp)

/-- A connected socket serves the calls up to the first `publish`. -/
theorem serves_present
    (present : client.thisPublisher = some { address, socket := { parts := [] } }) :
    Run.EachStep apply (Serves address) client calls ↔ PublishesOnce calls := by
  induction calls generalizing client with
  | nil => exact Iff.rfl
  | cons call rest ih =>
      rw [Run.EachStep]
      cases call with
      | initializePublisher other =>
          have refused : client.initializePublisher other = (false, client) := by
            simp only [OneShotClient.initializePublisher, present]
          have same : apply client (.initializePublisher other) = client := by rw [apply, refused]
          rw [same]
          exact (and_iff_right refused).trans (ih present)
      | publish topic message =>
          have sent : client.publish topic message = (true, { client with
              thisPublisher := none
              published := client.published ++ [{ address, frames := [topic, message] }] }) := by
            simp only [OneShotClient.publish, present]
            rfl
          have gone : (apply client (.publish topic message)).thisPublisher = none := by
            rw [apply, sent]
          have served : Serves address client (.publish topic message) := by
            rw [Serves, sent]
            exact ⟨rfl, rfl⟩
          exact (and_iff_right served).trans (serves_absent gone)
      | request destination message polls =>
          have still : (apply client (.request destination message polls)).thisPublisher =
            some { address, socket := { parts := [] } } := present
          exact (and_iff_right rfl).trans (ih still)

end Runs

end OneShotCall

open OneShotCall

/-- An initialised publisher serves its calls exactly as long as nothing but
requests follows the first `publish`. -/
theorem publisher_staysUsable_iff (client : OneShotClient) (address : String)
    (initialized : (client.initializePublisher address).1 = true) (calls : List OneShotCall) :
    StaysUsable address (client.initializePublisher address).2 calls ↔ PublishesOnce calls := by
  have present : (client.initializePublisher address).2.thisPublisher =
      some { address, socket := { parts := [] } } := by
    cases held : client.thisPublisher with
    | some publisher =>
        simp only [OneShotClient.initializePublisher, held] at initialized
        contradiction
    | none => simp only [OneShotClient.initializePublisher, held]
  constructor
  · intro usable
    exact (serves_present present).mp usable.serves
  · intro once
    have serves := (serves_present present).mpr once
    exact ⟨serves, published_of_serves serves⟩

theorem publisher_staysUsable_iff_once :
    StaysUsable "inproc://pipe" (OneShotClient.create.initializePublisher "inproc://pipe").2
        [.publish [1] [2]] ↔ PublishesOnce [.publish [1] [2]] :=
  publisher_staysUsable_iff OneShotClient.create "inproc://pipe" rfl [.publish [1] [2]]

def pipeClient : OneShotClient := (OneShotClient.create.initializePublisher "inproc://pipe").2

/-- The second message is refused, and the publisher can be initialised again. -/
theorem second_publish_refused :
    ((pipeClient.publish [1] [2]).2.publish [1] [3]).1 = false ∧
      ((pipeClient.publish [1] [2]).2.initializePublisher "inproc://pipe").1 = true ∧
      ¬ StaysUsable "inproc://pipe" pipeClient [.publish [1] [2], .publish [1] [3]] := by
  refine ⟨rfl, rfl, ?_⟩
  intro usable
  have once := (serves_present (by rfl)).mp usable.serves
  exact absurd (once _ List.mem_cons_self) (by simp [isRequest])

end Sentinet.Network
