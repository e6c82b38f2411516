import Sentinet.Control.Workers

namespace Sentinet.Control

/-! `ZMQControlClient`: four registries of workers.  The callbacks and periods
that a worker is given play no part in them. -/

inductive Pattern where
  | subscriber | server | periodicClient | periodicPublisher
deriving DecidableEq, Repr

/-- The client by its `thread_space`. -/
structure ZmqControlClient where
  subscribers : Registry
  servers : Registry
  periodicClients : Registry
  periodicPublishers : Registry

/-- The order in which a loop visits an unordered map: any order, each name once. -/
structure IterationOrder where
  keys : Registry → List String
  visits : ∀ registry : Registry, (keys registry).Perm registry.keys

namespace ZmqControlClient

def create : ZmqControlClient :=
  { subscribers := ∅, servers := ∅, periodicClients := ∅, periodicPublishers := ∅ }

def registry (client : ZmqControlClient) : Pattern → Registry
  | .subscriber => client.subscribers
  | .server => client.servers
  | .periodicClient => client.periodicClients
  | .periodicPublisher => client.periodicPublishers

def assign (client : ZmqControlClient) (registry : Registry) : Pattern → ZmqControlClient
  | .subscriber => { client with subscribers := registry }
  | .server => { client with servers := registry }
  | .periodicClient => { client with periodicClients := registry }
  | .periodicPublisher => { client with periodicPublishers := registry }

def onRegistry (client : ZmqControlClient) (pattern : Pattern)
    (operation : Registry → Except Fault Bool × Registry) : Except Fault Bool × ZmqControlClient :=
  let (result, registry) := operation (client.registry pattern)
  (result, client.assign registry pattern)

def publish (client : ZmqControlClient) (sockAddr topic : String) :
    Except Fault Bool × ZmqControlClient :=
  client.onRegistry .periodicPublisher fun map =>
    launch map sockAddr sockAddr .pub (.publisher sockAddr topic)

def cancelPeriodicPublisher (client : ZmqControlClient) (reference : String) :
    Except Fault Bool × ZmqControlClient :=
  client.onRegistry .periodicPublisher fun map => cancel map reference false

def request (client : ZmqControlClient) (destination id : String) :
    Except Fault Bool × ZmqControlClient :=
  client.onRegistry .periodicClient fun map => launch map id id .req (.requester destination)

/-- The one that may join a thread that never ends. -/
def cancelPeriodicRequest (client : ZmqControlClient) (reference : String) (unanswered : Bool) :
    Except Fault Bool × ZmqControlClient :=
  client.onRegistry .periodicClient fun map => cancel map reference unanswered

/-- The one that looks for another name than it stores. -/
def subscribe (client : ZmqControlClient) (sockAddr topic : String) :
    Except Fault Bool × ZmqControlClient :=
  client.onRegistry .subscriber fun map =>
    launch map topic sockAddr .sub (.subscriber sockAddr topic)

def cancelSubscription (client : ZmqControlClient) (reference : String) :
    Except Fault Bool × ZmqControlClient :=
  client.onRegistry .subscriber fun map => cancel map reference false

def serve (client : ZmqControlClient) (address : String) : Except Fault Bool × ZmqControlClient :=
  client.onRegistry .server fun map => launch map address address .rep (.server address false)

def bindServer (client : ZmqControlClient) (address : String) :
    Except Fault Bool × ZmqControlClient :=
  client.onRegistry .server fun map => launch map address address .rep (.server address true)

def terminateServer (client : ZmqControlClient) (reference : String) :
    Except Fault Bool × ZmqControlClient :=
  client.onRegistry .server fun map => cancel map reference false

/-- The loops of `quit`, one registry after the other; an exception ends them all,
and so does a join that never returns. -/
def quitPatterns (order : IterationOrder) (unanswered : String → Bool) :
    List Pattern → ZmqControlClient → Except Fault Bool × ZmqControlClient
  | [], client => (.ok true, client)
  | pattern :: rest, client =>
      let map := client.registry pattern
      match cancelAll map unanswered (order.keys map) with
      | (.error fault, map) => (.error fault, client.assign map pattern)
      | (.ok _, map) => quitPatterns order unanswered rest (client.assign map pattern)

/-- `unanswered` gives the names of the requesters to which no reply comes any more. -/
def quit (client : ZmqControlClient) (order : IterationOrder) (unanswered : String → Bool) :
    Except Fault Bool × ZmqControlClient :=
  quitPatterns order unanswered [.subscriber, .server, .periodicPublisher, .periodicClient] client

variable {client : ZmqControlClient} {map : Registry} {pattern other : Pattern}
  {operation : Registry → Except Fault Bool × Registry}

@[simp] theorem registry_assign : (client.assign map pattern).registry pattern = map := by
  cases pattern <;> rfl

theorem registry_assign_ne (different : other ≠ pattern) :
    (client.assign map pattern).registry other = client.registry other := by
  cases pattern <;> cases other <;> first | rfl | contradiction

@[simp] theorem assign_registry : client.assign (client.registry pattern) pattern = client := by
  cases pattern <;> rfl

theorem lookup_assign_insert {key name : String} {space : SocketThreadSpace} :
    ((client.assign ((client.registry pattern).insert key space) pattern).registry other).lookup
        name =
      if (other, name) = (pattern, key) then some space
      else (client.registry other).lookup name := by
  by_cases samePattern : other = pattern
  · subst other
    by_cases sameKey : name = key
    · subst name
      rw [registry_assign, AList.lookup_insert, if_pos rfl]
    · rw [registry_assign, AList.lookup_insert_ne sameKey, if_neg (by simp [sameKey])]
  · rw [registry_assign_ne samePattern, if_neg (by simp [samePattern])]

@[simp] theorem onRegistry_result :
    (client.onRegistry pattern operation).1 = (operation (client.registry pattern)).1 := rfl

end ZmqControlClient

end Sentinet.Control
