import Sentinet.Data.Run
import Sentinet.Control.ZmqControlClient

namespace Sentinet.Control

open Sentinet.Data

/-! Subscriptions over runs of `subscribe`, which promises one subscription a
topic at any address. -/

def subscriptionOf (thread : Option Thread) : Option (String × String) :=
  match thread with
  | some { worker := .subscriber sockAddr topic, joinable := true } => some (sockAddr, topic)
  | _ => none

/-- The address and the topic of every subscriber that runs. -/
def Registry.subscriptions (map : Registry) : List (String × String) :=
  map.entries.filterMap fun entry => subscriptionOf entry.2.thread

def ZmqControlClient.Subscribed (client : ZmqControlClient) (topic : String) : Prop :=
  ∃ sockAddr, (sockAddr, topic) ∈ Registry.subscriptions client.subscribers

structure SubscribeCall where
  sockAddr : String
  topic : String

def ZmqControlClient.subscribeStep (client : ZmqControlClient) (call : SubscribeCall) :
    ZmqControlClient :=
  (client.subscribe call.sockAddr call.topic).2

/-- What a call promises, and what cancelling promises after it. -/
structure SubscriptionRule (client : ZmqControlClient) (call : SubscribeCall) : Prop where
  refused : client.Subscribed call.topic →
    client.subscribe call.sockAddr call.topic = (.ok false, client)
  accepted : ¬ client.Subscribed call.topic →
    (client.subscribe call.sockAddr call.topic).1 = .ok true ∧
      (Registry.subscriptions (client.subscribeStep call).subscribers).Perm
        ((call.sockAddr, call.topic) :: Registry.subscriptions client.subscribers)
  cancels : ∀ topic, (client.subscribeStep call).Subscribed topic →
    ((client.subscribeStep call).cancelSubscription topic).1 = .ok true ∧ ∃ sockAddr,
      (Registry.subscriptions (client.subscribeStep call).subscribers).Perm
        ((sockAddr, topic) :: Registry.subscriptions
          ((client.subscribeStep call).cancelSubscription topic).2.subscribers)

/-- A call for a topic that no earlier call named gives the topic as its address. -/
def AddressedByTopic : (named : List String) → List SubscribeCall → Prop
  | _, [] => True
  | named, call :: rest =>
      (call.topic ∉ named → call.sockAddr = call.topic) ∧
        AddressedByTopic (call.topic :: named) rest

section Registry

variable {map : Registry} {key sockAddr topic : String} {space : SocketThreadSpace}

theorem subscriptionOf_runs (runs : space.Runs (.subscriber sockAddr topic)) :
    subscriptionOf space.thread = some (sockAddr, topic) := by
  rw [runs.1]
  rfl

theorem subscriptions_fresh (fresh : key ∉ map)
    (runs : space.Runs (.subscriber sockAddr topic)) :
    Registry.subscriptions (map.insert key space) =
      (sockAddr, topic) :: Registry.subscriptions map := by
  simp only [Registry.subscriptions, AList.entries_insert_of_notMem fresh, List.filterMap_cons,
    subscriptionOf_runs runs]

theorem entries_perm (found : map.lookup key = some space) :
    map.entries.Perm (⟨key, space⟩ :: (map.erase key).entries) := by
  have present : key ∈ map.entries.keys := AList.lookup_isSome.mp (by rw [found]; rfl)
  obtain ⟨other, before, after, _, split, erased⟩ := List.exists_of_kerase present
  have member : (⟨key, other⟩ : Sigma fun _ : String => SocketThreadSpace) ∈ map.entries := by
    rw [split]
    simp
  have same : map.lookup key = some other := AList.mem_lookup_iff.mpr member
  obtain rfl : space = other := Option.some.inj (found.symm.trans same)
  change map.entries.Perm (_ :: List.kerase key map.entries)
  rw [erased, split]
  exact List.perm_middle

/-- Stopping a running subscriber takes its subscription, and no other, away. -/
theorem subscriptions_stop (found : map.lookup key = some space)
    (runs : space.Runs (.subscriber sockAddr topic)) :
    (Registry.subscriptions map).Perm ((sockAddr, topic) ::
      Registry.subscriptions (map.insert key (space.stop (.subscriber sockAddr topic)))) := by
  have front := (entries_perm found).filterMap fun entry => subscriptionOf entry.2.thread
  simp only [List.filterMap_cons, subscriptionOf_runs runs] at front
  have stopped : Registry.subscriptions
      (map.insert key (space.stop (.subscriber sockAddr topic))) =
        Registry.subscriptions (map.erase key) := by
    rw [Registry.subscriptions, AList.entries_insert]
    exact List.filterMap_cons_none rfl
  rw [stopped]
  exact front

theorem mem_subscriptions {subscription : String × String} :
    subscription ∈ Registry.subscriptions map ↔ ∃ key space,
      map.lookup key = some space ∧ subscriptionOf space.thread = some subscription := by
  rw [Registry.subscriptions, List.mem_filterMap]
  constructor
  · intro listed
    obtain ⟨⟨key, space⟩, member, subscribed⟩ := listed
    exact ⟨key, space, AList.mem_lookup_iff.mpr member, subscribed⟩
  · intro subscription
    obtain ⟨key, space, found, subscribed⟩ := subscription
    exact ⟨⟨key, space⟩, AList.mem_lookup_iff.mp found, subscribed⟩

end Registry

section Runs

/-- Every entry is a running subscription to its own name, and the names are
those that calls have named. -/
structure Keyed (client : ZmqControlClient) (named : List String) : Prop where
  runs : ∀ key space, client.subscribers.lookup key = some space →
    space.Runs (.subscriber key key)
  named : ∀ key, key ∈ client.subscribers ↔ key ∈ named

variable {client : ZmqControlClient} {named : List String} {call : SubscribeCall} {topic : String}

theorem keyed_create : Keyed ZmqControlClient.create [] := by
  constructor
  · intro key space found
    contradiction
  · intro key
    exact iff_of_false (AList.notMem_empty key) List.not_mem_nil

theorem Keyed.subscribed_iff (keyed : Keyed client named) :
    client.Subscribed topic ↔ topic ∈ client.subscribers := by
  constructor
  · intro listed
    obtain ⟨sockAddr, member⟩ := listed
    obtain ⟨key, space, found, subscribed⟩ := mem_subscriptions.mp member
    rw [subscriptionOf_runs (keyed.runs key space found), Option.some.injEq, Prod.mk.injEq]
      at subscribed
    obtain ⟨-, rfl⟩ := subscribed
    exact AList.lookup_isSome.mp (by rw [found]; rfl)
  · intro member
    obtain ⟨space, found⟩ := Option.isSome_iff_exists.mp (AList.lookup_isSome.mpr member)
    exact ⟨topic, mem_subscriptions.mpr
      ⟨topic, space, found, subscriptionOf_runs (keyed.runs topic space found)⟩⟩

theorem Keyed.cancels (keyed : Keyed client named) (subscribed : client.Subscribed topic) :
    (client.cancelSubscription topic).1 = .ok true ∧ ∃ sockAddr,
      (Registry.subscriptions client.subscribers).Perm ((sockAddr, topic) ::
        Registry.subscriptions (client.cancelSubscription topic).2.subscribers) := by
  have member := keyed.subscribed_iff.mp subscribed
  obtain ⟨space, found⟩ := Option.isSome_iff_exists.mp (AList.lookup_isSome.mpr member)
  have runs := keyed.runs topic space found
  have cancelled : client.cancelSubscription topic =
      (.ok true, { client with
        subscribers := client.subscribers.insert topic (space.stop (.subscriber topic topic)) }) := by
    have left : cancel client.subscribers topic false =
        (.ok true, client.subscribers.insert topic (space.stop (.subscriber topic topic))) :=
      cancel_running found runs rfl
    simp only [ZmqControlClient.cancelSubscription, ZmqControlClient.onRegistry,
      ZmqControlClient.registry, left, ZmqControlClient.assign]
  rw [cancelled]
  exact ⟨rfl, topic, subscriptions_stop found runs⟩

theorem Keyed.refuses (keyed : Keyed client named) (known : call.topic ∈ named) :
    client.subscribe call.sockAddr call.topic = (.ok false, client) := by
  obtain ⟨space, found⟩ := Option.isSome_iff_exists.mp
    (AList.lookup_isSome.mpr ((keyed.named call.topic).mpr known))
  simp only [ZmqControlClient.subscribe, ZmqControlClient.onRegistry, ZmqControlClient.registry,
    launch_found found, ZmqControlClient.assign]

theorem subscribe_fresh (unknown : call.topic ∉ client.subscribers)
    (fresh : call.sockAddr ∉ client.subscribers) :
    client.subscribe call.sockAddr call.topic =
      (.ok true, { client with
        subscribers := client.subscribers.insert call.sockAddr
          (.started (.subscriber call.sockAddr call.topic)) }) := by
  have started : launch client.subscribers call.topic call.sockAddr .sub
      (.subscriber call.sockAddr call.topic) = _ :=
    launch_fresh (AList.lookup_eq_none.mpr unknown) (AList.lookup_eq_none.mpr fresh)
  simp only [ZmqControlClient.subscribe, ZmqControlClient.onRegistry, ZmqControlClient.registry,
    started, ZmqControlClient.assign]

theorem Keyed.step (keyed : Keyed client named)
    (addressed : call.topic ∉ named → call.sockAddr = call.topic) :
    Keyed (client.subscribeStep call) (call.topic :: named) := by
  by_cases known : call.topic ∈ named
  · rw [ZmqControlClient.subscribeStep, keyed.refuses known]
    refine ⟨keyed.runs, ?_⟩
    intro key
    rw [keyed.named key, List.mem_cons]
    exact ⟨Or.inr, fun either => either.elim (fun same => same ▸ known) id⟩
  · have unknown : call.topic ∉ client.subscribers := fun member =>
      known ((keyed.named call.topic).mp member)
    have same := addressed known
    rw [ZmqControlClient.subscribeStep, subscribe_fresh unknown (same ▸ unknown), same]
    constructor
    · intro key space found
      by_cases new : key = call.topic
      · subst key
        rw [AList.lookup_insert] at found
        exact Option.some.inj found ▸ started_runs
      · rw [AList.lookup_insert_ne new] at found
        exact keyed.runs key space found
    · intro key
      rw [AList.mem_insert, List.mem_cons, keyed.named key]

theorem Keyed.clashes (keyed : Keyed client named) (unknown : call.topic ∉ client.subscribers)
    (taken : call.sockAddr ∈ client.subscribers) :
    (client.subscribe call.sockAddr call.topic).1 = .error .futureAlreadyRetrieved := by
  obtain ⟨space, found⟩ := Option.isSome_iff_exists.mp (AList.lookup_isSome.mpr taken)
  have retrieved : space.exitSignal.retrieved = true := by
    rw [(keyed.runs call.sockAddr space found).2]
  have thrown : launch client.subscribers call.topic call.sockAddr .sub
      (.subscriber call.sockAddr call.topic) = _ :=
    launch_clash (AList.lookup_eq_none.mpr unknown) found retrieved
  simp only [ZmqControlClient.subscribe, ZmqControlClient.onRegistry, ZmqControlClient.registry,
    thrown]

/-- A new topic at another address is subscribed to and then not found by its topic. -/
theorem cancel_misses (unknown : call.topic ∉ client.subscribers)
    (fresh : call.sockAddr ∉ client.subscribers) (different : call.sockAddr ≠ call.topic) :
    (client.subscribeStep call).Subscribed call.topic ∧
      ((client.subscribeStep call).cancelSubscription call.topic).1 = .ok false := by
  rw [ZmqControlClient.subscribeStep, subscribe_fresh unknown fresh]
  constructor
  · refine ⟨call.sockAddr, ?_⟩
    rw [subscriptions_fresh fresh started_runs]
    exact List.mem_cons_self
  · have absent : (client.subscribers.insert call.sockAddr
        (.started (.subscriber call.sockAddr call.topic))).lookup call.topic = none := by
      rw [AList.lookup_insert_ne different.symm]
      exact AList.lookup_eq_none.mpr unknown
    simp only [ZmqControlClient.cancelSubscription, ZmqControlClient.onRegistry,
      ZmqControlClient.registry, cancel_absent absent]

theorem Keyed.rule_iff (keyed : Keyed client named) :
    SubscriptionRule client call ↔ (call.topic ∉ named → call.sockAddr = call.topic) := by
  have subscribed : client.Subscribed call.topic ↔ call.topic ∈ named :=
    keyed.subscribed_iff.trans (keyed.named call.topic)
  constructor
  · intro rule new
    by_contra different
    have unknown : call.topic ∉ client.subscribers := fun member =>
      new ((keyed.named call.topic).mp member)
    by_cases taken : call.sockAddr ∈ client.subscribers
    · have result := (rule.accepted fun known => new (subscribed.mp known)).1
      rw [keyed.clashes unknown taken] at result
      contradiction
    · obtain ⟨started, missed⟩ := cancel_misses unknown taken different
      have result := (rule.cancels call.topic started).1
      rw [missed] at result
      contradiction
  · intro addressed
    have after := keyed.step addressed
    refine ⟨fun known => keyed.refuses (subscribed.mp known), ?_,
      fun topic started => after.cancels started⟩
    intro new
    have unknown : call.topic ∉ client.subscribers := fun member =>
      new (keyed.subscribed_iff.mpr member)
    have same := addressed fun known => new (subscribed.mpr known)
    have fresh : call.sockAddr ∉ client.subscribers := same ▸ unknown
    rw [ZmqControlClient.subscribeStep, subscribe_fresh unknown fresh]
    refine ⟨rfl, ?_⟩
    rw [subscriptions_fresh fresh started_runs]

theorem rule_run_iff (keyed : Keyed client named) (calls : List SubscribeCall) :
    Run.EachStep ZmqControlClient.subscribeStep SubscriptionRule client calls ↔
      AddressedByTopic named calls := by
  induction calls generalizing client named with
  | nil => exact Iff.rfl
  | cons call rest ih =>
      constructor
      · intro kept
        obtain ⟨first, later⟩ := kept
        have addressed := keyed.rule_iff.mp first
        exact ⟨addressed, (ih (keyed.step addressed)).mp later⟩
      · intro addressed
        obtain ⟨addressed, later⟩ := addressed
        exact ⟨keyed.rule_iff.mpr addressed, (ih (keyed.step addressed)).mpr later⟩

/-- Subscriptions keep their promise over a run of calls exactly when the first
call for each topic gives the topic as its address. -/
theorem subscriptions_kept_iff (calls : List SubscribeCall) :
    Run.EachStep ZmqControlClient.subscribeStep SubscriptionRule ZmqControlClient.create calls ↔
      AddressedByTopic [] calls :=
  rule_run_iff keyed_create calls

/-- Two topics at one address: the second call throws, and the first subscription
cannot be cancelled by its topic. -/
theorem two_topics_at_one_address :
    let first : SubscribeCall := { sockAddr := "tcp://localhost:5571", topic := "cmd_vel" }
    let second : SubscribeCall := { sockAddr := "tcp://localhost:5571", topic := "localizer" }
    let client := ZmqControlClient.create.subscribeStep first
    (client.subscribe second.sockAddr second.topic).1 = .error .futureAlreadyRetrieved ∧
      (client.cancelSubscription first.topic).1 = .ok false ∧
      ¬ Run.EachStep ZmqControlClient.subscribeStep SubscriptionRule ZmqControlClient.create
        [first, second] := by
  refine ⟨by decide, by decide, ?_⟩
  intro rule
  obtain ⟨rule, -⟩ := rule
  have result := (rule.cancels "cmd_vel" ⟨"tcp://localhost:5571", by decide⟩).1
  exact absurd result (by decide)

end Runs

end Sentinet.Control
