import Mathlib.Data.Finset.Prod
import Sentinet.Data.Run
import Sentinet.Control.ZmqControlClient

namespace Sentinet.Control

open Sentinet.Data

/-! The life of workers over runs of calls, against what the calls promise: a
name can be started when no worker runs under it and cancelled when one does. -/

inductive Call where
  | publish (sockAddr topic : String)
  | request (destination id : String)
  | serve (address : String)
  | bindServer (address : String)
  | cancelPeriodicPublisher (reference : String)
  | cancelPeriodicRequest (reference : String) (unanswered : Bool)
  | terminateServer (reference : String)
  | quit (order : IterationOrder) (unanswered : String → Bool)

def ZmqControlClient.call (client : ZmqControlClient) : Call → Except Fault Bool × ZmqControlClient
  | .publish sockAddr topic => client.publish sockAddr topic
  | .request destination id => client.request destination id
  | .serve address => client.serve address
  | .bindServer address => client.bindServer address
  | .cancelPeriodicPublisher reference => client.cancelPeriodicPublisher reference
  | .cancelPeriodicRequest reference unanswered => client.cancelPeriodicRequest reference unanswered
  | .terminateServer reference => client.terminateServer reference
  | .quit order unanswered => client.quit order unanswered

/-! The promise, on the set of names that workers run under. -/

abbrev Running := Finset (Pattern × String)

namespace Running

def start (running : Running) (name : Pattern × String) : Except Fault Bool × Running :=
  if name ∈ running then (.ok false, running) else (.ok true, insert name running)

def cancel (running : Running) (name : Pattern × String) : Except Fault Bool × Running :=
  if name ∈ running then (.ok true, running.erase name) else (.ok false, running)

def call (running : Running) : Call → Except Fault Bool × Running
  | .publish sockAddr _ => running.start (.periodicPublisher, sockAddr)
  | .request _ id => running.start (.periodicClient, id)
  | .serve address => running.start (.server, address)
  | .bindServer address => running.start (.server, address)
  | .cancelPeriodicPublisher reference => running.cancel (.periodicPublisher, reference)
  | .cancelPeriodicRequest reference _ => running.cancel (.periodicClient, reference)
  | .terminateServer reference => running.cancel (.server, reference)
  | .quit _ _ => (.ok true, ∅)

end Running

/-- The entry under this name is one whose worker was told to leave before. -/
def ZmqControlClient.Spent (client : ZmqControlClient) (pattern : Pattern) (key : String) : Prop :=
  ∃ space, (client.registry pattern).lookup key = some space ∧ space.Stopped

/-- A requester runs under this name and waits for a reply that never comes. -/
def ZmqControlClient.Waits (client : ZmqControlClient) (pattern : Pattern) (key : String)
    (unanswered : Bool) : Prop :=
  unanswered = true ∧ ∃ space server,
    (client.registry pattern).lookup key = some space ∧ space.Runs (.requester server)

/-- The call names no spent entry and joins no requester that waits for a reply that
never comes, and `quit` finds neither. -/
def KeepsClear (client : ZmqControlClient) : Call → Prop
  | .publish sockAddr _ => ¬ client.Spent .periodicPublisher sockAddr
  | .request _ id => ¬ client.Spent .periodicClient id
  | .serve address => ¬ client.Spent .server address
  | .bindServer address => ¬ client.Spent .server address
  | .cancelPeriodicPublisher reference => ¬ client.Spent .periodicPublisher reference
  | .cancelPeriodicRequest reference unanswered =>
      ¬ client.Spent .periodicClient reference ∧ ¬ client.Waits .periodicClient reference unanswered
  | .terminateServer reference => ¬ client.Spent .server reference
  | .quit _ unanswered => ∀ pattern key,
      ¬ client.Spent pattern key ∧ ¬ client.Waits pattern key (unanswered key)

structure Tracks (client : ZmqControlClient) (running : Running) : Prop where
  sound : ∀ pattern, Registry.Sound (client.registry pattern)
  running : ∀ pattern key, (pattern, key) ∈ running ↔
    ∃ space worker, (client.registry pattern).lookup key = some space ∧ space.Runs worker

section Agreement

variable {client : ZmqControlClient} {running : Running} {pattern : Pattern} {key : String}
  {space : SocketThreadSpace} {type : SocketType} {worker : Worker} {unanswered : Bool}

theorem not_waits_answered : ¬ client.Waits pattern key false := by
  intro waits
  cases waits.1

theorem waits_iff (found : (client.registry pattern).lookup key = some space)
    (runs : space.Runs worker) :
    client.Waits pattern key unanswered ↔ worker.waits unanswered = true := by
  constructor
  · intro waits
    obtain ⟨silent, other, server, present, requests⟩ := waits
    obtain rfl := Option.some.inj (found.symm.trans present)
    have same := runs.1.symm.trans requests.1
    simp only [Option.some.injEq, Thread.mk.injEq, and_true] at same
    rw [same]
    exact silent
  · intro waits
    cases worker with
    | requester server => exact ⟨waits, space, server, found, runs⟩
    | publisher sockAddr topic => contradiction
    | subscriber sockAddr topic => contradiction
    | server address bound => contradiction

theorem not_waits_of_not_running (tracks : Tracks client running)
    (idle : (pattern, key) ∉ running) : ¬ client.Waits pattern key unanswered := by
  intro waits
  obtain ⟨_, space, server, found, runs⟩ := waits
  exact idle ((tracks.running pattern key).mpr ⟨space, .requester server, found, runs⟩)

theorem tracks_create : Tracks ZmqControlClient.create ∅ := by
  constructor
  · intro pattern key space found
    cases pattern <;> contradiction
  · intro pattern key
    refine iff_of_false (Finset.notMem_empty _) ?_
    intro runner
    obtain ⟨space, worker, found, _⟩ := runner
    cases pattern <;> contradiction

theorem Tracks.insert_sound (tracks : Tracks client running) (entry : space.Sound)
    (other : Pattern) :
    Registry.Sound
      ((client.assign ((client.registry pattern).insert key space) pattern).registry other) := by
  intro name found present
  rw [ZmqControlClient.lookup_assign_insert] at present
  split at present
  · exact Option.some.inj present ▸ entry
  · exact tracks.sound other name found present

theorem Tracks.insert_started (tracks : Tracks client running) (runs : space.Runs worker) :
    Tracks (client.assign ((client.registry pattern).insert key space) pattern)
      (insert (pattern, key) running) := by
  refine ⟨tracks.insert_sound (.inl ⟨worker, runs⟩), ?_⟩
  intro other name
  rw [Finset.mem_insert, ZmqControlClient.lookup_assign_insert, tracks.running other name]
  split
  · rename_i same
    exact iff_of_true (.inl same) ⟨space, worker, rfl, runs⟩
  · rename_i different
    simp only [different, false_or]

theorem Tracks.insert_spent (tracks : Tracks client running) (stopped : space.Stopped) :
    Tracks (client.assign ((client.registry pattern).insert key space) pattern)
      (running.erase (pattern, key)) := by
  refine ⟨tracks.insert_sound (.inr stopped), ?_⟩
  intro other name
  rw [Finset.mem_erase, ZmqControlClient.lookup_assign_insert, tracks.running other name]
  split
  · rename_i same
    refine iff_of_false (fun kept => kept.1 same) ?_
    intro runner
    obtain ⟨found, _, present, runs⟩ := runner
    exact SocketThreadSpace.not_stopped_of_runs runs (Option.some.inj present ▸ stopped)
  · rename_i different
    simp only [ne_eq, different, not_false_eq_true, true_and]

theorem Tracks.entry (tracks : Tracks client running) (pattern : Pattern) (key : String) :
    ((client.registry pattern).lookup key = none ∧ (pattern, key) ∉ running ∧
        ¬ client.Spent pattern key) ∨
      (∃ space worker, (client.registry pattern).lookup key = some space ∧ space.Runs worker ∧
        (pattern, key) ∈ running ∧ ¬ client.Spent pattern key) ∨
      (∃ space, (client.registry pattern).lookup key = some space ∧ space.Stopped ∧
        (pattern, key) ∉ running ∧ client.Spent pattern key) := by
  cases found : (client.registry pattern).lookup key with
  | none =>
      refine .inl ⟨rfl, fun member => ?_, fun spent => ?_⟩
      · obtain ⟨space, worker, present, _⟩ := (tracks.running pattern key).mp member
        rw [found] at present
        contradiction
      · obtain ⟨space, present, _⟩ := spent
        rw [found] at present
        contradiction
  | some space =>
      rcases tracks.sound pattern key space found with ⟨worker, runs⟩ | stopped
      · refine .inr (.inl ⟨space, worker, rfl, runs, ?_, ?_⟩)
        · exact (tracks.running pattern key).mpr ⟨space, worker, found, runs⟩
        · intro spent
          obtain ⟨other, present, stopped⟩ := spent
          rw [found] at present
          exact SocketThreadSpace.not_stopped_of_runs runs (Option.some.inj present ▸ stopped)
      · refine .inr (.inr ⟨space, rfl, stopped, fun member => ?_, ⟨space, found, stopped⟩⟩)
        obtain ⟨other, worker, present, runs⟩ := (tracks.running pattern key).mp member
        rw [found] at present
        exact SocketThreadSpace.not_stopped_of_runs (Option.some.inj present ▸ runs) stopped

theorem launch_agrees (tracks : Tracks client running) :
    (client.onRegistry pattern fun map => launch map key key type worker).1 =
        (running.start (pattern, key)).1 ↔
      ¬ client.Spent pattern key := by
  rw [ZmqControlClient.onRegistry_result]
  rcases tracks.entry pattern key with
    ⟨absent, idle, unspent⟩ | ⟨space, _, found, _, busy, unspent⟩ | ⟨space, found, _, idle, spent⟩
  · simp [launch_fresh absent absent, Running.start, idle, unspent]
  · simp [launch_found found, Running.start, busy, unspent]
  · simp [launch_found found, Running.start, idle, spent]

theorem launch_tracks (tracks : Tracks client running) (unspent : ¬ client.Spent pattern key) :
    Tracks (client.onRegistry pattern fun map => launch map key key type worker).2
      (running.start (pattern, key)).2 := by
  rcases tracks.entry pattern key with
    ⟨absent, idle, _⟩ | ⟨space, _, found, _, busy, _⟩ | ⟨space, found, _, _, spent⟩
  · simp only [ZmqControlClient.onRegistry, launch_fresh absent absent, Running.start, idle,
      if_false]
    exact tracks.insert_started started_runs
  · simp only [ZmqControlClient.onRegistry, launch_found found, Running.start, busy, if_true,
      ZmqControlClient.assign_registry]
    exact tracks
  · exact absurd spent unspent

theorem cancel_agrees (tracks : Tracks client running) (unanswered : Bool) :
    (client.onRegistry pattern fun map => cancel map key unanswered).1 =
        (running.cancel (pattern, key)).1 ↔
      ¬ client.Spent pattern key ∧ ¬ client.Waits pattern key unanswered := by
  rw [ZmqControlClient.onRegistry_result]
  rcases tracks.entry pattern key with
    ⟨absent, idle, unspent⟩ | ⟨space, worker, found, runs, busy, unspent⟩ |
      ⟨space, found, stopped, idle, spent⟩
  · have answered : ¬ client.Waits pattern key unanswered := not_waits_of_not_running tracks idle
    simp [cancel_absent absent, Running.cancel, idle, unspent, answered]
  · rw [waits_iff found runs]
    cases waits : worker.waits unanswered with
    | false => simp [cancel_running found runs waits, Running.cancel, busy, unspent]
    | true => simp [cancel_waiting found runs waits, Running.cancel, busy]
  · simp [cancel_stopped found stopped, Running.cancel, idle, spent]

theorem cancel_agrees_answered (tracks : Tracks client running) :
    (client.onRegistry pattern fun map => cancel map key false).1 =
        (running.cancel (pattern, key)).1 ↔
      ¬ client.Spent pattern key :=
  (cancel_agrees tracks false).trans (and_iff_left not_waits_answered)

theorem cancel_tracks (tracks : Tracks client running) (unspent : ¬ client.Spent pattern key)
    (answered : ¬ client.Waits pattern key unanswered) :
    Tracks (client.onRegistry pattern fun map => cancel map key unanswered).2
      (running.cancel (pattern, key)).2 := by
  rcases tracks.entry pattern key with
    ⟨absent, idle, _⟩ | ⟨space, worker, found, runs, busy, _⟩ | ⟨space, found, _, _, spent⟩
  · simp only [ZmqControlClient.onRegistry, cancel_absent absent, Running.cancel, idle, if_false,
      ZmqControlClient.assign_registry]
    exact tracks
  · have leaves : worker.waits unanswered = false := by
      rw [waits_iff found runs] at answered
      exact Bool.eq_false_iff.mpr answered
    simp only [ZmqControlClient.onRegistry, cancel_running found runs leaves, Running.cancel, busy,
      if_true]
    exact tracks.insert_spent stop_stopped
  · exact absurd spent unspent

end Agreement

section Quit

variable {client : ZmqControlClient} {running : Running} {order : IterationOrder}
  {patterns : List Pattern} {unanswered : String → Bool}

theorem assign_sound (sound : ∀ pattern, Registry.Sound (client.registry pattern))
    {map : Registry} (replaced : Registry.Sound map) (pattern other : Pattern) :
    Registry.Sound ((client.assign map pattern).registry other) := by
  by_cases same : other = pattern
  · subst other
    rw [ZmqControlClient.registry_assign]
    exact replaced
  · rw [ZmqControlClient.registry_assign_ne same]
    exact sound other

theorem IterationOrder.mem_keys (order : IterationOrder) {map : Registry} {key : String}
    {space : SocketThreadSpace} (found : map.lookup key = some space) : key ∈ order.keys map := by
  rw [(order.visits map).mem_iff]
  exact AList.lookup_isSome.mp (by rw [found]; rfl)

theorem quitPatterns_fails (order : IterationOrder)
    (sound : ∀ pattern, Registry.Sound (client.registry pattern))
    {pattern : Pattern} {key : String} (member : pattern ∈ patterns)
    (stuck : client.Spent pattern key ∨ client.Waits pattern key (unanswered key)) :
    ∃ fault, (ZmqControlClient.quitPatterns order unanswered patterns client).1 = .error fault := by
  induction patterns generalizing client with
  | nil => contradiction
  | cons head rest ih =>
      have kept : Registry.Sound
          (cancelAll (client.registry head) unanswered (order.keys (client.registry head))).2 :=
        cancelAll_sound (sound head) (order.keys (client.registry head))
      cases loop :
          cancelAll (client.registry head) unanswered (order.keys (client.registry head)) with
      | mk result map =>
          rw [loop] at kept
          cases result with
          | error fault => exact ⟨fault, by simp only [ZmqControlClient.quitPatterns, loop]⟩
          | ok done =>
              have different : pattern ≠ head := by
                intro same
                subst same
                have failed : ∃ fault, (cancelAll (client.registry pattern) unanswered
                    (order.keys (client.registry pattern))).1 = .error fault := by
                  rcases stuck with ⟨space, found, stopped⟩ | ⟨silent, space, server, found, runs⟩
                  · have spent : space.Stopped ∨ space.Runs (.requester "") ∧
                        (Worker.requester "").waits (unanswered key) = true := .inl stopped
                    exact cancelAll_fails (sound pattern) (order.mem_keys found) found spent
                  · exact cancelAll_fails (sound pattern) (order.mem_keys found) found
                      (.inr ⟨runs, silent⟩)
                obtain ⟨fault, failed⟩ := failed
                rw [loop] at failed
                contradiction
              simp only [ZmqControlClient.quitPatterns, loop]
              refine ih (assign_sound sound kept head)
                ((List.mem_cons.mp member).resolve_left different) ?_
              rw [ZmqControlClient.Spent, ZmqControlClient.Waits,
                ZmqControlClient.registry_assign_ne different]
              exact stuck

theorem spent_assign_of_ne {map : Registry} {pattern other : Pattern} {key : String}
    (different : other ≠ pattern) :
    (client.assign map pattern).Spent other key ↔ client.Spent other key := by
  rw [ZmqControlClient.Spent, ZmqControlClient.registry_assign_ne different, ZmqControlClient.Spent]

theorem waits_assign_of_ne {map : Registry} {pattern other : Pattern} {key : String}
    {unanswered : Bool} (different : other ≠ pattern) :
    (client.assign map pattern).Waits other key unanswered ↔
      client.Waits other key unanswered := by
  rw [ZmqControlClient.Waits, ZmqControlClient.registry_assign_ne different, ZmqControlClient.Waits]

/-- One pattern's loop: all of its workers run before and none does afterwards. -/
theorem cancelAll_visits (order : IterationOrder) {pattern : Pattern}
    (sound : Registry.Sound (client.registry pattern))
    (clear : ∀ key, ¬ client.Spent pattern key ∧ ¬ client.Waits pattern key (unanswered key)) :
    ∃ map, cancelAll (client.registry pattern) unanswered
        (order.keys (client.registry pattern)) = (.ok (), map) ∧
      Registry.Sound map ∧ ∀ key space, map.lookup key = some space → space.Stopped := by
  have visited : (order.keys (client.registry pattern)).Nodup :=
    (order.visits _).nodup_iff.mpr (AList.keys_nodup _)
  have running : ∀ key ∈ order.keys (client.registry pattern), ∃ space worker,
      (client.registry pattern).lookup key = some space ∧ space.Runs worker ∧
        worker.waits (unanswered key) = false := by
    intro key member
    have present : key ∈ client.registry pattern := (order.visits _).mem_iff.mp member
    obtain ⟨space, found⟩ := Option.isSome_iff_exists.mp (AList.lookup_isSome.mpr present)
    rcases sound key space found with ⟨worker, runs⟩ | stopped
    · have leaves := (waits_iff found runs).not.mp (clear key).2
      exact ⟨space, worker, found, runs, Bool.eq_false_iff.mpr leaves⟩
    · exact absurd ⟨space, found, stopped⟩ (clear key).1
  obtain ⟨result, entries⟩ := cancelAll_stops visited running
  have kept : Registry.Sound
      (cancelAll (client.registry pattern) unanswered (order.keys (client.registry pattern))).2 :=
    cancelAll_sound sound (order.keys (client.registry pattern))
  refine ⟨_, Prod.ext result rfl, kept, ?_⟩
  intro key space found
  by_cases visit : key ∈ order.keys (client.registry pattern)
  · obtain ⟨other, present, stopped⟩ := (entries key).1 visit
    rw [found] at present
    exact Option.some.inj present ▸ stopped
  · rw [(entries key).2 visit] at found
    exact absurd (order.mem_keys found) visit

theorem quitPatterns_stops (distinct : patterns.Nodup)
    (sound : ∀ pattern, Registry.Sound (client.registry pattern))
    (clear : ∀ pattern ∈ patterns, ∀ key,
      ¬ client.Spent pattern key ∧ ¬ client.Waits pattern key (unanswered key)) :
    (ZmqControlClient.quitPatterns order unanswered patterns client).1 = .ok true ∧ ∀ pattern,
      (pattern ∈ patterns → ∀ key space,
        ((ZmqControlClient.quitPatterns order unanswered patterns client).2.registry pattern).lookup key =
          some space → space.Stopped) ∧
      (pattern ∉ patterns →
        (ZmqControlClient.quitPatterns order unanswered patterns client).2.registry pattern =
          client.registry pattern) := by
  induction patterns generalizing client with
  | nil => exact ⟨rfl, fun pattern => ⟨fun member => by contradiction, fun _ => rfl⟩⟩
  | cons head rest ih =>
      obtain ⟨fresh, restDistinct⟩ := List.nodup_cons.mp distinct
      obtain ⟨map, loop, kept, stopped⟩ :=
        cancelAll_visits order (sound head) (clear head List.mem_cons_self)
      simp only [ZmqControlClient.quitPatterns, loop]
      have restClear : ∀ pattern ∈ rest, ∀ key,
          ¬ (client.assign map head).Spent pattern key ∧
            ¬ (client.assign map head).Waits pattern key (unanswered key) := by
        intro pattern member key
        have different : pattern ≠ head := fun same => fresh (same ▸ member)
        rw [spent_assign_of_ne different, waits_assign_of_ne different]
        exact clear pattern (List.mem_cons_of_mem head member) key
      obtain ⟨restResult, registries⟩ :=
        ih restDistinct (assign_sound sound kept head) restClear
      refine ⟨restResult, fun pattern => ⟨fun member => ?_, fun outside => ?_⟩⟩
      · by_cases same : pattern = head
        · subst pattern
          rw [(registries head).2 fresh, ZmqControlClient.registry_assign]
          exact stopped
        · exact (registries pattern).1 ((List.mem_cons.mp member).resolve_left same)
      · rw [List.mem_cons, not_or] at outside
        rw [(registries pattern).2 outside.2, ZmqControlClient.registry_assign_ne outside.1]

theorem quit_agrees (tracks : Tracks client running) :
    (client.quit order unanswered).1 = .ok true ↔ ∀ pattern key,
      ¬ client.Spent pattern key ∧ ¬ client.Waits pattern key (unanswered key) := by
  constructor
  · intro result pattern key
    rw [← not_or]
    intro stuck
    have visited : pattern ∈ [.subscriber, .server, .periodicPublisher, .periodicClient] := by
      cases pattern <;> decide
    obtain ⟨fault, failed⟩ := quitPatterns_fails order tracks.sound visited stuck
    rw [ZmqControlClient.quit, failed] at result
    contradiction
  · intro clear
    exact (quitPatterns_stops (by decide) tracks.sound fun pattern _ => clear pattern).1

theorem quit_tracks (tracks : Tracks client running)
    (clear : ∀ pattern key,
      ¬ client.Spent pattern key ∧ ¬ client.Waits pattern key (unanswered key)) :
    Tracks (client.quit order unanswered).2 ∅ := by
  have stopped : ∀ pattern key space,
      ((client.quit order unanswered).2.registry pattern).lookup key = some space →
        space.Stopped := by
    intro pattern
    exact ((quitPatterns_stops (by decide) tracks.sound fun pattern _ => clear pattern).2
      pattern).1 (by cases pattern <;> decide)
  refine ⟨fun pattern key space found => .inr (stopped pattern key space found), ?_⟩
  intro pattern key
  refine iff_of_false (Finset.notMem_empty _) ?_
  intro runner
  obtain ⟨space, worker, found, runs⟩ := runner
  exact SocketThreadSpace.not_stopped_of_runs runs (stopped pattern key space found)

end Quit

section Lifecycle

variable {client : ZmqControlClient} {running : Running}

theorem call_agrees (call : Call) (tracks : Tracks client running) :
    (client.call call).1 = (running.call call).1 ↔ KeepsClear client call := by
  cases call with
  | publish sockAddr topic => exact launch_agrees tracks
  | request destination id => exact launch_agrees tracks
  | serve address => exact launch_agrees tracks
  | bindServer address => exact launch_agrees tracks
  | cancelPeriodicPublisher reference => exact cancel_agrees_answered tracks
  | cancelPeriodicRequest reference unanswered => exact cancel_agrees tracks unanswered
  | terminateServer reference => exact cancel_agrees_answered tracks
  | quit order unanswered => exact quit_agrees tracks

theorem call_tracks (call : Call) (tracks : Tracks client running)
    (clear : KeepsClear client call) :
    Tracks (client.call call).2 (running.call call).2 := by
  cases call with
  | publish sockAddr topic => exact launch_tracks tracks clear
  | request destination id => exact launch_tracks tracks clear
  | serve address => exact launch_tracks tracks clear
  | bindServer address => exact launch_tracks tracks clear
  | cancelPeriodicPublisher reference => exact cancel_tracks tracks clear not_waits_answered
  | cancelPeriodicRequest reference unanswered => exact cancel_tracks tracks clear.1 clear.2
  | terminateServer reference => exact cancel_tracks tracks clear not_waits_answered
  | quit order unanswered => exact quit_tracks tracks clear

/-- A run of calls is answered as promised, with no exception and every call
returning, exactly when no call names an entry whose worker was told to leave
before, none joins a requester whose reply never comes, and no `quit` finds either. -/
theorem lifecycle_kept_iff (calls : List Call) :
    Run.outputs ZmqControlClient.call ZmqControlClient.create calls =
        Run.outputs Running.call ∅ calls ↔
      Run.EachStep (fun client call => (client.call call).2) KeepsClear ZmqControlClient.create
        calls :=
  Run.outputs_eq_iff Tracks KeepsClear (fun _ _ call tracks => call_agrees call tracks)
    (fun _ _ call tracks clear => call_tracks call tracks clear) tracks_create calls

/-- A publisher cancelled twice and then started again: the second cancellation
throws and the name stays taken. -/
theorem publisher_cancelled_twice :
    Run.outputs ZmqControlClient.call ZmqControlClient.create
          [.publish "tcp://localhost:5555" "data", .cancelPeriodicPublisher "tcp://localhost:5555",
            .cancelPeriodicPublisher "tcp://localhost:5555",
            .publish "tcp://localhost:5555" "data"] =
        [.ok true, .ok true, .error .promiseAlreadySatisfied, .ok false] ∧
      Run.outputs ZmqControlClient.call ZmqControlClient.create
          [.publish "tcp://localhost:5555" "data", .cancelPeriodicPublisher "tcp://localhost:5555",
            .cancelPeriodicPublisher "tcp://localhost:5555",
            .publish "tcp://localhost:5555" "data"] ≠
        Run.outputs Running.call ∅
          [.publish "tcp://localhost:5555" "data", .cancelPeriodicPublisher "tcp://localhost:5555",
            .cancelPeriodicPublisher "tcp://localhost:5555",
            .publish "tcp://localhost:5555" "data"] := by
  decide

end Lifecycle

end Sentinet.Control
