import Mathlib.Data.List.AList
import Sentinet.Data.Run
import Sentinet.Network.PubSub

namespace Sentinet.Network

open Sentinet.Data

/-! `PipeInterface`: a table of proxies by id.  A lookup with `operator[]`
inserts an empty entry when there is none, and its proxy pointer is null. -/

/-- The calls that the interface makes on a proxy; it ignores what they return. -/
inductive ProxyCall where
  | stop
  | kill
  | signal (signalVal : Int)
  | registerSignal (signalVal : Int) (func : Unit → Int)
  | addFilter (filter : Frame → Frame)

inductive ProxyKind where
  | pubSub | reqRep
deriving DecidableEq, Repr

/-- A proxy, with the calls that reached it. -/
structure Proxy where
  kind : ProxyKind
  frontend : String
  backend : String
  received : List ProxyCall

def Proxy.receive (proxy : Proxy) (call : ProxyCall) : Proxy :=
  { proxy with received := proxy.received ++ [call] }

/-- `proxy_t`; `joinable` is that of its thread. -/
structure ProxyEntry where
  proxy : Option Proxy
  joinable : Bool

abbrev ProxyTable := AList fun _ : String => ProxyEntry

/-- How a call ends: with its result, or in a call through a null pointer. -/
inductive PipeOutcome where
  | returned (success : Bool)
  | nullProxy
deriving DecidableEq, Repr

namespace ProxyTable

/-- `proxies.proxies[id]` -/
def index (table : ProxyTable) (id : String) : ProxyEntry × ProxyTable :=
  match table.lookup id with
  | some entry => (entry, table)
  | none =>
      ({ proxy := none, joinable := false }, table.insert id { proxy := none, joinable := false })

/-- `proxies.proxies[id].proxy->call(); return true;` -/
def invoke (table : ProxyTable) (id : String) (call : ProxyCall) : PipeOutcome × ProxyTable :=
  let (entry, table) := index table id
  match entry.proxy with
  | none => (.nullProxy, table)
  | some proxy =>
      (.returned true, table.insert id { entry with proxy := some (proxy.receive call) })

/-- `if (t_space.joinable()) t_space.join();` -/
def join (table : ProxyTable) (id : String) : ProxyTable :=
  match table.lookup id with
  | some entry => table.insert id { entry with joinable := false }
  | none => table

/-- The loop of `stop()`, over the ids that are left. -/
def stopEach : List String → ProxyTable → PipeOutcome × ProxyTable
  | [], table => (.returned true, table)
  | id :: rest, table =>
      match invoke table id .stop with
      | (.nullProxy, table) => (.nullProxy, table)
      | (.returned _, table) => stopEach rest (join table id)

def stop (table : ProxyTable) : PipeOutcome × ProxyTable := stopEach table.keys table

def createEndpoint (table : ProxyTable) (kind : ProxyKind) (id frontend backend : String) :
    PipeOutcome × ProxyTable :=
  match table.lookup id with
  | some _ => (.returned false, table)
  | none =>
      let proxy := { kind, frontend, backend, received := [] }
      (.returned true, table.insert id { proxy := some proxy, joinable := true })

def createPubSubEndpoint (table : ProxyTable) (id frontend backend : String) :
    PipeOutcome × ProxyTable :=
  createEndpoint table .pubSub id frontend backend

def createReqRepEndpoint (table : ProxyTable) (id frontend backend : String) :
    PipeOutcome × ProxyTable :=
  createEndpoint table .reqRep id frontend backend

/-- The guard that most operations share: it sends away the ids it finds. -/
def invertedCall (table : ProxyTable) (id : String) (call : ProxyCall) :
    PipeOutcome × ProxyTable :=
  match table.lookup id with
  | some _ => (.returned false, table)
  | none => invoke table id call

def stopId (table : ProxyTable) (id : String) : PipeOutcome × ProxyTable :=
  invertedCall table id .stop

/-- With this guard no `kill`, which would end the process, ever gets to a proxy. -/
def killId (table : ProxyTable) (id : String) : PipeOutcome × ProxyTable :=
  invertedCall table id .kill

def signal (table : ProxyTable) (id : String) (signalVal : Int) : PipeOutcome × ProxyTable :=
  invertedCall table id (.signal signalVal)

def registerSignal (table : ProxyTable) (id : String) (signalVal : Int) (func : Unit → Int) :
    PipeOutcome × ProxyTable :=
  invertedCall table id (.registerSignal signalVal func)

/-- The one guard that is the right way round. -/
def setFilter (table : ProxyTable) (id : String) (filter : Frame → Frame) :
    PipeOutcome × ProxyTable :=
  match table.lookup id with
  | none => (.returned false, table)
  | some _ => invoke table id (.addFilter filter)

end ProxyTable

inductive PipeCall where
  | createPubSubEndpoint (id frontend backend : String)
  | createReqRepEndpoint (id frontend backend : String)
  | stop
  | stopId (id : String)
  | killId (id : String)
  | signal (id : String) (signalVal : Int)
  | registerSignal (id : String) (signalVal : Int) (func : Unit → Int)
  | setFilter (id : String) (filter : Frame → Frame)

namespace PipeCall

def run (table : ProxyTable) : PipeCall → PipeOutcome × ProxyTable
  | .createPubSubEndpoint id frontend backend => table.createPubSubEndpoint id frontend backend
  | .createReqRepEndpoint id frontend backend => table.createReqRepEndpoint id frontend backend
  | .stop => table.stop
  | .stopId id => table.stopId id
  | .killId id => table.killId id
  | .signal id signalVal => table.signal id signalVal
  | .registerSignal id signalVal func => table.registerSignal id signalVal func
  | .setFilter id filter => table.setFilter id filter

def creates : PipeCall → List String
  | .createPubSubEndpoint id _ _ => [id]
  | .createReqRepEndpoint id _ _ => [id]
  | _ => []

def target : PipeCall → Option (String × ProxyCall)
  | .stopId id => some (id, .stop)
  | .killId id => some (id, .kill)
  | .signal id signalVal => some (id, .signal signalVal)
  | .registerSignal id signalVal func => some (id, .registerSignal signalVal func)
  | .setFilter id filter => some (id, .addFilter filter)
  | _ => none

def isInverted : PipeCall → Bool
  | .stopId _ => true
  | .killId _ => true
  | .signal _ _ => true
  | .registerSignal _ _ _ => true
  | _ => false

end PipeCall

structure PipeHistory where
  table : ProxyTable
  created : List String

namespace PipeHistory

def start : PipeHistory := { table := ∅, created := [] }

def step (history : PipeHistory) (call : PipeCall) : PipeHistory where
  table := (call.run history.table).2
  created := history.created ++ call.creates

/-- A call reached its proxy, and changed no other entry. -/
def Reached (before after : ProxyTable) (id : String) (call : ProxyCall) : Prop :=
  (∃ proxy joinable, before.lookup id = some { proxy := some proxy, joinable } ∧
    after.lookup id = some { proxy := some (proxy.receive call), joinable }) ∧
  ∀ other ≠ id, after.lookup other = before.lookup other

def NoNull (table : ProxyTable) : Prop :=
  ∀ id entry, table.lookup id = some entry → entry.proxy.isSome

structure Dependable (history : PipeHistory) (call : PipeCall) : Prop where
  reaches : ∀ id request, call.target = some (id, request) → id ∈ history.created →
    (call.run history.table).1 = .returned true ∧
      Reached history.table (call.run history.table).2 id request
  refuses : ∀ id request, call.target = some (id, request) → id ∉ history.created →
    call.run history.table = (.returned false, history.table)
  returns : (call.run history.table).1 ≠ .nullProxy
  noNull : NoNull (call.run history.table).2

/-- A step that leaves every id with a proxy, and no further id with anything. -/
structure Keeps (before after : ProxyTable) : Prop where
  noNull : NoNull after
  known : ∀ id, after.lookup id = none ↔ before.lookup id = none

/-- The table holds a proxy for every created id, and nothing else. -/
structure Valid (history : PipeHistory) : Prop where
  known : ∀ id, history.table.lookup id = none ↔ id ∉ history.created
  noNull : NoNull history.table

section Table

variable {table : ProxyTable} {id : String} {proxy : Proxy} {joinable : Bool} {entry : ProxyEntry}
  {call : ProxyCall}

theorem invoke_present (present : table.lookup id = some { proxy := some proxy, joinable }) :
    table.invoke id call = (.returned true,
      table.insert id { proxy := some (proxy.receive call), joinable }) := by
  simp only [ProxyTable.invoke, ProxyTable.index, present]

theorem invoke_absent (absent : table.lookup id = none) :
    table.invoke id call = (.nullProxy, table.insert id { proxy := none, joinable := false }) := by
  simp only [ProxyTable.invoke, ProxyTable.index, absent]

theorem noNull_insert (noNull : NoNull table) (held : entry.proxy.isSome) :
    NoNull (table.insert id entry) := by
  intro other found looked
  by_cases same : other = id
  · subst other
    rw [AList.lookup_insert, Option.some.injEq] at looked
    exact looked ▸ held
  · rw [AList.lookup_insert_ne same] at looked
    exact noNull other found looked

theorem keeps_insert (noNull : NoNull table) (known : table.lookup id ≠ none)
    (held : entry.proxy.isSome) : Keeps table (table.insert id entry) := by
  refine ⟨noNull_insert noNull held, ?_⟩
  intro other
  by_cases same : other = id
  · subst other
    simp [known]
  · rw [AList.lookup_insert_ne same]

theorem Keeps.trans {first second third : ProxyTable} (front : Keeps first second)
    (back : Keeps second third) : Keeps first third :=
  ⟨back.noNull, fun other => (back.known other).trans (front.known other)⟩

theorem lookup_cases (noNull : NoNull table) (id : String) :
    table.lookup id = none ∨
      ∃ proxy joinable, table.lookup id = some { proxy := some proxy, joinable } := by
  cases looked : table.lookup id with
  | none => exact Or.inl rfl
  | some entry =>
      obtain ⟨proxy, joinable⟩ := entry
      obtain ⟨proxy, rfl⟩ := Option.isSome_iff_exists.mp (noNull id _ looked)
      exact Or.inr ⟨proxy, joinable, rfl⟩

theorem reached_insert (present : table.lookup id = some { proxy := some proxy, joinable }) :
    Reached table (table.insert id { proxy := some (proxy.receive call), joinable }) id call := by
  refine ⟨⟨proxy, joinable, present, AList.lookup_insert table⟩, ?_⟩
  intro other different
  exact AList.lookup_insert_ne different

theorem invoke_keeps (noNull : NoNull table) (known : table.lookup id ≠ none)
    (call : ProxyCall) :
    ∃ after, table.invoke id call = (.returned true, after) ∧ Keeps table after ∧
      Reached table after id call := by
  obtain ⟨proxy, joinable, present⟩ := (lookup_cases noNull id).resolve_left known
  exact ⟨_, invoke_present present, keeps_insert noNull known rfl, reached_insert present⟩

theorem join_keeps (noNull : NoNull table) (id : String) : Keeps table (table.join id) := by
  unfold ProxyTable.join
  cases looked : table.lookup id with
  | none => exact ⟨noNull, fun _ => Iff.rfl⟩
  | some entry =>
      have held : entry.proxy.isSome := noNull id entry looked
      exact keeps_insert noNull (by rw [looked]; simp) held

theorem stopEach_safe {ids : List String} (noNull : NoNull table)
    (known : ∀ id ∈ ids, table.lookup id ≠ none) :
    (ProxyTable.stopEach ids table).1 = .returned true ∧
      Keeps table (ProxyTable.stopEach ids table).2 := by
  induction ids generalizing table with
  | nil => exact ⟨rfl, noNull, fun _ => Iff.rfl⟩
  | cons id rest ih =>
      obtain ⟨first, later⟩ := List.forall_mem_cons.mp known
      obtain ⟨stopped, called, halted, -⟩ := invoke_keeps noNull first .stop
      -- Stopping and joining replace entries only, so the later ids stay known.
      have both := halted.trans (join_keeps halted.noNull id)
      obtain ⟨outcome, kept⟩ := ih both.noNull (fun other member absent =>
        later other member ((both.known other).mp absent))
      simp only [ProxyTable.stopEach, called]
      exact ⟨outcome, both.trans kept⟩

theorem stop_safe (noNull : NoNull table) :
    table.stop.1 = .returned true ∧ Keeps table table.stop.2 := by
  refine stopEach_safe noNull ?_
  intro id member absent
  exact AList.lookup_eq_none.mp absent (AList.mem_keys.mpr member)

end Table

section Calls

variable {history : PipeHistory} {call : PipeCall} {calls : List PipeCall}

theorem createEndpoint_valid (valid : Valid history) (kind : ProxyKind)
    (id frontend backend : String) :
    (history.table.createEndpoint kind id frontend backend).1 ≠ .nullProxy ∧
      NoNull (history.table.createEndpoint kind id frontend backend).2 ∧
      ∀ other, (history.table.createEndpoint kind id frontend backend).2.lookup other = none ↔
        other ∉ history.created ++ [id] := by
  unfold ProxyTable.createEndpoint
  cases looked : history.table.lookup id with
  | some entry =>
      have created : id ∈ history.created := by
        by_contra unknown
        rw [(valid.known id).mpr unknown] at looked
        contradiction
      refine ⟨by simp, valid.noNull, ?_⟩
      intro other
      rw [valid.known, List.mem_append, List.mem_singleton, not_or]
      constructor
      · intro unknown
        exact ⟨unknown, fun same => unknown (same ▸ created)⟩
      · exact And.left
  | none =>
      refine ⟨by simp, noNull_insert valid.noNull rfl, ?_⟩
      intro other
      rw [List.mem_append, List.mem_singleton, not_or, ← valid.known other]
      by_cases same : other = id
      · subst other
        simp
      · simp [AList.lookup_insert_ne same, same]

theorem dependable_of_untargeted (untargeted : call.target = none)
    (returns : (call.run history.table).1 ≠ .nullProxy)
    (noNull : NoNull (call.run history.table).2) : Dependable history call := by
  refine ⟨?_, ?_, returns, noNull⟩
  · intro id request targeted
    rw [untargeted] at targeted
    contradiction
  · intro id request targeted
    rw [untargeted] at targeted
    contradiction

theorem createEndpoint_dependable (valid : Valid history) {kind : ProxyKind}
    {id frontend backend : String} (untargeted : call.target = none) (creates : call.creates = [id])
    (runs : call.run history.table = history.table.createEndpoint kind id frontend backend) :
    Dependable history call ∧ Valid (history.step call) := by
  obtain ⟨returns, noNull, known⟩ := createEndpoint_valid valid kind id frontend backend
  rw [← runs] at returns noNull known
  rw [← creates] at known
  exact ⟨dependable_of_untargeted untargeted returns noNull, known, noNull⟩

theorem valid_of_keeps (valid : Valid history) (creates : call.creates = [])
    (kept : Keeps history.table (call.run history.table).2) : Valid (history.step call) := by
  refine ⟨?_, kept.noNull⟩
  intro id
  rw [step, creates, List.append_nil]
  exact (kept.known id).trans (valid.known id)

theorem setFilter_dependable (valid : Valid history) (id : String) (filter : Frame → Frame) :
    Dependable history (.setFilter id filter) ∧ Valid (history.step (.setFilter id filter)) := by
  cases looked : history.table.lookup id with
  | none =>
      have unknown := (valid.known id).mp looked
      have runs : (PipeCall.setFilter id filter).run history.table =
          (.returned false, history.table) := by
        simp only [PipeCall.run, ProxyTable.setFilter, looked]
      refine ⟨⟨?_, ?_, by simp [runs], by rw [runs]; exact valid.noNull⟩, ?_⟩
      · intro other request targeted created
        cases targeted
        exact absurd created unknown
      · intro other request targeted _
        exact runs
      · exact valid_of_keeps valid rfl (by rw [runs]; exact ⟨valid.noNull, fun _ => Iff.rfl⟩)
  | some entry =>
      have known : history.table.lookup id ≠ none := by
        rw [looked]
        simp
      obtain ⟨after, called, kept, reached⟩ :=
        invoke_keeps valid.noNull known (.addFilter filter)
      have runs : (PipeCall.setFilter id filter).run history.table = (.returned true, after) := by
        simp only [PipeCall.run, ProxyTable.setFilter, looked, called]
      refine ⟨⟨?_, ?_, by simp [runs], by rw [runs]; exact kept.noNull⟩, ?_⟩
      · intro other request targeted _
        cases targeted
        rw [runs]
        exact ⟨rfl, reached⟩
      · intro other request targeted unknown
        cases targeted
        exact absurd ((valid.known id).mpr unknown) known
      · exact valid_of_keeps valid rfl (by rw [runs]; exact kept)

theorem dependable_of_valid (valid : Valid history) (upright : call.isInverted = false) :
    Dependable history call ∧ Valid (history.step call) := by
  cases call with
  | createPubSubEndpoint id frontend backend => exact createEndpoint_dependable valid rfl rfl rfl
  | createReqRepEndpoint id frontend backend => exact createEndpoint_dependable valid rfl rfl rfl
  | stop =>
      obtain ⟨returned, kept⟩ := stop_safe valid.noNull
      have returns : (PipeCall.stop.run history.table).1 ≠ .nullProxy := by
        rw [PipeCall.run, returned]
        simp
      exact ⟨dependable_of_untargeted rfl returns kept.noNull, valid_of_keeps valid rfl kept⟩
  | setFilter id filter => exact setFilter_dependable valid id filter
  | stopId id => contradiction
  | killId id => contradiction
  | signal id signalVal => contradiction
  | registerSignal id signalVal func => contradiction

/-- The inverted guard refuses the ids that have a proxy, and for the others it
goes on to a null pointer. -/
theorem invertedCall_fails (table : ProxyTable) (id : String) (request : ProxyCall) :
    table.invertedCall id request = (.returned false, table) ∧ table.lookup id ≠ none ∨
      (table.invertedCall id request).1 = .nullProxy := by
  cases looked : table.lookup id with
  | none =>
      have called : table.invoke id request = _ := invoke_absent looked
      exact Or.inr (by simp only [ProxyTable.invertedCall, looked, called])
  | some entry => exact Or.inl ⟨by simp only [ProxyTable.invertedCall, looked], by simp⟩

theorem not_dependable_of_inverted (valid : Valid history) (inverted : call.isInverted = true) :
    ¬ Dependable history call := by
  have targeted : ∃ id request, call.target = some (id, request) ∧
      call.run history.table = history.table.invertedCall id request := by
    cases call with
    | stopId id => exact ⟨id, _, rfl, rfl⟩
    | killId id => exact ⟨id, _, rfl, rfl⟩
    | signal id signalVal => exact ⟨id, _, rfl, rfl⟩
    | registerSignal id signalVal func => exact ⟨id, _, rfl, rfl⟩
    | createPubSubEndpoint id frontend backend => contradiction
    | createReqRepEndpoint id frontend backend => contradiction
    | stop => contradiction
    | setFilter id filter => contradiction
  obtain ⟨id, request, target, runs⟩ := targeted
  intro dependable
  rcases invertedCall_fails history.table id request with ⟨refused, known⟩ | fault
  · have created : id ∈ history.created := by
      by_contra unknown
      exact known ((valid.known id).mpr unknown)
    have served := (dependable.reaches id request target created).1
    rw [runs, refused] at served
    cases served
  · exact dependable.returns (runs ▸ fault)

theorem start_valid : Valid start := by
  refine ⟨fun id => by simp [start], ?_⟩
  intro id entry looked
  simp [start] at looked

theorem eachStep_dependable_iff (valid : Valid history) :
    Run.EachStep step Dependable history calls ↔ ∀ call ∈ calls, call.isInverted = false := by
  induction calls generalizing history with
  | nil => simp [Run.EachStep]
  | cons call rest ih =>
      rw [List.forall_mem_cons, Run.EachStep]
      cases guard : call.isInverted with
      | true => simp [not_dependable_of_inverted valid guard]
      | false =>
          obtain ⟨dependable, next⟩ := dependable_of_valid valid guard
          simp only [dependable, true_and]
          exact ih next

end Calls

end PipeHistory

open PipeHistory

/-- The interface can be depended on in every run that never asks for a proxy
by an inverted guard, and in no other. -/
theorem pipeInterface_dependable_iff (calls : List PipeCall) :
    Run.EachStep step Dependable start calls ↔ ∀ call ∈ calls, call.isInverted = false :=
  eachStep_dependable_iff start_valid

/-- `stop(id)` refuses the proxy that was just created, and for an id nobody
created it leaves a null proxy for `stop()` to call. -/
theorem stopId_fails :
    (ProxyTable.stopId (start.step (.createPubSubEndpoint "1" "f" "b")).table "1").1 =
        .returned false ∧
      (ProxyTable.stopId ∅ "1").1 = .nullProxy ∧
      (ProxyTable.stopId ∅ "1").2.stop.1 = .nullProxy ∧
      ¬ Run.EachStep step Dependable start [.createPubSubEndpoint "1" "f" "b", .stopId "1"] := by
  refine ⟨by decide, by decide, by decide, ?_⟩
  intro every
  have upright := (eachStep_dependable_iff start_valid).mp every (.stopId "1") (by simp)
  contradiction

end Sentinet.Network
