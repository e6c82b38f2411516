import Sentinet.Network.PipeInterface
import Sentinet.Network.ProxyLoops

namespace Sentinet.Network

open Sentinet.Data

/-! The end of a proxy: what its threads do once it was stopped, and which threads a
`PipeInterface` leaves to its destructor. -/

/-- How many turns a call in a stopped proxy may take to its end. -/
def CallPoint.turnsLeft (running exitSignal : Bool) : CallPoint → Nat
  | .idle => 0
  | .stopWrite | .pauseLift => 1
  | .testPaused _ => if running then 3 else 2
  | .testRunning _ => if running then 2 else 1
  -- Only a test that saw `running` before the stop can still lead back into the loop.
  | .testExit _ => if exitSignal then 1 else 4
  | .startLift | .spin | .pauseSet | .waitPaused => if running then 4 else 3
  | .waitRunning => if running then 3 else 2
  | .waitExit => if exitSignal then 2 else 4

/-- How many calls of `__spin__` it may make before; one forwards a message, or in a
`ZMQServerProxy` a request and a reply. -/
def CallPoint.spinsLeft (exitSignal : Bool) : CallPoint → Nat
  | .spin => 1
  | .testExit _ => if exitSignal then 0 else 1
  | _ => 0

namespace ProxyState

def turnsLeft (state : ProxyState) (thread : Nat) : Nat :=
  (state.point thread).turnsLeft state.running state.exitSignal

def spinsLeft (state : ProxyState) (thread : Nat) : Nat :=
  (state.point thread).spinsLeft state.exitSignal

/-- The calls of `__spin__` that a thread makes in a run. -/
def spins (thread : Nat) : ProxyState → List ThreadEvent → Nat
  | _, [] => 0
  | state, event :: rest =>
      (if event = .turn thread ∧ state.point thread = .spin then 1 else 0) +
        spins thread (state.step event) rest

/-- A thread leaves a stopped proxy: it calls `__spin__` at most once more, not at all
unless it is inside `start`, and its call ends. -/
structure Leaves (state : ProxyState) (events : List ThreadEvent) (thread : Nat) : Prop where
  once : spins thread state events ≤ 1
  never : (state.point thread).inStart = false → spins thread state events = 0
  ends : 4 ≤ events.count (.turn thread) → (∀ request, .call thread request ∉ events) →
    (Run.final step state events).point thread = .idle

end ProxyState

section Stopped

variable {state : ProxyState} {thread other : Nat} {event : ThreadEvent} {events : List ThreadEvent}

open ProxyState

theorem call_flags (state : ProxyState) (thread : Nat) (request : ControlCall) :
    (state.call thread request).running = state.running ∧
      (state.call thread request).exitSignal = state.exitSignal := by
  unfold call
  split <;> exact ⟨rfl, rfl⟩

theorem turn_flags (state : ProxyState) (thread : Nat) :
    ((state.turn thread).running = state.running ∨ (state.turn thread).running = false) ∧
      (state.turn thread).exitSignal = state.exitSignal := by
  unfold turn
  cases state.point thread <;> simp [goto]

theorem turn_other (different : other ≠ thread) :
    (state.turn thread).point other = state.point other := by
  unfold turn
  cases state.point thread <;> simp [goto, different]

theorem call_other (state : ProxyState) (request : ControlCall) (different : other ≠ thread) :
    (state.call thread request).point other = state.point other := by
  unfold call
  split
  · exact Function.update_of_ne different _ _
  · rfl

/-- A stop of either kind leaves no more turns than there were. -/
theorem turnsLeft_antitone (point : CallPoint) {running exitSignal : Bool} :
    point.turnsLeft false exitSignal ≤ point.turnsLeft running exitSignal ∧
      point.turnsLeft running true ≤ point.turnsLeft running exitSignal := by
  cases running <;> cases exitSignal <;> cases point <;> simp [CallPoint.turnsLeft]

theorem spinsLeft_antitone (point : CallPoint) {exitSignal : Bool} :
    point.spinsLeft true ≤ point.spinsLeft exitSignal := by
  cases exitSignal <;> cases point <;> simp [CallPoint.spinsLeft]

theorem step_stopped (event : ThreadEvent) (stopped : ¬state.Live) : ¬(state.step event).Live := by
  cases event with
  | exit => simp [step, Live]
  | call thread request =>
      rw [step, Live, (call_flags state thread request).1, (call_flags state thread request).2]
      exact stopped
  | turn thread =>
      obtain ⟨running, exitSignal⟩ := turn_flags state thread
      intro live
      rcases running with same | lowered
      · exact stopped ⟨same.symm.trans live.1, exitSignal.symm.trans live.2⟩
      · exact Bool.false_ne_true (lowered.symm.trans live.1)

theorem not_live_cases (stopped : ¬state.Live) :
    state.running = false ∨ state.running = true ∧ state.exitSignal = true := by
  rw [Live, not_and, Bool.not_eq_false] at stopped
  cases running : state.running with
  | false => exact Or.inl rfl
  | true => exact Or.inr ⟨rfl, stopped running⟩

/-- A turn of its own brings a thread nearer to the end of its call, and each call of
`__spin__` is one that it had left. -/
theorem turn_nearer (stopped : ¬state.Live) :
    (state.turn thread).turnsLeft thread ≤ state.turnsLeft thread - 1 ∧
      (if state.point thread = .spin then 1 else 0) + (state.turn thread).spinsLeft thread ≤
        state.spinsLeft thread := by
  unfold ProxyState.turnsLeft ProxyState.spinsLeft turn
  rcases not_live_cases stopped with running | ⟨running, exitSignal⟩
  · cases point : state.point thread with
    | testExit entered =>
        cases exitSignal : state.exitSignal <;>
          simp [goto, running, exitSignal, CallPoint.turnsLeft, CallPoint.spinsLeft]
    | waitExit =>
        cases exitSignal : state.exitSignal <;>
          simp [goto, running, exitSignal, CallPoint.turnsLeft, CallPoint.spinsLeft]
    | testPaused entered =>
        cases paused : state.paused <;>
          simp [goto, running, CallPoint.turnsLeft, CallPoint.spinsLeft]
    | waitPaused =>
        cases paused : state.paused <;>
          simp [goto, running, CallPoint.turnsLeft, CallPoint.spinsLeft]
    | _ => simp [goto, running, point, CallPoint.turnsLeft, CallPoint.spinsLeft]
  · cases point : state.point thread with
    | testPaused entered =>
        cases paused : state.paused <;>
          simp [goto, running, CallPoint.turnsLeft, CallPoint.spinsLeft]
    | waitPaused =>
        cases paused : state.paused <;>
          simp [goto, running, CallPoint.turnsLeft, CallPoint.spinsLeft]
    | _ => simp [goto, running, exitSignal, point, CallPoint.turnsLeft, CallPoint.spinsLeft]

/-- Other threads, and a stop of the other kind, put nothing off. -/
theorem step_turnsLeft (thread : Nat) (event : ThreadEvent) (stopped : ¬state.Live)
    (uncalled : ∀ request, event ≠ .call thread request) :
    (state.step event).turnsLeft thread ≤
      state.turnsLeft thread - if event = .turn thread then 1 else 0 := by
  cases event with
  | exit => exact (turnsLeft_antitone (state.point thread)).2
  | call caller request =>
      have different : thread ≠ caller := fun same => uncalled request (same ▸ rfl)
      obtain ⟨running, exitSignal⟩ := call_flags state caller request
      have here := call_other state request different
      simp [step, ProxyState.turnsLeft, running, exitSignal, here]
  | turn mover =>
      by_cases same : mover = thread
      · subst same
        rw [if_pos rfl]
        exact (turn_nearer stopped).1
      · rw [if_neg (by simpa using same), Nat.sub_zero, step, ProxyState.turnsLeft,
          turn_other (Ne.symm same), (turn_flags state mover).2]
        rcases turn_flags state mover with ⟨kept | lowered, _⟩
        · rw [kept, ProxyState.turnsLeft]
        · rw [lowered]
          exact (turnsLeft_antitone (state.point thread)).1

/-- No call that begins after the stop comes to `__spin__`. -/
theorem step_spinsLeft (thread : Nat) (event : ThreadEvent) (stopped : ¬state.Live) :
    (if event = .turn thread ∧ state.point thread = .spin then 1 else 0) +
        (state.step event).spinsLeft thread ≤ state.spinsLeft thread := by
  cases event with
  | exit =>
      simp only [reduceCtorEq, false_and, if_false, Nat.zero_add]
      exact spinsLeft_antitone (state.point thread)
  | call caller request =>
      obtain ⟨_, exitSignal⟩ := call_flags state caller request
      simp only [reduceCtorEq, false_and, if_false, Nat.zero_add, step, ProxyState.spinsLeft,
        exitSignal]
      by_cases same : thread = caller
      · subst same
        unfold call
        split
        · next idle => cases request <;> simp [goto, idle, ControlCall.entry, CallPoint.spinsLeft]
        · exact Nat.le_refl _
      · rw [call_other state request same]
  | turn mover =>
      by_cases same : mover = thread
      · subst same
        simpa only [true_and, step] using (turn_nearer stopped).2
      · have other : ThreadEvent.turn mover ≠ .turn thread := by simpa using same
        rw [if_neg (fun both => other both.1), Nat.zero_add, step, ProxyState.spinsLeft,
          turn_other (Ne.symm same), (turn_flags state mover).2, ProxyState.spinsLeft]

theorem spins_le (stopped : ¬state.Live) : spins thread state events ≤ state.spinsLeft thread := by
  induction events generalizing state with
  | nil => exact Nat.zero_le _
  | cons event rest ih =>
      have later := ih (step_stopped event stopped)
      have here := step_spinsLeft thread event stopped
      rw [spins]
      omega

theorem final_turnsLeft (stopped : ¬state.Live) (uncalled : ∀ request, .call thread request ∉ events) :
    (Run.final step state events).turnsLeft thread ≤
      state.turnsLeft thread - events.count (.turn thread) := by
  induction events generalizing state with
  | nil => exact Nat.le_refl _
  | cons event rest ih =>
      have here := step_turnsLeft thread event stopped
        fun request same => uncalled request (same ▸ List.mem_cons_self)
      have later := ih (step_stopped event stopped)
        fun request member => uncalled request (List.mem_cons_of_mem event member)
      rw [Run.final_cons, List.count_cons]
      simp only [beq_iff_eq]
      omega

end Stopped

/-- After a stop was written or the exit signal given, every call leaves its loop. -/
theorem stopped_leaves (state : ProxyState) (stopped : ¬state.Live) (events : List ThreadEvent)
    (thread : Nat) : state.Leaves events thread where
  once := by
    refine Nat.le_trans (spins_le stopped) ?_
    unfold ProxyState.spinsLeft
    cases state.exitSignal <;> cases state.point thread <;> simp [CallPoint.spinsLeft]
  never := by
    intro outside
    refine Nat.le_zero.mp (Nat.le_trans (spins_le stopped) (Nat.le_of_eq ?_))
    unfold ProxyState.spinsLeft
    cases point : state.point thread <;> simp_all [CallPoint.spinsLeft, CallPoint.inStart]
  ends := by
    intro turns uncalled
    have few : state.turnsLeft thread ≤ 4 := by
      unfold ProxyState.turnsLeft
      cases state.running <;> cases state.exitSignal <;> cases state.point thread <;>
        simp [CallPoint.turnsLeft]
    have left := final_turnsLeft stopped uncalled
    have none_left : (Run.final ProxyState.step state events).turnsLeft thread = 0 := by omega
    unfold ProxyState.turnsLeft at none_left
    cases point : (Run.final ProxyState.step state events).point thread <;>
      simp [point, CallPoint.turnsLeft] at none_left ⊢ <;> split at none_left <;> cases none_left

/-- Thread 0 has seen `running` when thread 1 stops the proxy. -/
def stoppedInLoop : ProxyState :=
  Run.final ProxyState.step (.create false)
    [.call 0 .start, .turn 0, .turn 0, .turn 0, .call 1 .stop, .turn 1]

theorem stopped_leaves_loop : stoppedInLoop.Leaves (List.replicate 4 (.turn 0)) 0 :=
  stopped_leaves stoppedInLoop (fun live => absurd live.1 (by decide)) _ 0

example : ProxyState.spins 0 stoppedInLoop (List.replicate 4 (.turn 0)) = 1 := by decide

/-! A `PipeInterface` with the endpoints whose threads nobody joined. -/

structure PipeLife where
  table : ProxyTable
  unjoined : List String

namespace PipeLife

def start : PipeLife := { table := ∅, unjoined := [] }

/-- The endpoints that a call adds to those left to be joined, if it returned true. -/
def unjoinedAfter (life : PipeLife) (call : PipeCall) : List String :=
  match call with
  | .stop => []
  | _ =>
      if (call.run life.table).1 = .returned true then life.unjoined ++ call.creates
      else life.unjoined

def step (life : PipeLife) (call : PipeCall) : PipeLife where
  table := (call.run life.table).2
  unjoined := life.unjoinedAfter call

/-- The call comes back: no pointer it goes through is null. -/
def Returns (life : PipeLife) (call : PipeCall) : Prop := (call.run life.table).1 ≠ .nullProxy

instance (life : PipeLife) (call : PipeCall) : Decidable (life.Returns call) :=
  inferInstanceAs (Decidable (_ ≠ _))

/-- The call starts the thread of a new endpoint. -/
def Makes (life : PipeLife) (call : PipeCall) : Prop :=
  (call.run life.table).1 = .returned true ∧ call.creates ≠ []

/-- Destroying the interface destroys each `t_space`; a joinable one ends the process. -/
def Terminates (life : PipeLife) : Prop :=
  ∃ id entry, life.table.lookup id = some entry ∧ entry.joinable = true

/-- The thread of an endpoint was joined, and before that its proxy told to stop. -/
def Joined (table : ProxyTable) (id : String) : Prop :=
  ∃ proxy, table.lookup id = some { proxy := some proxy, joinable := false } ∧
    ProxyCall.stop ∈ proxy.received

/-- Every endpoint runs in a thread that can be joined, or was stopped and joined. -/
structure Accounts (life : PipeLife) : Prop where
  noNull : PipeHistory.NoNull life.table
  running : ∀ id ∈ life.unjoined, ∃ entry, life.table.lookup id = some entry ∧ entry.joinable = true
  joined : ∀ id, id ∉ life.unjoined → life.table.lookup id = none ∨ Joined life.table id

end PipeLife

section Joining

variable {table : ProxyTable} {life : PipeLife} {call : PipeCall} {ids : List String}

open PipeLife PipeHistory

theorem stopOne_joined (noNull : NoNull table) {id : String} (known : table.lookup id ≠ none) :
    ∃ called, table.invoke id .stop = (.returned true, called) ∧ NoNull (called.join id) ∧
      Joined (called.join id) id ∧
        ∀ other ≠ id, (called.join id).lookup other = table.lookup other := by
  obtain ⟨proxy, joinable, present⟩ := (lookup_cases noNull id).resolve_left known
  have invoked : table.invoke id .stop = _ := invoke_present present
  have stopped : ProxyTable.join
      (table.insert id { proxy := some (proxy.receive .stop), joinable }) id =
      (table.insert id { proxy := some (proxy.receive .stop), joinable }).insert id
        { proxy := some (proxy.receive .stop), joinable := false } := by
    rw [ProxyTable.join, AList.lookup_insert]
  refine ⟨_, invoked, ?_, ?_, ?_⟩
  · rw [stopped]
    exact noNull_insert (noNull_insert noNull rfl) rfl
  · rw [stopped]
    exact ⟨_, AList.lookup_insert _, by simp [Proxy.receive]⟩
  · intro other different
    rw [stopped, AList.lookup_insert_ne different, AList.lookup_insert_ne different]

/-- The loop of `stop()` ends with each of its ids stopped and joined. -/
theorem stopEach_joined (noNull : NoNull table) (known : ∀ id ∈ ids, table.lookup id ≠ none) :
    NoNull (ProxyTable.stopEach ids table).2 ∧ ∀ id,
      if id ∈ ids then Joined (ProxyTable.stopEach ids table).2 id
      else (ProxyTable.stopEach ids table).2.lookup id = table.lookup id := by
  induction ids generalizing table with
  | nil => exact ⟨noNull, fun _ => rfl⟩
  | cons id rest ih =>
      obtain ⟨first, later⟩ := List.forall_mem_cons.mp known
      obtain ⟨called, invoked, next, joined, others⟩ := stopOne_joined noNull first
      have still : ∀ other ∈ rest, (called.join id).lookup other ≠ none := by
        intro other member
        by_cases same : other = id
        · obtain ⟨proxy, looked, -⟩ := joined
          rw [same, looked]
          simp
        · rw [others other same]
          exact later other member
      obtain ⟨after, every⟩ := ih next still
      simp only [ProxyTable.stopEach, invoked]
      refine ⟨after, ?_⟩
      intro other
      have rested := every other
      by_cases inRest : other ∈ rest
      · rw [if_pos inRest] at rested
        rwa [if_pos (List.mem_cons_of_mem id inRest)]
      · rw [if_neg inRest] at rested
        by_cases same : other = id
        · obtain ⟨proxy, looked, told⟩ := joined
          rw [same, if_pos List.mem_cons_self]
          rw [same] at rested
          exact ⟨proxy, rested.trans looked, told⟩
        · rw [if_neg (by simp [same, inRest]), rested, others other same]

theorem stop_accounts (accounts : life.Accounts) : (life.step .stop).Accounts := by
  have known : ∀ id ∈ life.table.keys, life.table.lookup id ≠ none := by
    intro id member absent
    exact AList.lookup_eq_none.mp absent (AList.mem_keys.mpr member)
  obtain ⟨noNull, every⟩ := stopEach_joined accounts.noNull known
  refine ⟨noNull, fun id member => absurd member List.not_mem_nil, ?_⟩
  intro id _
  have told := every id
  by_cases member : id ∈ life.table.keys
  · rw [if_pos member] at told
    exact Or.inr told
  · rw [if_neg member] at told
    exact Or.inl (told.trans (AList.lookup_eq_none.mpr fun inside =>
      member (AList.mem_keys.mp inside)))

theorem accounts_of_table {after : PipeLife} (accounts : life.Accounts)
    (table : after.table = life.table) (unjoined : after.unjoined = life.unjoined) :
    after.Accounts := by
  refine ⟨table ▸ accounts.noNull, ?_, ?_⟩
  · rw [table, unjoined]
    exact accounts.running
  · rw [table, unjoined]
    exact accounts.joined

theorem createEndpoint_accounts (accounts : life.Accounts) {kind : ProxyKind}
    {id frontend backend : String} (creates : call.creates = [id]) (loud : call ≠ .stop)
    (runs : call.run life.table = life.table.createEndpoint kind id frontend backend) :
    (life.step call).Accounts := by
  have unjoined : (life.step call).unjoined =
      if (call.run life.table).1 = .returned true then life.unjoined ++ call.creates
      else life.unjoined := by
    cases call <;> first | rfl | exact absurd rfl loud
  cases looked : life.table.lookup id with
  | some entry =>
      have refused : call.run life.table = (.returned false, life.table) := by
        simp only [runs, ProxyTable.createEndpoint, looked]
      exact accounts_of_table accounts (congrArg Prod.snd refused)
        (by rw [unjoined, refused]; rfl)
  | none =>
      let entry : ProxyEntry :=
        { proxy := some { kind, frontend, backend, received := [] }, joinable := true }
      have made : call.run life.table = (.returned true, life.table.insert id entry) := by
        simp only [runs, ProxyTable.createEndpoint, looked, entry]
      have more : (life.step call).unjoined = life.unjoined ++ [id] := by
        rw [unjoined, made, if_pos rfl, creates]
      have table : (life.step call).table = life.table.insert id entry := congrArg Prod.snd made
      refine ⟨?_, ?_, ?_⟩
      · rw [table]
        exact noNull_insert accounts.noNull rfl
      · rw [table, more]
        intro other member
        by_cases same : other = id
        · exact ⟨entry, by rw [same, AList.lookup_insert], rfl⟩
        · rw [AList.lookup_insert_ne same]
          exact accounts.running other
            ((List.mem_append.mp member).resolve_right (by simpa using same))
      · rw [table, more]
        intro other outside
        rw [List.mem_append, not_or, List.mem_singleton] at outside
        rw [PipeLife.Joined, AList.lookup_insert_ne outside.2]
        exact accounts.joined other outside.1

/-- A call that comes back through an inverted guard changed nothing. -/
theorem inverted_unchanged (inverted : call.isInverted = true) (returns : life.Returns call) :
    call.run life.table = (.returned false, life.table) := by
  have guarded : ∃ id request, call.run life.table = life.table.invertedCall id request := by
    cases call with
    | stopId id => exact ⟨id, _, rfl⟩
    | killId id => exact ⟨id, _, rfl⟩
    | signal id signalVal => exact ⟨id, _, rfl⟩
    | registerSignal id signalVal func => exact ⟨id, _, rfl⟩
    | createPubSubEndpoint id frontend backend => contradiction
    | createReqRepEndpoint id frontend backend => contradiction
    | stop => contradiction
    | setFilter id filter => contradiction
  obtain ⟨id, request, runs⟩ := guarded
  rcases invertedCall_fails life.table id request with ⟨refused, -⟩ | fault
  · rw [runs, refused]
  · exact absurd (runs ▸ fault) returns

theorem setFilter_accounts (accounts : life.Accounts) (id : String) (filter : Frame → Frame) :
    (life.step (.setFilter id filter)).Accounts := by
  have unjoined : (life.step (.setFilter id filter)).unjoined = life.unjoined := by
    simp [PipeLife.step, unjoinedAfter, PipeCall.creates]
  rcases lookup_cases accounts.noNull id with absent | ⟨proxy, joinable, present⟩
  · refine accounts_of_table accounts ?_ unjoined
    simp only [PipeLife.step, PipeCall.run, ProxyTable.setFilter, absent]
  · have table : (life.step (.setFilter id filter)).table = life.table.insert id
        { proxy := some (proxy.receive (.addFilter filter)), joinable } := by
      have invoked : life.table.invoke id (.addFilter filter) = _ := invoke_present present
      simp only [PipeLife.step, PipeCall.run, ProxyTable.setFilter, present, invoked]
    refine ⟨?_, ?_, ?_⟩
    · rw [table]
      exact noNull_insert accounts.noNull rfl
    · rw [table, unjoined]
      intro other member
      by_cases same : other = id
      · obtain ⟨entry, looked, runs⟩ := accounts.running other member
        rw [same, present, Option.some.injEq] at looked
        exact ⟨_, by rw [same, AList.lookup_insert], by rw [← looked] at runs; exact runs⟩
      · rw [AList.lookup_insert_ne same]
        exact accounts.running other member
    · rw [table, unjoined]
      intro other outside
      by_cases same : other = id
      · rcases accounts.joined other outside with absent | ⟨held, looked, told⟩
        · rw [same, present] at absent
          cases absent
        · rw [same, present] at looked
          cases looked
          exact Or.inr ⟨_, by rw [same, AList.lookup_insert],
            List.mem_append_left _ told⟩
      · rw [PipeLife.Joined, AList.lookup_insert_ne same]
        exact accounts.joined other outside

theorem step_accounts (accounts : life.Accounts) (returns : life.Returns call) :
    (life.step call).Accounts := by
  cases call with
  | createPubSubEndpoint id frontend backend =>
      exact createEndpoint_accounts accounts rfl (by simp) rfl
  | createReqRepEndpoint id frontend backend =>
      exact createEndpoint_accounts accounts rfl (by simp) rfl
  | stop => exact stop_accounts accounts
  | setFilter id filter => exact setFilter_accounts accounts id filter
  | stopId id =>
      have same := inverted_unchanged rfl returns
      exact accounts_of_table accounts (congrArg Prod.snd same)
        (by simp [PipeLife.step, unjoinedAfter, same])
  | killId id =>
      have same := inverted_unchanged rfl returns
      exact accounts_of_table accounts (congrArg Prod.snd same)
        (by simp [PipeLife.step, unjoinedAfter, same])
  | signal id signalVal =>
      have same := inverted_unchanged rfl returns
      exact accounts_of_table accounts (congrArg Prod.snd same)
        (by simp [PipeLife.step, unjoinedAfter, same])
  | registerSignal id signalVal func =>
      have same := inverted_unchanged rfl returns
      exact accounts_of_table accounts (congrArg Prod.snd same)
        (by simp [PipeLife.step, unjoinedAfter, same])

theorem start_accounts : PipeLife.start.Accounts := by
  refine ⟨?_, ?_, ?_⟩
  · intro id entry looked
    simp [PipeLife.start] at looked
  · intro id member
    cases member
  · intro id _
    exact Or.inl (AList.lookup_empty id)

theorem unjoined_step :
    (life.step call).unjoined ≠ [] ↔ call ≠ .stop ∧ (life.Makes call ∨ life.unjoined ≠ []) := by
  by_cases stops : call = .stop
  · subst stops
    simp [PipeLife.step, unjoinedAfter]
  · have unjoined : (life.step call).unjoined =
        if (call.run life.table).1 = .returned true then life.unjoined ++ call.creates
        else life.unjoined := by
      cases call <;> first | rfl | exact absurd rfl stops
    rw [unjoined, Makes]
    by_cases returned : (call.run life.table).1 = .returned true
    · rw [if_pos returned, ne_eq, List.append_eq_nil_iff, not_and_or]
      simp only [stops, returned, not_false_eq_true, true_and, ne_eq]
      exact or_comm
    · simp [returned, stops]

/-- What is left to be joined was made behind the last `stop()`. -/
theorem unjoined_final (calls : List PipeCall) :
    (Run.final PipeLife.step .start calls).unjoined ≠ [] ↔
      ∃ before call after, calls = before ++ call :: after ∧
        (Run.final PipeLife.step .start before).Makes call ∧ .stop ∉ after := by
  induction calls using List.reverseRecOn with
  | nil => simp [PipeLife.start]
  | append_singleton front last ih =>
      rw [Run.final_append, Run.final_cons, Run.final_nil, unjoined_step, ih]
      constructor
      · rintro ⟨loud, made | ⟨before, call, after, rfl, made, quiet⟩⟩
        · exact ⟨front, last, [], rfl, made, List.not_mem_nil⟩
        · refine ⟨before, call, after ++ [last], by simp, made, ?_⟩
          simp [quiet, Ne.symm loud]
      · rintro ⟨before, call, after, split, made, quiet⟩
        rcases List.eq_nil_or_concat after with rfl | ⟨rest, later, rfl⟩
        · obtain ⟨rfl, same⟩ := List.append_inj' split rfl
          cases same
          refine ⟨?_, Or.inl made⟩
          rintro rfl
          exact made.2 rfl
        · rw [List.concat_eq_append] at split quiet
          have ends : front ++ [last] = (before ++ call :: rest) ++ [later] := by simp [split]
          obtain ⟨rfl, same⟩ := List.append_inj' ends rfl
          cases same
          rw [List.mem_append, not_or, List.mem_singleton] at quiet
          exact ⟨Ne.symm quiet.2, Or.inr ⟨before, call, rest, rfl, made, quiet.1⟩⟩

end Joining

/-- Destroying a `PipeInterface` ends the process exactly when an endpoint was made after
the last `stop()`; every other proxy was told to stop and its thread joined. -/
theorem destroying_terminates_iff (calls : List PipeCall)
    (returns : Run.EachStep PipeLife.step PipeLife.Returns .start calls) :
    ((Run.final PipeLife.step .start calls).Terminates ↔
        ∃ before call after, calls = before ++ call :: after ∧
          (Run.final PipeLife.step .start before).Makes call ∧ .stop ∉ after) ∧
      ∀ id entry, (Run.final PipeLife.step .start calls).table.lookup id = some entry →
        entry.joinable = true ∨
          PipeLife.Joined (Run.final PipeLife.step .start calls).table id := by
  have accounts : (Run.final PipeLife.step .start calls).Accounts :=
    Run.eachState_final (Run.eachState_of_eachStep PipeLife.Accounts
      (fun _ _ => step_accounts) (fun _ kept => kept) start_accounts returns)
  have settled : ∀ id entry, (Run.final PipeLife.step .start calls).table.lookup id = some entry →
      entry.joinable = true ∨ PipeLife.Joined (Run.final PipeLife.step .start calls).table id := by
    intro id entry looked
    by_cases member : id ∈ (Run.final PipeLife.step .start calls).unjoined
    · obtain ⟨held, same, joinable⟩ := accounts.running id member
      rw [looked, Option.some.injEq] at same
      exact Or.inl (same ▸ joinable)
    · rcases accounts.joined id member with absent | joined
      · rw [absent] at looked
        cases looked
      · exact Or.inr joined
  refine ⟨?_, settled⟩
  rw [← unjoined_final]
  constructor
  · rintro ⟨id, entry, looked, joinable⟩ empty
    rcases accounts.joined id (by rw [empty]; exact List.not_mem_nil) with absent | ⟨_, same, _⟩
    · rw [absent] at looked
      cases looked
    · rw [same, Option.some.injEq] at looked
      rw [← looked] at joinable
      cases joinable
  · intro left
    obtain ⟨id, member⟩ := List.exists_mem_of_ne_nil _ left
    obtain ⟨entry, looked, joinable⟩ := accounts.running id member
    exact ⟨id, entry, looked, joinable⟩

/-- An endpoint that was made again under a new id after everything was stopped. -/
def madeAfterStop : List PipeCall :=
  [.createPubSubEndpoint "a" "f" "b", .stop, .stopId "a", .createReqRepEndpoint "c" "f" "b"]

theorem destroying_terminates_late :
    ((Run.final PipeLife.step .start madeAfterStop).Terminates ↔
        ∃ before call after, madeAfterStop = before ++ call :: after ∧
          (Run.final PipeLife.step .start before).Makes call ∧ .stop ∉ after) ∧
      ∀ id entry, (Run.final PipeLife.step .start madeAfterStop).table.lookup id = some entry →
        entry.joinable = true ∨
          PipeLife.Joined (Run.final PipeLife.step .start madeAfterStop).table id :=
  destroying_terminates_iff madeAfterStop
    ⟨by decide, by decide, by decide, by decide, trivial⟩

end Sentinet.Network
