import Sentinet.Network.WorkerLoops

namespace Sentinet.Network

open Sentinet.Data LoopState

/-! `mutex_lock`, which the worker threads of a process share: a subscriber, requester
or server takes it before its callback and gives it back at the end of its turn of the
loop, a requester only after it has slept. -/

variable {ι : Type}

/-- Behind the callback, and not yet at the head of the loop. -/
def InScope (loop : WorkerLoop) (state : LoopState) : Prop :=
  state.point = .reply ∨ state.point = .sleep ∧ loop = .requester

theorem inScope_requester {state : LoopState} (orderly : Orderly .requester state) :
    InScope .requester state ↔ state.point = .sleep := by
  have place := orderly.place
  simp only [InScope, and_true, or_iff_right_iff_imp]
  intro reply
  simp [reply, WorkerLoop.points] at place

theorem inScope_server {state : LoopState} : InScope .server state ↔ state.point = .reply := by
  simp [InScope]

theorem not_inScope {loop : WorkerLoop} {state : LoopState} (orderly : Orderly loop state)
    (plain : loop = .publisher ∨ loop = .subscriber) : ¬InScope loop state := by
  have place := orderly.place
  rcases plain with rfl | rfl
  · rintro (reply | ⟨_, requester⟩)
    · simp [reply, WorkerLoop.points] at place
    · cases requester
  · rintro (reply | ⟨_, requester⟩)
    · simp [reply, WorkerLoop.points] at place
    · cases requester

/-- A turn enters the scope from the callback only, and leaves it for the head of the
loop. -/
theorem turn_inScope {loop : WorkerLoop} {state : LoopState} (orderly : Orderly loop state) :
    (state.point = .callback → (state.turn loop).point = .exitCheck ∨ InScope loop (state.turn loop)) ∧
      (InScope loop state → (state.turn loop).point = .exitCheck) ∧
      (state.point ≠ .callback → ¬InScope loop (state.turn loop)) := by
  have next := orderly_turn orderly
  cases loop with
  | publisher =>
      have plain := not_inScope orderly (Or.inl rfl)
      refine ⟨fun callback => ?_, fun inside => absurd inside plain, fun _ => not_inScope next (Or.inl rfl)⟩
      simpa [callback, WorkerLoop.points] using orderly.place
  | subscriber =>
      have plain := not_inScope orderly (Or.inr rfl)
      refine ⟨fun callback => Or.inl ?_, fun inside => absurd inside plain,
        fun _ => not_inScope next (Or.inr rfl)⟩
      simp [LoopState.turn, subscriptionThread, callback]
  | requester =>
      rw [inScope_requester orderly, inScope_requester next]
      refine ⟨fun callback => ?_, fun sleeps => ?_, fun before => ?_⟩
      · simp [LoopState.turn, requesterThread, callback]
      · simp [LoopState.turn, requesterThread, sleeps]
      · obtain ⟨point, exitSignal, inbox, awaiting⟩ := state
        cases point with
        | exitCheck => cases exitSignal <;> simp [LoopState.turn, requesterThread, exitCheck]
        | receive => cases inbox <;> simp [LoopState.turn, requesterThread, sRecv]
        | callback => exact absurd rfl before
        | _ => simp [LoopState.turn, requesterThread]
  | server =>
      rw [inScope_server, inScope_server]
      refine ⟨fun callback => ?_, fun replies => ?_, fun before => ?_⟩
      · simp [LoopState.turn, serverThread, callback]
      · simp [LoopState.turn, serverThread, replies]
      · obtain ⟨point, exitSignal, inbox, awaiting⟩ := state
        cases point with
        | exitCheck => cases exitSignal <;> simp [LoopState.turn, serverThread, exitCheck]
        | poll => cases inbox <;> simp [LoopState.turn, serverThread, poll]
        | receive => cases inbox <;> simp [LoopState.turn, serverThread, sRecv]
        | callback => exact absurd rfl before
        | _ => simp [LoopState.turn, serverThread]

theorem arrive_point {loop : WorkerLoop} {state : LoopState} (message : List Frame) :
    (state.arrive loop message).point = state.point := by
  unfold LoopState.arrive
  split
  · split <;> rfl
  · rfl

structure Callbacks (ι : Type) where
  workers : ι → LoopState
  lock : Option ι

/-- What happens to one of the workers. -/
inductive WorkerEvent (loop : ι → WorkerLoop) where
  | of (worker : ι) (event : LoopEvent (loop worker))

namespace Callbacks

def start : Callbacks ι := { workers := fun _ => .start, lock := none }

variable {loop : ι → WorkerLoop}

/-- Between taking the lock and giving it back. -/
def Inside (loop : ι → WorkerLoop) (callbacks : Callbacks ι) (worker : ι) : Prop :=
  (callbacks.workers worker).point = .callback ∧ callbacks.lock = some worker ∨
    InScope (loop worker) (callbacks.workers worker)

structure Sound (loop : ι → WorkerLoop) (callbacks : Callbacks ι) : Prop where
  orderly : ∀ worker, Orderly (loop worker) (callbacks.workers worker)
  holds : ∀ worker, callbacks.Inside loop worker ↔ callbacks.lock = some worker

theorem start_sound : (start : Callbacks ι).Sound loop where
  orderly worker := orderly_start (loop worker)
  holds worker := by simp [Inside, InScope, start, LoopState.start]

variable [DecidableEq ι]

def move (callbacks : Callbacks ι) (worker : ι) (event : LoopEvent (loop worker)) : Callbacks ι :=
  { callbacks with workers :=
      Function.update callbacks.workers worker ((callbacks.workers worker).step event) }

/-- The guard goes out of scope where the loop begins again. -/
def release (callbacks : Callbacks ι) (worker : ι) : Callbacks ι :=
  if callbacks.lock = some worker ∧ (callbacks.workers worker).point = .exitCheck then
    { callbacks with lock := none }
  else callbacks

/-- A turn of a worker; before its callback it takes the lock or waits for it. -/
def turn (loop : ι → WorkerLoop) (callbacks : Callbacks ι) (worker : ι) : Callbacks ι :=
  let proceeds := (callbacks.move worker (.turn : LoopEvent (loop worker))).release worker
  if (callbacks.workers worker).point = .callback then
    match callbacks.lock with
    | none => { callbacks with lock := some worker }
    | some holder => if holder = worker then proceeds else callbacks
  else proceeds

def step (callbacks : Callbacks ι) : WorkerEvent loop → Callbacks ι
  | .of worker .turn => callbacks.turn loop worker
  | .of worker (.arrive message) => callbacks.move worker (.arrive message : LoopEvent (loop worker))
  | .of worker .cancel => callbacks.move worker (.cancel : LoopEvent (loop worker))

section Steps

variable {callbacks : Callbacks ι} {worker other : ι} {event : LoopEvent (loop worker)}

@[simp] theorem move_self : (callbacks.move worker event).workers worker =
    (callbacks.workers worker).step event := Function.update_self ..

theorem move_other (different : other ≠ worker) :
    (callbacks.move worker event).workers other = callbacks.workers other :=
  Function.update_of_ne different ..

@[simp] theorem move_lock : (callbacks.move worker event).lock = callbacks.lock := rfl

/-- What leaves one worker where it is leaves all of them there. -/
theorem move_point (event : LoopEvent (loop worker))
    (stays : ((callbacks.workers worker).step event).point = (callbacks.workers worker).point)
    (other : ι) :
    ((callbacks.move worker event).workers other).point = (callbacks.workers other).point := by
  by_cases same : other = worker
  · subst same
    rw [move_self, stays]
  · rw [move_other same]

@[simp] theorem release_workers : (callbacks.release worker).workers = callbacks.workers := by
  unfold release
  split <;> rfl

theorem release_lock (callbacks : Callbacks ι) (worker : ι) :
    (callbacks.release worker).lock = callbacks.lock ∨
      callbacks.lock = some worker ∧ (callbacks.workers worker).point = .exitCheck ∧
        (callbacks.release worker).lock = none := by
  unfold release
  split
  · next released => exact Or.inr ⟨released.1, released.2, rfl⟩
  · exact Or.inl rfl

theorem release_outside (away : (callbacks.workers worker).point ≠ .exitCheck) :
    callbacks.release worker = callbacks :=
  if_neg fun released => away released.2

/-- What a turn does: it waits, takes the lock, or moves on and may give it back. -/
theorem turn_cases (loop : ι → WorkerLoop) (callbacks : Callbacks ι) (worker : ι) :
    ((callbacks.workers worker).point = .callback ∧
        (∃ holder, holder ≠ worker ∧ callbacks.lock = some holder) ∧
        callbacks.turn loop worker = callbacks) ∨
      ((callbacks.workers worker).point = .callback ∧ callbacks.lock = none ∧
        callbacks.turn loop worker = { callbacks with lock := some worker }) ∨
      (((callbacks.workers worker).point = .callback → callbacks.lock = some worker) ∧
        callbacks.turn loop worker =
          (callbacks.move worker (.turn : LoopEvent (loop worker))).release worker) := by
  by_cases before : (callbacks.workers worker).point = .callback
  · cases lock : callbacks.lock with
    | none =>
        refine Or.inr (Or.inl ⟨before, rfl, ?_⟩)
        simp only [turn, before, lock, if_true]
    | some holder =>
        by_cases same : holder = worker
        · refine Or.inr (Or.inr ⟨fun _ => congrArg some same, ?_⟩)
          simp only [turn, before, lock, same, if_true]
        · refine Or.inl ⟨before, ⟨holder, same, rfl⟩, ?_⟩
          simp only [turn, before, lock, same, if_true, if_false]
  · refine Or.inr (Or.inr ⟨fun callback => absurd callback before, ?_⟩)
    simp only [turn, before, if_false]

/-- A worker that moves on keeps the lock inside, and nowhere else. -/
theorem Sound.proceed (sound : callbacks.Sound loop)
    (allowed : (callbacks.workers worker).point = .callback → callbacks.lock = some worker) :
    ((callbacks.move worker (.turn : LoopEvent (loop worker))).release worker).Sound loop := by
  obtain ⟨enters, leaves, stays⟩ := turn_inScope (sound.orderly worker)
  have next : (callbacks.move worker (.turn : LoopEvent (loop worker))).workers worker =
      (callbacks.workers worker).turn (loop worker) := move_self
  constructor
  · intro other
    rw [release_workers]
    by_cases same : other = worker
    · subst same
      rw [next]
      exact orderly_turn (sound.orderly other)
    · rw [move_other same]
      exact sound.orderly other
  · intro other
    have before := sound.holds other
    unfold release
    split
    · next released =>
        obtain ⟨lock, atHead⟩ := released
        rw [move_lock] at lock
        simp only [Inside, reduceCtorEq, and_false, false_or, iff_false]
        by_cases same : other = worker
        · subst same
          rintro (reply | ⟨sleep, _⟩)
          · exact absurd (reply.symm.trans atHead) (by decide)
          · exact absurd (sleep.symm.trans atHead) (by decide)
        · rw [move_other same]
          intro inScope
          have holder := before.mp (Or.inr inScope)
          rw [lock] at holder
          exact same (Option.some.inj holder).symm
    · next kept =>
        simp only [move_lock, not_and] at kept
        by_cases same : other = worker
        · subst same
          simp only [Inside, move_lock, next] at before ⊢
          rw [next] at kept
          by_cases lock : callbacks.lock = some other
          · have moved : InScope (loop other) ((callbacks.workers other).turn (loop other)) := by
              rcases before.mpr lock with ⟨callback, _⟩ | inScope
              · exact (enters callback).resolve_left (kept lock)
              · exact absurd (leaves inScope) (kept lock)
            exact ⟨fun _ => lock, fun _ => Or.inr moved⟩
          · have outside := stays fun callback => lock (allowed callback)
            simp [lock, outside]
        · simpa only [Inside, move_lock, move_other same] using before

theorem step_sound (sound : callbacks.Sound loop) (event : WorkerEvent loop) :
    (callbacks.step event).Sound loop := by
  have others (worker : ι) (event : LoopEvent (loop worker))
      (point : ((callbacks.workers worker).step event).point = (callbacks.workers worker).point) :
      (callbacks.move worker event).Sound loop := by
    constructor
    · intro other
      by_cases same : other = worker
      · subst same
        rw [move_self]
        exact orderly_step event (sound.orderly other)
      · rw [move_other same]
        exact sound.orderly other
    · intro other
      have before := sound.holds other
      simpa only [Inside, InScope, move_lock, move_point event point other] using before
  obtain ⟨worker, event⟩ := event
  cases event with
  | turn =>
      simp only [step]
      rcases turn_cases loop callbacks worker with ⟨_, _, waits⟩ | ⟨callback, free, takes⟩ | ⟨allowed, moves⟩
      · rw [waits]
        exact sound
      · rw [takes]
        refine ⟨sound.orderly, fun other => ?_⟩
        have before := sound.holds other
        simp only [Inside, free, reduceCtorEq, and_false, false_or, iff_false] at before ⊢
        simp only [before, or_false, Option.some.injEq]
        exact ⟨fun taken => taken.2, fun same => ⟨same ▸ callback, same⟩⟩
      · rw [moves]
        exact sound.proceed allowed
  | arrive message =>
      exact others worker (.arrive message) (arrive_point message.toList)
  | cancel => exact others worker .cancel rfl

/-- How far a worker is from its end once it was told to leave: taking the lock counts. -/
def cost (callbacks : Callbacks ι) (worker : ι) : Nat :=
  (callbacks.workers worker).remaining +
    if 3 ≤ (callbacks.workers worker).remaining ∧ callbacks.lock ≠ some worker then 1 else 0

/-- Another worker has the lock that this one waits for. -/
def Blocked (callbacks : Callbacks ι) (worker : ι) : Prop :=
  (callbacks.workers worker).point = .callback ∧ callbacks.lock ≠ none ∧
    callbacks.lock ≠ some worker

/-- A turn gets the worker nowhere now. -/
def Held (callbacks : Callbacks ι) (worker : ι) : Prop :=
  (callbacks.workers worker).WaitsForPeer ∨ callbacks.Blocked worker

instance (callbacks : Callbacks ι) (worker : ι) : Decidable (callbacks.Blocked worker) :=
  inferInstanceAs (Decidable (_ ∧ _ ∧ _))

instance (callbacks : Callbacks ι) (worker : ι) : Decidable (callbacks.Held worker) :=
  inferInstanceAs (Decidable ((_ ∧ _) ∨ callbacks.Blocked worker))

/-- One for a turn of the worker that it does not spend waiting. -/
def turnFree (callbacks : Callbacks ι) (worker : ι) : WorkerEvent loop → Nat
  | .of other .turn => if other = worker ∧ ¬callbacks.Held worker then 1 else 0
  | _ => 0

/-- A turn that is not spent waiting brings a worker that was told to leave closer to its
end. -/
theorem Sound.turn_cost (sound : callbacks.Sound loop)
    (told : (callbacks.workers worker).exitSignal = true) (free : ¬callbacks.Held worker) :
    (callbacks.turn loop worker).cost worker ≤ callbacks.cost worker - 1 := by
  obtain ⟨hears, unblocked⟩ := not_or.mp free
  rcases turn_cases loop callbacks worker with ⟨callback, ⟨holder, different, lock⟩, _⟩ |
    ⟨callback, open_, takes⟩ | ⟨allowed, moves⟩
  · exact absurd ⟨callback, by simp [lock], by simpa [lock] using different⟩ unblocked
  · rw [takes]
    have three : (callbacks.workers worker).remaining = 3 := by simp [remaining, callback]
    simp [cost, three, open_]
  · have lower := remaining_turn (sound.orderly worker) told hears
    have next : (callbacks.turn loop worker).workers worker =
        (callbacks.workers worker).turn (loop worker) := by
      rw [moves, release_workers]
      exact move_self
    have released := release_lock (callbacks.move worker (.turn : LoopEvent (loop worker))) worker
    rw [← moves, move_lock, move_self] at released
    simp only [cost, next]
    rcases released with same | ⟨lock, atHead, _⟩
    · rw [same]
      by_cases lock : callbacks.lock = some worker
      · simp only [lock, ne_eq, not_true, and_false, if_false]
        omega
      · simp only [lock, ne_eq, not_false_eq_true, and_true]
        split_ifs <;> omega
    · have one : ((callbacks.workers worker).turn (loop worker)).remaining = 1 := by
        have atHead : ((callbacks.workers worker).turn (loop worker)).point = .exitCheck := atHead
        simp [remaining, atHead]
      have two : ¬3 ≤ 1 := by decide
      rw [one] at lower ⊢
      rw [if_neg fun inside => two inside.1]
      omega

theorem turn_held (held : callbacks.Held worker) : callbacks.turn loop worker = callbacks := by
  rcases held with waits | ⟨callback, taken, other⟩
  · have still : callbacks.move worker (.turn : LoopEvent (loop worker)) = callbacks := by
      have same : (callbacks.workers worker).step (.turn : LoopEvent (loop worker)) =
          callbacks.workers worker := turn_waitsForPeer waits
      simp only [move, same, Function.update_eq_self]
    have away : (callbacks.workers worker).point ≠ .callback ∧
        (callbacks.workers worker).point ≠ .exitCheck := by
      rcases waits.1 with receives | receives <;> simp [receives]
    rw [turn, if_neg away.1, still, release_outside away.2]
  · obtain ⟨holder, lock⟩ := Option.ne_none_iff_exists'.mp taken
    have different : holder ≠ worker := fun same => other (same ▸ lock)
    simp only [turn, callback, lock, different, if_true, if_false]

/-- What happens to other workers, and what a worker waits for or is told, costs it
nothing. -/
theorem step_cost (event : WorkerEvent loop)
    (waits : event = .of worker .turn → callbacks.Held worker) :
    (callbacks.step event).cost worker = callbacks.cost worker := by
  obtain ⟨other, event⟩ := event
  have moved (event : LoopEvent (loop other))
      (same : ((callbacks.workers other).step event).point = (callbacks.workers other).point) :
      (callbacks.move other event).cost worker = callbacks.cost worker := by
    have remaining : ((callbacks.move other event).workers worker).remaining =
        (callbacks.workers worker).remaining := by
      simp only [LoopState.remaining, move_point event same worker]
    simp only [cost, remaining, move_lock]
  cases event with
  | arrive message => exact moved (.arrive message) (arrive_point message.toList)
  | cancel => exact moved .cancel rfl
  | turn =>
      by_cases same : worker = other
      · subst same
        rw [step, turn_held (waits rfl)]
      · simp only [step]
        rcases turn_cases loop callbacks other with ⟨_, _, stays⟩ | ⟨_, open_, takes⟩ | ⟨_, moves⟩
        · rw [stays]
        · rw [takes]
          simp [cost, open_, Ne.symm same]
        · have released :=
            release_lock (callbacks.move other (.turn : LoopEvent (loop other))) other
          rw [← moves, move_lock] at released
          have kept : (callbacks.turn loop other).workers worker = callbacks.workers worker := by
            rw [moves, release_workers, move_other same]
          simp only [cost, kept]
          rcases released with stays | ⟨lock, _, open_⟩
          · rw [stays]
          · simp [open_, lock, Ne.symm same]

theorem step_cost_le (sound : callbacks.Sound loop) (event : WorkerEvent loop)
    (told : (callbacks.workers worker).exitSignal = true) :
    (callbacks.step event).cost worker ≤ callbacks.cost worker - callbacks.turnFree worker event := by
  obtain ⟨other, event⟩ := event
  cases event with
  | arrive message => exact Nat.le_of_eq (step_cost (.of other (.arrive message)) (by rintro ⟨⟩))
  | cancel => exact Nat.le_of_eq (step_cost (.of other .cancel) (by rintro ⟨⟩))
  | turn =>
      rw [turnFree]
      split
      · next free =>
          obtain ⟨rfl, free⟩ := free
          exact sound.turn_cost told free
      · next waits =>
          refine Nat.le_of_eq (step_cost (.of other .turn) fun same => ?_)
          cases same
          exact not_not.mp fun free => waits ⟨rfl, free⟩

theorem step_told (event : WorkerEvent loop)
    (told : (callbacks.workers worker).exitSignal = true) :
    ((callbacks.step event).workers worker).exitSignal = true := by
  obtain ⟨other, event⟩ := event
  have moved (event : LoopEvent (loop other)) :
      ((callbacks.move other event).workers worker).exitSignal = true := by
    by_cases same : worker = other
    · subst same
      rw [move_self]
      exact step_exitSignal event told
    · rw [move_other same]
      exact told
  cases event with
  | arrive message => exact moved (.arrive message)
  | cancel => exact moved .cancel
  | turn =>
      simp only [step]
      rcases turn_cases loop callbacks other with ⟨_, _, stays⟩ | ⟨_, _, takes⟩ | ⟨_, moves⟩
      · rw [stays]
        exact told
      · rw [takes]
        exact told
      · rw [moves, release_workers]
        exact moved .turn

end Steps

end Callbacks

/-- The turns of one worker. -/
def turnsOf [DecidableEq ι] {loop : ι → WorkerLoop} (worker : ι) : List (WorkerEvent loop) → Nat
  | [] => 0
  | .of other .turn :: rest => if other = worker then turnsOf worker rest + 1 else turnsOf worker rest
  | _ :: rest => turnsOf worker rest

/-- Those of them that are not spent waiting, for a frame or for the lock. -/
def turnsFree [DecidableEq ι] {loop : ι → WorkerLoop} (worker : ι) :
    Callbacks ι → List (WorkerEvent loop) → Nat
  | _, [] => 0
  | callbacks, event :: rest =>
      callbacks.turnFree worker event + turnsFree worker (callbacks.step event) rest

/-- A worker that was told to leave ends after few turns of its own.  What it can spend
others on is a reply that has not come, if it is a requester, or a callback of another
worker, which is over after two turns of that one. -/
structure LetsGo [DecidableEq ι] (loop : ι → WorkerLoop) (callbacks : Callbacks ι) (worker : ι)
    (after : List (WorkerEvent loop)) : Prop where
  ends : 7 ≤ turnsFree worker callbacks after →
    ((Run.final Callbacks.step callbacks after).workers worker).point = .ended
  waits : ((Run.final Callbacks.step callbacks after).workers worker).WaitsForPeer →
    loop worker = .requester ∧
      ((Run.final Callbacks.step callbacks after).workers worker).awaiting = true
  blocked : (Run.final Callbacks.step callbacks after).Blocked worker →
    ∃ holder ≠ worker, (Run.final Callbacks.step callbacks after).Inside loop holder ∧
      ∀ later : List (WorkerEvent loop), 2 ≤ turnsOf holder later → ∃ first rest, later = first ++ rest ∧
        (Run.final Callbacks.step (Run.final Callbacks.step callbacks after) first).lock = none

section Results

variable [DecidableEq ι] {loop : ι → WorkerLoop}

theorem run_sound (events : List (WorkerEvent loop)) :
    (Run.final Callbacks.step .start events).Sound loop :=
  Run.final_invariant (Callbacks.Sound loop) (fun event _ _ sound => Callbacks.step_sound sound event)
    Callbacks.start_sound

/-- What others do leaves a worker inside, and where it is. -/
theorem inside_other {callbacks : Callbacks ι} (sound : callbacks.Sound loop) {worker : ι}
    (inside : callbacks.Inside loop worker) (event : WorkerEvent loop)
    (turns : event ≠ .of worker .turn) :
    (callbacks.step event).Inside loop worker ∧
      ((callbacks.step event).workers worker).point = (callbacks.workers worker).point := by
  have lock := (sound.holds worker).mp inside
  have next := Callbacks.step_sound sound event
  obtain ⟨other, event⟩ := event
  cases event with
  | turn =>
      have different : worker ≠ other := fun same => turns (by rw [same])
      simp only [Callbacks.step] at next ⊢
      rcases Callbacks.turn_cases loop callbacks other with ⟨_, _, waits⟩ | ⟨_, free, _⟩ | ⟨_, moves⟩
      · rw [waits]
        exact ⟨inside, rfl⟩
      · cases lock.symm.trans free
      · have kept : (callbacks.turn loop other).lock = some worker := by
          rcases Callbacks.release_lock (callbacks.move other (.turn : LoopEvent (loop other))) other
            with kept | ⟨held, _, _⟩
          · rw [moves, kept]
            exact lock
          · exact absurd (Option.some.inj (lock.symm.trans held)) different
        refine ⟨(next.holds worker).mpr kept, ?_⟩
        rw [moves, Callbacks.release_workers, Callbacks.move_other different]
  | arrive message =>
      exact ⟨(next.holds worker).mpr lock,
        Callbacks.move_point (.arrive message) (arrive_point message.toList) worker⟩
  | cancel => exact ⟨(next.holds worker).mpr lock, Callbacks.move_point .cancel rfl worker⟩

/-- Its own turn takes a worker that is inside on, or out. -/
theorem inside_turn {callbacks : Callbacks ι} (sound : callbacks.Sound loop) {worker : ι}
    (inside : callbacks.Inside loop worker) :
    (callbacks.turn loop worker).lock = none ∨
      (callbacks.workers worker).point = .callback ∧
        (callbacks.turn loop worker).Inside loop worker ∧
        ((callbacks.turn loop worker).workers worker).point ≠ .callback := by
  have lock := (sound.holds worker).mp inside
  have next : (callbacks.turn loop worker).Sound loop :=
    Callbacks.step_sound sound (.of worker .turn)
  obtain ⟨enters, leaves, _⟩ := turn_inScope (sound.orderly worker)
  rcases Callbacks.turn_cases loop callbacks worker with ⟨_, ⟨holder, different, held⟩, _⟩ |
    ⟨_, free, _⟩ | ⟨_, moves⟩
  · exact absurd (Option.some.inj (held.symm.trans lock)) different
  · cases lock.symm.trans free
  · rcases Callbacks.release_lock (callbacks.move worker (.turn : LoopEvent (loop worker))) worker
      with kept | ⟨_, _, free⟩
    · have inside' : (callbacks.turn loop worker).Inside loop worker :=
        (next.holds worker).mpr ((congrArg Callbacks.lock moves).trans (kept.trans lock))
      have moved : (callbacks.turn loop worker).workers worker =
          (callbacks.workers worker).turn (loop worker) := by
        rw [moves, Callbacks.release_workers]
        exact Callbacks.move_self
      have away : ((callbacks.workers worker).turn (loop worker)).point ≠ .exitCheck := by
        intro atHead
        simp [Callbacks.Inside, InScope, moved, atHead] at inside'
      have callback : (callbacks.workers worker).point = .callback := by
        rcases inside with ⟨callback, _⟩ | inScope
        · exact callback
        · exact absurd (leaves inScope) away
      refine Or.inr ⟨callback, inside', ?_⟩
      rw [moved]
      rcases (enters callback).resolve_left away with reply | ⟨sleep, _⟩
      · simp [reply]
      · simp [sleep]
    · exact Or.inl ((congrArg Callbacks.lock moves).trans free)

/-- The holder waits for nobody. -/
theorem holder_releases {callbacks : Callbacks ι} (sound : callbacks.Sound loop) {worker : ι}
    (inside : callbacks.Inside loop worker) {after : List (WorkerEvent loop)}
    (enough : (if (callbacks.workers worker).point = .callback then 2 else 1) ≤
      turnsOf worker after) :
    ∃ first rest, after = first ++ rest ∧
      (Run.final Callbacks.step callbacks first).lock = none := by
  induction after generalizing callbacks with
  | nil =>
      simp only [turnsOf] at enough
      split_ifs at enough <;> omega
  | cons event rest ih =>
      have next := Callbacks.step_sound sound event
      have later (inside' : (callbacks.step event).Inside loop worker)
          (enough' : (if ((callbacks.step event).workers worker).point = .callback then 2 else 1) ≤
            turnsOf worker rest) :
          ∃ first after, event :: rest = first ++ after ∧
            (Run.final Callbacks.step callbacks first).lock = none := by
        obtain ⟨first, after, split, free⟩ := ih next inside' enough'
        exact ⟨event :: first, after, by rw [split, List.cons_append], free⟩
      by_cases turns : event = .of worker .turn
      · subst turns
        rcases inside_turn sound inside with free | ⟨callback, inside', behind⟩
        · exact ⟨[.of worker .turn], rest, rfl, free⟩
        · refine later inside' ?_
          simp only [turnsOf, callback, if_true] at enough
          change (if ((callbacks.turn loop worker).workers worker).point = .callback then 2 else 1) ≤ _
          rw [if_neg behind]
          omega
      · obtain ⟨inside', same⟩ := inside_other sound inside event turns
        refine later inside' ?_
        rw [same]
        refine Nat.le_trans enough (Nat.le_of_eq ?_)
        obtain ⟨other, event⟩ := event
        cases event with
        | turn => exact if_neg fun same => turns (by rw [same])
        | arrive message => rfl
        | cancel => rfl

/-- While a worker is between its callback and the end of its turn no other callback
runs; and it comes to that end by two turns of its own, whatever the others do. -/
theorem callbacks_exclusive (events after : List (WorkerEvent loop)) (worker : ι)
    (inside : (Run.final Callbacks.step .start events).Inside loop worker) :
    let callbacks := Run.final Callbacks.step .start events
    (∀ other ≠ worker, ¬callbacks.Inside loop other ∧
      ((callbacks.workers other).point = .callback →
        callbacks.step (.of other .turn : WorkerEvent loop) = callbacks)) ∧
    (2 ≤ turnsOf worker after → ∃ first rest, after = first ++ rest ∧
      (Run.final Callbacks.step callbacks first).lock = none) := by
  intro callbacks
  have sound : callbacks.Sound loop := run_sound events
  have lock := (sound.holds worker).mp inside
  refine ⟨fun other different => ⟨fun otherInside => ?_, fun callback => ?_⟩, fun enough => ?_⟩
  · have otherLock := (sound.holds other).mp otherInside
    exact different (Option.some.inj (otherLock.symm.trans lock))
  · simp only [Callbacks.step, Callbacks.turn, callback, lock, different.symm, if_true, if_false]
  · refine holder_releases sound inside (Nat.le_trans ?_ enough)
    split_ifs <;> omega

/-- A server and a subscriber. -/
def twoLoops (worker : Bool) : WorkerLoop := if worker then .server else .subscriber

/-- The server has its callback behind it while the subscriber comes to its own. -/
def twoCallbacks : List (WorkerEvent twoLoops) :=
  [.of true (.arrive #v[[1]]), .of false (.arrive #v[[2], [3]]), .of true .turn, .of true .turn,
    .of true .turn, .of true .turn, .of true .turn, .of false .turn, .of false .turn,
    .of false .turn, .of false .turn]

theorem callbacks_exclusive_two :
    let callbacks := Run.final Callbacks.step .start twoCallbacks
    let after : List (WorkerEvent twoLoops) := [.of false .turn, .of true .turn, .of true .turn]
    (∀ other ≠ true, ¬callbacks.Inside twoLoops other ∧
      ((callbacks.workers other).point = .callback →
        callbacks.step (.of other .turn : WorkerEvent twoLoops) = callbacks)) ∧
    (2 ≤ turnsOf true after → ∃ first rest, after = first ++ rest ∧
      (Run.final Callbacks.step callbacks first).lock = none) :=
  callbacks_exclusive twoCallbacks _ true (Or.inr (Or.inl rfl))

theorem final_cost {callbacks : Callbacks ι} {worker : ι} (after : List (WorkerEvent loop))
    (sound : callbacks.Sound loop) (told : (callbacks.workers worker).exitSignal = true) :
    (Run.final Callbacks.step callbacks after).cost worker ≤
      callbacks.cost worker - turnsFree worker callbacks after := by
  induction after generalizing callbacks with
  | nil => exact Nat.le_refl _
  | cons event rest ih =>
      have here := Callbacks.step_cost_le sound event told
      have later := ih (Callbacks.step_sound sound event) (Callbacks.step_told event told)
      rw [Run.final_cons, turnsFree]
      omega

theorem blocked_holder {callbacks : Callbacks ι} {worker : ι} (sound : callbacks.Sound loop)
    (blocked : callbacks.Blocked worker) :
    ∃ holder ≠ worker, callbacks.Inside loop holder ∧ ∀ later : List (WorkerEvent loop),
      2 ≤ turnsOf holder later → ∃ first rest, later = first ++ rest ∧
        (Run.final Callbacks.step callbacks first).lock = none := by
  obtain ⟨_, taken, other⟩ := blocked
  obtain ⟨holder, lock⟩ := Option.ne_none_iff_exists'.mp taken
  have inside := (sound.holds holder).mpr lock
  refine ⟨holder, fun same => other (same ▸ lock), inside, fun later enough => ?_⟩
  refine holder_releases sound inside (Nat.le_trans ?_ enough)
  split_ifs <;> omega

/-- The lock keeps no worker from its end for good: one that was told to leave has ended
after seven turns that it does not spend waiting, whatever the others do. -/
theorem callbacks_let_go (before after : List (WorkerEvent loop)) (worker : ι)
    (told : ((Run.final Callbacks.step .start before).workers worker).exitSignal = true) :
    LetsGo loop (Run.final Callbacks.step .start before) worker after := by
  have sound : (Run.final Callbacks.step .start before).Sound loop := run_sound before
  have final : (Run.final Callbacks.step (Run.final Callbacks.step .start before) after).Sound
      loop := by
    rw [← Run.final_append]
    exact run_sound (before ++ after)
  refine ⟨fun enough => ?_, fun waits => waits_awaiting (final.orderly worker) waits,
    blocked_holder final⟩
  have lowered := final_cost after sound told
  have bound : (Run.final Callbacks.step .start before).cost worker ≤ 7 := by
    have six := remaining_le ((Run.final Callbacks.step .start before).workers worker)
    unfold Callbacks.cost
    split_ifs <;> omega
  have none_left : (Run.final Callbacks.step (Run.final Callbacks.step .start before) after).cost
      worker = 0 := by omega
  exact ended_of_remaining (Nat.eq_zero_of_add_eq_zero_right none_left)

/-- The subscriber is told to leave while the server has the lock, and waits for it. -/
def toldInside : List (WorkerEvent twoLoops) := twoCallbacks ++ [.of false .cancel]

theorem callbacks_let_go_two :
    let callbacks := Run.final Callbacks.step .start toldInside
    let after : List (WorkerEvent twoLoops) :=
      [.of false .turn, .of true .turn] ++ List.replicate 7 (.of false .turn)
    LetsGo twoLoops callbacks false after ∧ callbacks.Blocked false ∧
      turnsFree false callbacks after = 7 :=
  ⟨callbacks_let_go toldInside _ false rfl, by decide, by decide⟩

end Results

end Sentinet.Network
