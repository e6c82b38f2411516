import Mathlib.Logic.Function.Basic
import Sentinet.Data.Run

namespace Sentinet.Network

open Sentinet.Data

/-! `start`, `pause` and `stop` of a `ProxyInterface`, called by any threads, one
read or write of the shared flags at a time. -/

/-- A call, made directly or by the handler of `START`, `PAUSE` or `CLEAN_STOP`. -/
inductive ControlCall where
  | start | pause | stop
deriving DecidableEq, Repr

/-- What a thread does next.  The loop of `start` tests `paused`, `running` and the
exit signal in this order, that of `pause` tests `running`, the exit signal and
`paused`; `entered` once the loop of `start` has been passed into. -/
inductive CallPoint where
  | idle
  | startLift
  | testPaused (entered : Bool)
  | testRunning (entered : Bool)
  | testExit (entered : Bool)
  | spin
  | pauseSet
  | waitRunning
  | waitExit
  | waitPaused
  | pauseLift
  | stopWrite
deriving DecidableEq, Repr

namespace CallPoint

def inStart : CallPoint → Bool
  | .startLift | .testPaused _ | .testRunning _ | .testExit _ | .spin => true
  | _ => false

/-- In `start`, with `paused = false` behind it. -/
def lifted : CallPoint → Bool
  | .testPaused _ | .testRunning _ | .testExit _ | .spin => true
  | _ => false

def inLoop : CallPoint → Bool
  | .testPaused entered | .testRunning entered | .testExit entered => entered
  | .spin => true
  | _ => false

/-- In the loop of `start`, or on the way into it as the flags are: no one takes a
stop or the exit signal back, so a test that they fail keeps a call out. -/
def entersLoop (running exitSignal : Bool) : CallPoint → Bool
  | .testPaused entered | .testRunning entered => entered || running && !exitSignal
  | .testExit entered => entered || !exitSignal
  | .spin => true
  | _ => false

/-- In the loop of `pause`. -/
def waits : CallPoint → Bool
  | .waitRunning | .waitExit | .waitPaused => true
  | _ => false

/-- In `pause`, with `paused = true` behind it. -/
def pausing (point : CallPoint) : Bool := point.waits || point == .pauseLift

end CallPoint

def ControlCall.entry : ControlCall → CallPoint
  | .start => .startLift
  | .pause => .pauseSet
  | .stop => .stopWrite

/-- The flags of a proxy and the threads that use it; `started` records that a call
of `start` got under way. -/
structure ProxyState where
  running : Bool
  paused : Bool
  exitSignal : Bool
  started : Bool
  point : Nat → CallPoint

inductive ThreadEvent where
  | call (thread : Nat) (request : ControlCall)
  | turn (thread : Nat)
  | exit
deriving DecidableEq, Repr

namespace ProxyState

/-- A constructed proxy; what `paused` holds was not set. -/
def create (paused : Bool) : ProxyState :=
  { running := true, paused, exitSignal := false, started := false, point := fun _ => .idle }

def goto (state : ProxyState) (thread : Nat) (point : CallPoint) : ProxyState :=
  { state with point := Function.update state.point thread point }

def call (state : ProxyState) (thread : Nat) (request : ControlCall) : ProxyState :=
  if state.point thread = .idle then
    state.goto thread request.entry
  else state

def turn (state : ProxyState) (thread : Nat) : ProxyState :=
  match state.point thread with
  | .idle => state
  | .startLift => { state.goto thread (.testPaused false) with paused := false, started := true }
  | .testPaused entered =>
      state.goto thread (if state.paused then .idle else .testRunning entered)
  | .testRunning entered =>
      state.goto thread (if state.running then .testExit entered else .idle)
  | .testExit _ => state.goto thread (if state.exitSignal then .idle else .spin)
  | .spin => state.goto thread (.testPaused true)
  | .pauseSet => { state.goto thread .waitRunning with paused := true }
  | .waitRunning => state.goto thread (if state.running then .waitExit else .pauseLift)
  | .waitExit => state.goto thread (if state.exitSignal then .pauseLift else .waitPaused)
  | .waitPaused => state.goto thread (if state.paused then .waitRunning else .pauseLift)
  | .pauseLift => { state.goto thread .idle with paused := false }
  | .stopWrite => { state.goto thread .idle with running := false }

def step (state : ProxyState) : ThreadEvent → ProxyState
  | .call thread request => state.call thread request
  | .turn thread => state.turn thread
  | .exit => { state with exitSignal := true }

/-- Not stopped, neither by `stop` nor by the exit signal. -/
def Live (state : ProxyState) : Prop := state.running = true ∧ state.exitSignal = false

/-- At most one thread is in the forwarding loop, and a started proxy that was not
stopped and that no pauser holds has a thread in `start`. -/
structure OneLoop (state : ProxyState) : Prop where
  single : ∀ first second, (state.point first).inLoop = true → (state.point second).inLoop = true →
    first = second
  present : state.started = true → state.Live → (∀ thread, (state.point thread).pausing = false) →
    ∃ thread, (state.point thread).inStart = true

/-- In a live proxy no call of `start` lifts the pause while another has lifted it and
not yet returned, and no call of `pause` sets it while another has seen it lifted and
is about to lift it too. -/
def TakesTurns (state : ProxyState) : ThreadEvent → Prop
  | .turn thread =>
      (state.point thread = .startLift → state.Live →
          ∀ other, (state.point other).lifted = false) ∧
        (state.point thread = .pauseSet → state.Live → ∀ other, state.point other ≠ .pauseLift)
  | _ => True

/-- What taking turns keeps: one call at most is in the loop or can still enter it,
while a live proxy is paused a pauser waits and none is about to lift the pause, and
only a pause ends the last call of `start`. -/
structure Kept (state : ProxyState) : Prop where
  alone : ∀ first second,
    (state.point first).entersLoop state.running state.exitSignal = true →
    (state.point second).entersLoop state.running state.exitSignal = true → first = second
  waited : state.started = true → state.Live → state.paused = true →
    (∃ thread, (state.point thread).waits = true) ∧ ∀ thread, state.point thread ≠ .pauseLift
  forwarded : state.started = true → state.Live →
    (∀ thread, (state.point thread).inStart = false) → state.paused = true

end ProxyState

section Points

variable {points : Nat → CallPoint} {thread : Nat} {next : CallPoint} {test : CallPoint → Bool}

theorem update_unique (next : CallPoint)
    (unique : ∀ first second, test (points first) = true → test (points second) = true →
      first = second)
    (keeps : test next = true → ∀ other, test (points other) = true → other = thread)
    (first second : Nat) (holdsFirst : test (Function.update points thread next first) = true)
    (holdsSecond : test (Function.update points thread next second) = true) : first = second := by
  by_cases same : first = thread
  · subst same
    by_cases also : second = first
    · exact also.symm
    · rw [Function.update_self] at holdsFirst
      rw [Function.update_of_ne also] at holdsSecond
      exact (keeps holdsFirst second holdsSecond).symm
  · rw [Function.update_of_ne same] at holdsFirst
    by_cases also : second = thread
    · subst also
      rw [Function.update_self] at holdsSecond
      exact keeps holdsSecond first holdsFirst
    · rw [Function.update_of_ne also] at holdsSecond
      exact unique first second holdsFirst holdsSecond

theorem exists_update (keeps : test (points thread) = true → test next = true)
    (found : ∃ other, test (points other) = true) :
    ∃ other, test (Function.update points thread next other) = true := by
  obtain ⟨other, holds⟩ := found
  refine ⟨other, ?_⟩
  by_cases same : other = thread
  · subst same
    rw [Function.update_self]
    exact keeps holds
  · rwa [Function.update_of_ne same]

theorem forall_update {P : CallPoint → Prop} (new : P next)
    (old : ∀ other, P (points other)) (other : Nat) :
    P (Function.update points thread next other) :=
  (Function.forall_update_iff points fun _ => P).mpr ⟨new, fun other _ => old other⟩ other

end Points

section Steps

variable {state : ProxyState} {thread : Nat} {next : CallPoint} {event : ThreadEvent}

open ProxyState

theorem CallPoint.entersLoop_of_inLoop {point : CallPoint} {running exitSignal : Bool}
    (inLoop : point.inLoop = true) : point.entersLoop running exitSignal = true := by
  cases point <;> simp_all [CallPoint.entersLoop, CallPoint.inLoop]

theorem CallPoint.lifted_of_entersLoop {point : CallPoint} {running exitSignal : Bool}
    (enters : point.entersLoop running exitSignal = true) : point.lifted = true := by
  cases point <;> simp_all [CallPoint.entersLoop, CallPoint.lifted]

/-- Stopping lets no further call in. -/
theorem CallPoint.entersLoop_mono {point : CallPoint} {running exitSignal : Bool}
    (enters : point.entersLoop false exitSignal = true ∨ point.entersLoop running true = true) :
    point.entersLoop running exitSignal = true := by
  rcases enters with stopped | exited <;> cases point <;> simp_all [CallPoint.entersLoop]

theorem CallPoint.waits_of_lifted {point : CallPoint} (lifted : point.lifted = true) :
    point.waits = false := by
  cases point <;> simp_all [CallPoint.lifted, CallPoint.waits]

theorem CallPoint.inStart_of_waits {point : CallPoint} (waits : point.waits = true) :
    point.inStart = false := by
  cases point <;> simp_all [CallPoint.inStart, CallPoint.waits]

/-- A step that reads: it leaves `start` on a pause or on a stop, and a pauser waits
on unless it saw the pause lifted or the proxy stopped. -/
theorem goto_kept (kept : state.Kept)
    (enters : next.entersLoop state.running state.exitSignal = true →
      (state.point thread).entersLoop state.running state.exitSignal = true)
    (waits : state.Live → state.paused = true → (state.point thread).waits = true →
      next.waits = true)
    (lifts : state.Live → state.paused = true → next ≠ .pauseLift)
    (leaves : state.Live → state.paused = false → (state.point thread).inStart = true →
      next.inStart = true) : (state.goto thread next).Kept where
  alone := by
    apply update_unique _ kept.alone
    intro holds other also
    exact kept.alone other thread also (enters holds)
  waited := by
    intro started live paused
    obtain ⟨found, none_lifts⟩ := kept.waited started live paused
    exact ⟨exists_update (waits live paused) found,
      forall_update (P := (· ≠ .pauseLift)) (lifts live paused) none_lifts⟩
  forwarded := by
    intro started live outside
    by_contra unpaused
    have open_ : state.paused = false := Bool.eq_false_iff.mpr unpaused
    have none_start : ∀ other, (state.point other).inStart = false := by
      intro other
      by_contra inside
      have some_inside : ∃ other, (state.point other).inStart = true := ⟨other, by simpa using inside⟩
      obtain ⟨found, holds⟩ := exists_update (leaves live open_) some_inside
      exact absurd holds (Bool.eq_false_iff.mp (outside found))
    exact unpaused (kept.forwarded started live none_start)

/-- A test in `start`: unless it is paused or stopped, the call goes on. -/
theorem startReads_kept (kept : state.Kept) (lifted : (state.point thread).lifted = true)
    (enters : next.entersLoop state.running state.exitSignal = true →
      (state.point thread).entersLoop state.running state.exitSignal = true)
    (stays : state.Live → state.paused = false → next.inStart = true) (other : next ≠ .pauseLift) :
    (state.goto thread next).Kept := by
  have outside := CallPoint.waits_of_lifted lifted
  refine goto_kept kept enters ?_ (fun _ _ => other) fun live open_ _ => stays live open_
  intro _ _ waits
  exact absurd waits (Bool.eq_false_iff.mp outside)

/-- A test in `pause`: as long as it is paused and not stopped, the call waits. -/
theorem pauseReads_kept (kept : state.Kept) (waiting : (state.point thread).waits = true)
    (waits : state.Live → state.paused = true → next.waits = true) (outside : next.lifted = false) :
    (state.goto thread next).Kept := by
  refine goto_kept kept
    (fun enters => absurd (CallPoint.lifted_of_entersLoop enters) (Bool.eq_false_iff.mp outside))
    (fun live paused _ => waits live paused) ?_ ?_
  · intro live paused lifts
    have waits_on := waits live paused
    rw [lifts] at waits_on
    cases waits_on
  · intro _ _ inStart
    exact absurd inStart (Bool.eq_false_iff.mp (CallPoint.inStart_of_waits waiting))

theorem call_kept (kept : state.Kept) {request : ControlCall} : (state.call thread request).Kept := by
  unfold ProxyState.call
  split
  · next idle =>
      cases request <;>
        exact goto_kept kept (by simp [ControlCall.entry, CallPoint.entersLoop])
          (by simp [idle, CallPoint.waits]) (by simp [ControlCall.entry])
          (by simp [idle, CallPoint.inStart])
  · exact kept

theorem startLift_kept (kept : state.Kept)
    (alone : state.Live → ∀ other, (state.point other).lifted = false) :
    ProxyState.Kept
      { state.goto thread (.testPaused false) with paused := false, started := true } where
  alone := by
    apply update_unique _ kept.alone
    intro enters other also
    have live : state.Live := by simpa [CallPoint.entersLoop, Live] using enters
    exact absurd (CallPoint.lifted_of_entersLoop also) (Bool.eq_false_iff.mp (alone live other))
  waited _ _ paused := absurd paused Bool.false_ne_true
  forwarded _ _ outside := by
    have inside := outside thread
    simp [goto, CallPoint.inStart] at inside

theorem pauseSet_kept (kept : state.Kept)
    (alone : state.Live → ∀ other, state.point other ≠ .pauseLift) :
    ProxyState.Kept { state.goto thread .waitRunning with paused := true } where
  alone := update_unique _ kept.alone (by simp [CallPoint.entersLoop])
  waited _ live _ :=
    ⟨⟨thread, by simp [goto, CallPoint.waits]⟩,
      forall_update (P := (· ≠ .pauseLift)) (by simp) (alone live)⟩
  forwarded _ _ _ := rfl

/-- The pauser that lifts the pause is not the one that a stopped forwarding waits for. -/
theorem pauseLift_kept (kept : state.Kept) (lifts : state.point thread = .pauseLift) :
    ProxyState.Kept { state.goto thread .idle with paused := false } where
  alone := update_unique _ kept.alone (by simp [CallPoint.entersLoop])
  waited _ _ paused := absurd paused Bool.false_ne_true
  forwarded started live outside := by
    have none_start : ∀ other, (state.point other).inStart = false := by
      intro other
      by_cases same : other = thread
      · rw [same, lifts]
        rfl
      · have still : (Function.update state.point thread .idle other).inStart = false := outside other
        rwa [Function.update_of_ne same] at still
    have paused := kept.forwarded started live none_start
    exact absurd lifts ((kept.waited started live paused).2 thread)

theorem stopWrite_kept (kept : state.Kept) :
    ProxyState.Kept { state.goto thread .idle with running := false } where
  alone first second inFirst inSecond :=
    update_unique .idle kept.alone (by simp [CallPoint.entersLoop]) first second
      (CallPoint.entersLoop_mono (.inl inFirst)) (CallPoint.entersLoop_mono (.inl inSecond))
  waited _ live _ := absurd live.1 Bool.false_ne_true
  forwarded _ live _ := absurd live.1 Bool.false_ne_true

theorem turn_kept (kept : state.Kept) (turns : state.TakesTurns (.turn thread)) :
    (state.turn thread).Kept := by
  unfold turn
  cases point : state.point thread with
  | idle => exact kept
  | startLift => exact startLift_kept kept (turns.1 point)
  | pauseSet => exact pauseSet_kept kept (turns.2 point)
  | pauseLift => exact pauseLift_kept kept point
  | stopWrite => exact stopWrite_kept kept
  | testPaused entered =>
      exact startReads_kept kept (by rw [point]; rfl)
        (by rw [point]; split <;> simp [CallPoint.entersLoop])
        (fun _ unpaused => by simp [unpaused, CallPoint.inStart]) (by split <;> simp)
  | testRunning entered =>
      exact startReads_kept kept (by rw [point]; rfl)
        (by rw [point]; split <;> simp_all [CallPoint.entersLoop])
        (fun live _ => by simp [live.1, CallPoint.inStart]) (by split <;> simp)
  | testExit entered =>
      exact startReads_kept kept (by rw [point]; rfl)
        (by rw [point]; split <;> simp_all [CallPoint.entersLoop])
        (fun live _ => by simp [live.2, CallPoint.inStart]) (by split <;> simp)
  | spin =>
      exact startReads_kept kept (by rw [point]; rfl) (by rw [point]; exact fun _ => rfl)
        (fun _ _ => rfl) (by simp)
  | waitRunning =>
      exact pauseReads_kept kept (by rw [point]; rfl)
        (fun live _ => by simp [live.1, CallPoint.waits]) (by split <;> rfl)
  | waitExit =>
      exact pauseReads_kept kept (by rw [point]; rfl)
        (fun live _ => by simp [live.2, CallPoint.waits]) (by split <;> rfl)
  | waitPaused =>
      exact pauseReads_kept kept (by rw [point]; rfl)
        (fun _ paused => by simp [paused, CallPoint.waits]) (by split <;> rfl)

theorem step_kept (kept : state.Kept) (turns : state.TakesTurns event) : (state.step event).Kept := by
  cases event with
  | call thread request => exact call_kept kept
  | turn thread => exact turn_kept kept turns
  | exit =>
      have stopped : ¬(state.step .exit).Live := fun live => absurd live.2 (by simp [step])
      refine ⟨fun first second inFirst inSecond => ?_, fun _ live => absurd live stopped,
        fun _ live => absurd live stopped⟩
      exact kept.alone first second (CallPoint.entersLoop_mono (.inr inFirst))
        (CallPoint.entersLoop_mono (.inr inSecond))

theorem Kept.oneLoop (kept : state.Kept) : state.OneLoop where
  single first second inFirst inSecond :=
    kept.alone first second (CallPoint.entersLoop_of_inLoop inFirst)
      (CallPoint.entersLoop_of_inLoop inSecond)
  present started live unheld := by
    by_contra none_start
    simp only [not_exists, Bool.not_eq_true] at none_start
    obtain ⟨⟨pauser, waits⟩, _⟩ :=
      kept.waited started live (kept.forwarded started live none_start)
    have held := unheld pauser
    simp [CallPoint.pausing, waits] at held

end Steps

/-- Calls that take turns keep one forwarding loop, in every state of every run. -/
theorem oneLoop_of_takesTurns (paused : Bool) (events : List ThreadEvent)
    (turns : Run.EachStep ProxyState.step ProxyState.TakesTurns (.create paused) events) :
    Run.EachState ProxyState.step ProxyState.OneLoop (.create paused) events := by
  have initial : (ProxyState.create paused).Kept :=
    { alone := by simp [ProxyState.create, CallPoint.entersLoop]
      waited := fun started => absurd started Bool.false_ne_true
      forwarded := fun started => absurd started Bool.false_ne_true }
  exact Run.eachState_of_eachStep ProxyState.Kept (fun _ _ => step_kept) (fun _ => Kept.oneLoop)
    initial turns

/-- Thread 0 forwards, thread 1 pauses it, thread 0 leaves its loop, and a call of
`start` by thread 2 takes the forwarding up again. -/
def pausedAndResumed : List ThreadEvent :=
  [.call 0 .start, .turn 0, .turn 0, .turn 0, .turn 0, .call 1 .pause, .turn 1, .turn 0, .turn 0,
    .call 2 .start, .turn 2, .turn 2, .turn 2, .turn 2, .turn 1, .turn 1, .turn 1, .turn 1]

theorem pausedAndResumed_oneLoop :
    Run.EachStep ProxyState.step ProxyState.TakesTurns (.create false) pausedAndResumed ∧
      Run.EachState ProxyState.step ProxyState.OneLoop (.create false) pausedAndResumed := by
  have turns : Run.EachStep ProxyState.step ProxyState.TakesTurns (.create false) pausedAndResumed := by
    simp [pausedAndResumed, Run.EachStep, ProxyState.step, ProxyState.call, ProxyState.turn,
      ProxyState.goto, ProxyState.create, ProxyState.TakesTurns, ControlCall.entry]
    refine ⟨fun _ other => ?_, fun _ other => ?_, fun _ other => ?_⟩
    · by_cases first : other = 0 <;> simp [first, CallPoint.lifted]
    · by_cases first : other = 0 <;> by_cases second : other = 1 <;>
        simp [first, second]
    · by_cases first : other = 0 <;> by_cases second : other = 1 <;> by_cases third : other = 2 <;>
        simp [first, second, third, CallPoint.lifted]
  exact ⟨turns, oneLoop_of_takesTurns false pausedAndResumed turns⟩

/-- Thread 1 pauses while thread 0 spins, and `START` comes before thread 0 has
looked: both threads forward. -/
def resumedTooSoon : List ThreadEvent :=
  [.call 0 .start, .turn 0, .turn 0, .turn 0, .turn 0, .call 1 .pause, .turn 1,
    .call 2 .start, .turn 2, .turn 2, .turn 2, .turn 2]

theorem resumedTooSoon_doubles :
    ¬Run.EachState ProxyState.step ProxyState.OneLoop (.create false) resumedTooSoon := by
  intro every
  have single := (Run.eachState_final every).single 0 2 (by decide) (by decide)
  exact absurd single (by decide)

/-- Thread 2 pauses between the moment thread 1 sees its pause lifted and the
moment it lifts it too; thread 0 leaves its loop in between, and nobody pauses. -/
def pauseWithdrawn : List ThreadEvent :=
  [.call 0 .start, .turn 0, .turn 0, .turn 0, .turn 0, .call 1 .pause, .turn 1, .turn 0, .turn 0,
    .call 0 .start, .turn 0, .turn 1, .turn 1, .turn 1, .turn 0, .turn 0, .turn 0, .call 2 .pause,
    .turn 2, .turn 0, .turn 0, .turn 1, .turn 2, .turn 2, .turn 2, .turn 2]

theorem pauseWithdrawn_ends :
    ¬Run.EachState ProxyState.step ProxyState.OneLoop (.create false) pauseWithdrawn := by
  intro every
  have idle : (Run.final ProxyState.step (.create false) pauseWithdrawn).point = fun _ => .idle := by
    funext thread
    by_cases first : thread = 0 <;> by_cases second : thread = 1 <;> by_cases third : thread = 2 <;>
      simp [pauseWithdrawn, ProxyState.step, ProxyState.call, ProxyState.turn, ProxyState.goto,
        ProxyState.create, ControlCall.entry, first, second, third]
  obtain ⟨thread, inStart⟩ := (Run.eachState_final every).present rfl ⟨rfl, rfl⟩
    (by simp [idle, CallPoint.pausing, CallPoint.waits])
  simp [idle, CallPoint.inStart] at inStart

end Sentinet.Network
