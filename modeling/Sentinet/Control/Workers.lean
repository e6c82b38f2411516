import Mathlib.Data.List.AList

namespace Sentinet.Control

/-! The worker threads of `ZMQControlClient`, in maps from a name to what the
client keeps of a worker: its thread, the promise that tells it to leave its
loop, and its socket until the thread takes that over. -/

/-- How a call fails: the exceptions of the standard library, a null thread, or
a join of a thread that never ends, from which the call never returns. -/
inductive Fault where
  | futureAlreadyRetrieved | promiseAlreadySatisfied | threadNotJoinable | noThread | neverReturns
deriving DecidableEq, Repr

structure ExitSignal where
  retrieved : Bool
  satisfied : Bool
deriving DecidableEq

namespace ExitSignal

def getFuture (signal : ExitSignal) : Except Fault ExitSignal :=
  if signal.retrieved then .error .futureAlreadyRetrieved
  else .ok { signal with retrieved := true }

def setValue (signal : ExitSignal) : Except Fault ExitSignal :=
  if signal.satisfied then .error .promiseAlreadySatisfied
  else .ok { signal with satisfied := true }

end ExitSignal

inductive Worker where
  | publisher (sockAddr topic : String)
  | requester (server : String)
  | subscriber (sockAddr topic : String)
  | server (address : String) (bound : Bool)
deriving DecidableEq, Repr

/-- The worker never comes to look at its promise again: the requester receives with
no timeout, so it stays there when the reply to its request never comes.  Every
other worker polls. -/
def Worker.waits (unanswered : Bool) : Worker → Bool
  | .requester _ => unanswered
  | _ => false

structure Thread where
  worker : Worker
  joinable : Bool
deriving DecidableEq

/-- `thread->join()` of a thread told to leave its loop: it returns unless the
thread waits for a reply that never comes. -/
def joinThread (unanswered : Bool) : Option Thread → Except Fault Thread
  | none => .error .noThread
  | some thread =>
      if thread.joinable = false then .error .threadNotJoinable
      else if thread.worker.waits unanswered then .error .neverReturns
      else .ok { thread with joinable := false }

inductive SocketType where
  | pub | sub | req | rep
deriving DecidableEq

structure SocketThreadSpace where
  thread : Option Thread
  exitSignal : ExitSignal
  socket : Option SocketType
deriving DecidableEq

def SocketThreadSpace.empty : SocketThreadSpace :=
  { thread := none, exitSignal := { retrieved := false, satisfied := false }, socket := none }

abbrev Registry := AList fun _ : String => SocketThreadSpace

/-- `create_socket`: `emplace` keeps an entry that exists, and its socket is replaced. -/
def createSocket (type : SocketType) (map : Registry) (identifier : String) :
    SocketThreadSpace × Registry :=
  let space := (map.lookup identifier).getD .empty
  let space := { space with socket := some type }
  (space, map.insert identifier space)

/-- The body that the starting functions share: look for one name, create the
entry under another, take its future and start a thread that owns the socket. -/
def launch (map : Registry) (reference identifier : String) (type : SocketType) (worker : Worker) :
    Except Fault Bool × Registry :=
  match map.lookup reference with
  | some _ => (.ok false, map)
  | none =>
      let (val, map) := createSocket type map identifier
      match val.exitSignal.getFuture with
      | .error fault => (.error fault, map)
      | .ok exitSignal =>
          let thread := some { worker, joinable := true }
          (.ok true, map.insert identifier { thread, exitSignal, socket := none })

/-- What the canceling functions share; `unanswered` says that no reply comes any
more to a request the worker waits with. -/
def cancel (map : Registry) (reference : String) (unanswered : Bool) :
    Except Fault Bool × Registry :=
  match map.lookup reference with
  | none => (.ok false, map)
  | some space =>
      match space.exitSignal.setValue with
      | .error fault => (.error fault, map)
      | .ok exitSignal =>
          let space := { space with exitSignal }
          match joinThread unanswered space.thread with
          | .error fault => (.error fault, map.insert reference space)
          | .ok thread => (.ok true, map.insert reference { space with thread := some thread })

/-- One loop of `quit`, over the names in some order. -/
def cancelAll (map : Registry) (unanswered : String → Bool) :
    List String → Except Fault Unit × Registry
  | [] => (.ok (), map)
  | reference :: rest =>
      match cancel map reference (unanswered reference) with
      | (.error fault, map) => (.error fault, map)
      | (.ok _, map) => cancelAll map unanswered rest

/-! Entries are started and then stopped, and never leave the map. -/

section Entries

def SocketThreadSpace.started (worker : Worker) : SocketThreadSpace :=
  { thread := some { worker, joinable := true }
    exitSignal := { retrieved := true, satisfied := false }, socket := none }

def SocketThreadSpace.Runs (space : SocketThreadSpace) (worker : Worker) : Prop :=
  space.thread = some { worker, joinable := true } ∧
    space.exitSignal = { retrieved := true, satisfied := false }

/-- The worker of the entry was told to leave. -/
def SocketThreadSpace.Stopped (space : SocketThreadSpace) : Prop :=
  space.exitSignal = { retrieved := true, satisfied := true }

variable {map : Registry} {reference identifier : String} {type : SocketType} {worker : Worker}
  {space : SocketThreadSpace} {unanswered : Bool} {silent : String → Bool}

theorem SocketThreadSpace.not_stopped_of_runs (runs : space.Runs worker) : ¬ space.Stopped := by
  intro stopped
  have same := runs.2.symm.trans stopped
  simp at same

theorem started_runs : (SocketThreadSpace.started worker).Runs worker := ⟨rfl, rfl⟩

theorem launch_found (found : map.lookup reference = some space) :
    launch map reference identifier type worker = (.ok false, map) := by
  simp only [launch, found]

theorem launch_fresh (absent : map.lookup reference = none) (fresh : map.lookup identifier = none) :
    launch map reference identifier type worker =
      (.ok true, map.insert identifier (.started worker)) := by
  simp [launch, createSocket, absent, fresh, SocketThreadSpace.empty, ExitSignal.getFuture,
    SocketThreadSpace.started]

/-- Starting under a name that is taken throws, as its future is gone. -/
theorem launch_clash (absent : map.lookup reference = none)
    (taken : map.lookup identifier = some space) (retrieved : space.exitSignal.retrieved = true) :
    launch map reference identifier type worker =
      (.error .futureAlreadyRetrieved,
        map.insert identifier { space with socket := some type }) := by
  simp [launch, createSocket, absent, taken, retrieved, ExitSignal.getFuture]

def SocketThreadSpace.stop (space : SocketThreadSpace) (worker : Worker) : SocketThreadSpace :=
  { space with
    thread := some { worker, joinable := false }
    exitSignal := { retrieved := true, satisfied := true } }

/-- The entry while a call joins its worker. -/
def SocketThreadSpace.tell (space : SocketThreadSpace) : SocketThreadSpace :=
  { space with exitSignal := { retrieved := true, satisfied := true } }

theorem stop_stopped : (space.stop worker).Stopped := rfl

theorem tell_stopped : space.tell.Stopped := rfl

theorem cancel_absent (absent : map.lookup reference = none) :
    cancel map reference unanswered = (.ok false, map) := by
  simp only [cancel, absent]

theorem cancel_running (found : map.lookup reference = some space) (runs : space.Runs worker)
    (leaves : worker.waits unanswered = false) :
    cancel map reference unanswered = (.ok true, map.insert reference (space.stop worker)) := by
  obtain ⟨thread, signal⟩ := runs
  simp [cancel, found, thread, signal, leaves, ExitSignal.setValue, joinThread,
    SocketThreadSpace.stop]

theorem cancel_waiting (found : map.lookup reference = some space) (runs : space.Runs worker)
    (waits : worker.waits unanswered = true) :
    cancel map reference unanswered = (.error .neverReturns, map.insert reference space.tell) := by
  obtain ⟨thread, signal⟩ := runs
  simp [cancel, found, thread, signal, waits, ExitSignal.setValue, joinThread,
    SocketThreadSpace.tell]

theorem cancel_stopped (found : map.lookup reference = some space) (stopped : space.Stopped) :
    cancel map reference unanswered = (.error .promiseAlreadySatisfied, map) := by
  have signal : space.exitSignal = _ := stopped
  simp [cancel, found, signal, ExitSignal.setValue]

def SocketThreadSpace.Sound (space : SocketThreadSpace) : Prop :=
  (∃ worker, space.Runs worker) ∨ space.Stopped

def Registry.Sound (map : Registry) : Prop :=
  ∀ key space, map.lookup key = some space → space.Sound

theorem Registry.Sound.insert (sound : Registry.Sound map) (entry : space.Sound) :
    Registry.Sound (map.insert identifier space) := by
  intro key found present
  by_cases same : key = identifier
  · subst key
    rw [AList.lookup_insert] at present
    exact Option.some.inj present ▸ entry
  · rw [AList.lookup_insert_ne same] at present
    exact sound key found present

theorem cancel_cases (sound : Registry.Sound map) (reference : String) (unanswered : Bool) :
    (map.lookup reference = none ∧ cancel map reference unanswered = (.ok false, map)) ∨
      (∃ space worker, map.lookup reference = some space ∧ space.Runs worker ∧
        worker.waits unanswered = false ∧
        cancel map reference unanswered = (.ok true, map.insert reference (space.stop worker))) ∨
      (∃ space worker, map.lookup reference = some space ∧ space.Runs worker ∧
        worker.waits unanswered = true ∧
        cancel map reference unanswered =
          (.error .neverReturns, map.insert reference space.tell)) ∨
      (∃ space, map.lookup reference = some space ∧ space.Stopped ∧
        cancel map reference unanswered = (.error .promiseAlreadySatisfied, map)) := by
  cases found : map.lookup reference with
  | none => exact .inl ⟨rfl, cancel_absent found⟩
  | some space =>
      rcases sound reference space found with ⟨worker, runs⟩ | stopped
      · cases waits : worker.waits unanswered with
        | false =>
            exact .inr (.inl ⟨space, worker, rfl, runs, waits, cancel_running found runs waits⟩)
        | true =>
            exact .inr (.inr (.inl
              ⟨space, worker, rfl, runs, waits, cancel_waiting found runs waits⟩))
      · exact .inr (.inr (.inr ⟨space, rfl, stopped, cancel_stopped found stopped⟩))

theorem cancelAll_sound (sound : Registry.Sound map) (keys : List String) :
    Registry.Sound (cancelAll map silent keys).2 := by
  induction keys generalizing map with
  | nil => exact sound
  | cons key rest ih =>
      rcases cancel_cases sound key (silent key) with
        ⟨_, left⟩ | ⟨space, worker, _, _, _, left⟩ | ⟨space, worker, _, _, _, left⟩ |
          ⟨space, _, _, left⟩
      · simp only [cancelAll, left]
        exact ih sound
      · simp only [cancelAll, left]
        exact ih (sound.insert (.inr stop_stopped))
      · simp only [cancelAll, left]
        exact sound.insert (.inr tell_stopped)
      · simp only [cancelAll, left]
        exact sound

/-- The loop does not get past an entry whose worker was told to leave before, nor
past a worker that never leaves. -/
theorem cancelAll_fails (sound : Registry.Sound map) {keys : List String} {key : String}
    (member : key ∈ keys) (found : map.lookup key = some space)
    (stuck : space.Stopped ∨ space.Runs worker ∧ worker.waits (silent key) = true) :
    ∃ fault, (cancelAll map silent keys).1 = .error fault := by
  induction keys generalizing map with
  | nil => contradiction
  | cons head rest ih =>
      rcases cancel_cases sound head (silent head) with
        ⟨absent, left⟩ | ⟨other, runner, present, runs, leaves, left⟩ |
          ⟨other, runner, _, _, _, left⟩ | ⟨other, _, _, left⟩
      · have later : key ∈ rest := by
          refine (List.mem_cons.mp member).resolve_left fun same => ?_
          rw [same, absent] at found
          contradiction
        simp only [cancelAll, left]
        exact ih sound later found
      · have different : key ≠ head := by
          intro same
          subst key
          obtain rfl := Option.some.inj (found.symm.trans present)
          rcases stuck with stopped | ⟨again, waits⟩
          · exact SocketThreadSpace.not_stopped_of_runs runs stopped
          · have same := runs.1.symm.trans again.1
            simp only [Option.some.injEq, Thread.mk.injEq, and_true] at same
            rw [same, waits] at leaves
            contradiction
        have later := (List.mem_cons.mp member).resolve_left different
        simp only [cancelAll, left]
        exact ih (sound.insert (.inr stop_stopped)) later
          ((AList.lookup_insert_ne different).trans found)
      · simp only [cancelAll, left]
        exact ⟨_, rfl⟩
      · simp only [cancelAll, left]
        exact ⟨_, rfl⟩

theorem cancelAll_stops {keys : List String} (distinct : keys.Nodup)
    (running : ∀ key ∈ keys, ∃ space worker, map.lookup key = some space ∧ space.Runs worker ∧
      worker.waits (silent key) = false) :
    (cancelAll map silent keys).1 = .ok () ∧ ∀ key,
      (key ∈ keys → ∃ space,
        (cancelAll map silent keys).2.lookup key = some space ∧ space.Stopped) ∧
      (key ∉ keys → (cancelAll map silent keys).2.lookup key = map.lookup key) := by
  induction keys generalizing map with
  | nil => exact ⟨rfl, fun key => ⟨fun member => by contradiction, fun _ => rfl⟩⟩
  | cons head rest ih =>
      obtain ⟨fresh, restDistinct⟩ := List.nodup_cons.mp distinct
      obtain ⟨space, worker, found, runs, leaves⟩ := running head List.mem_cons_self
      have left := cancel_running found runs leaves
      have kept : ∀ key, key ≠ head →
          (map.insert head (space.stop worker)).lookup key = map.lookup key := fun key different =>
        AList.lookup_insert_ne different
      have restRunning : ∀ key ∈ rest, ∃ other worker',
          (map.insert head (space.stop worker)).lookup key = some other ∧ other.Runs worker' ∧
            worker'.waits (silent key) = false := by
        intro key member
        rw [kept key (fun same => fresh (same ▸ member))]
        exact running key (List.mem_cons_of_mem head member)
      obtain ⟨result, entries⟩ := ih restDistinct restRunning
      simp only [cancelAll, left]
      refine ⟨result, fun key => ⟨fun member => ?_, fun outside => ?_⟩⟩
      · by_cases same : key = head
        · subst key
          refine ⟨space.stop worker, ?_, stop_stopped⟩
          rw [(entries head).2 fresh, AList.lookup_insert]
        · exact (entries key).1 ((List.mem_cons.mp member).resolve_left same)
      · rw [List.mem_cons, not_or] at outside
        rw [(entries key).2 outside.2, kept key outside.1]

end Entries

end Sentinet.Control
