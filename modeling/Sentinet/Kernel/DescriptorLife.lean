import Mathlib.Data.List.Basic
import Sentinet.Data.Run

namespace Sentinet.Kernel

open Sentinet.Data

/-! The serial descriptor over the life of a `KermitNetworkInterface`: who opens
it, who closes it, and what the sender thread has to do with that. -/

/-- Descriptors that `serialport_init` returned and nobody closed since, those it
opened without returning them, and those closed while they were not held. -/
structure Descriptors where
  held : List Nat
  unreturned : List Nat
  stray : List Nat
deriving DecidableEq, Repr

/-- `close(fd)`; a negative number is no descriptor. -/
def Descriptors.close (fd : Int) (descriptors : Descriptors) : Descriptors :=
  if fd < 0 then descriptors
  else if fd.toNat ∈ descriptors.held then
    { descriptors with held := descriptors.held.erase fd.toNat }
  else { descriptors with stray := fd.toNat :: descriptors.stray }

/-- How the calls of one `serialport_init` turn out. -/
structure PortCalls where
  opened : Option Nat
  tcgetattr : Bool
  tcsetattr : Bool
deriving DecidableEq, Repr

def serialportInit (calls : PortCalls) (descriptors : Descriptors) : Int × Descriptors :=
  match calls.opened with
  | none => (-1, descriptors)
  | some fd =>
      let failing := { descriptors with unreturned := fd :: descriptors.unreturned }
      if !calls.tcgetattr then (-1, failing)
      else if !calls.tcsetattr then (-1, failing)
      else (fd, { descriptors with held := fd :: descriptors.held })

/-- The thread behind `async_sender`. -/
inductive Sender where
  | none
  | joinable
  | joined
deriving DecidableEq, Repr

/-- `ended` once the process was terminated, which destroying or replacing a
joinable thread does. -/
structure KermitNetworkInterface where
  debug : Bool
  running : Bool
  fd : Int
  asyncSender : Sender
  ended : Bool
  descriptors : Descriptors
deriving DecidableEq, Repr

namespace KermitNetworkInterface

/-- The constructor; `fd` is what the memory of the device happens to hold. -/
def create (debug : Bool) (fd : Int) : KermitNetworkInterface :=
  { debug, running := true, fd, asyncSender := .none, ended := false
    descriptors := { held := [], unreturned := [], stray := [] } }

/-- `new_teensy_device` and the thread; the assignment destroys the thread before. -/
def initTeensyPeripheral (object : KermitNetworkInterface) (calls : PortCalls) :
    KermitNetworkInterface :=
  if !object.debug then
    let opened := serialportInit calls object.descriptors
    { object with
      fd := opened.1, descriptors := opened.2, asyncSender := .joinable
      ended := object.asyncSender == .joinable }
  else object

def teensyCleanup (object : KermitNetworkInterface) : KermitNetworkInterface :=
  { object with descriptors := object.descriptors.close object.fd }

/-- Joining a thread for the second time throws, and the cleanup is left out. -/
def kermitQuit (object : KermitNetworkInterface) : KermitNetworkInterface :=
  let object := { object with running := false }
  match object.asyncSender with
  | .none => object
  | .joinable => { object with asyncSender := .joined }.teensyCleanup
  | .joined => object

/-- The destructor and that of `async_sender` after it. -/
def destroy (object : KermitNetworkInterface) : KermitNetworkInterface :=
  if object.ended then object
  else { object.teensyCleanup with ended := object.asyncSender == .joinable }

end KermitNetworkInterface

inductive Operation where
  | initTeensyPeripheral (calls : PortCalls)
  | kermitQuit
deriving DecidableEq, Repr

def operate (object : KermitNetworkInterface) (operation : Operation) : KermitNetworkInterface :=
  if object.ended then object
  else
    match operation with
    | .initTeensyPeripheral calls => object.initTeensyPeripheral calls
    | .kermitQuit => object.kermitQuit

/-- A life from the constructor to the end of the destructor. -/
def life (debug : Bool) (fd : Int) (operations : List Operation) : KermitNetworkInterface :=
  (Run.final operate (.create debug fd) operations).destroy

/-- Every descriptor that `serialport_init` returned was closed, nothing was closed
that was not held, and no failure left a descriptor open. -/
structure Descriptors.OwnedOnce (descriptors : Descriptors) : Prop where
  closed : descriptors.held = []
  owned : descriptors.stray = []
  failures : descriptors.unreturned = []

namespace KermitNetworkInterface

/-- The number in `fd` is safe to close: no descriptor, or one that is held. -/
def Closable (object : KermitNetworkInterface) : Prop :=
  object.fd < 0 ∨ object.fd.toNat ∈ object.descriptors.held

/-- The operation opens the port only where no sender runs, unless the port did not
open before and does not now, and `tcgetattr` and `tcsetattr` go well. -/
def Orderly (object : KermitNetworkInterface) : Operation → Prop
  | .kermitQuit => True
  | .initTeensyPeripheral calls =>
      object.debug = false → object.ended = false →
        (calls.opened.isSome → calls.tcgetattr ∧ calls.tcsetattr) ∧
          (object.asyncSender = .joinable → object.fd < 0 ∧ calls.opened = none)

/-- What an orderly life keeps: the one descriptor held is that of a sender that
can be joined. -/
structure Kept (object : KermitNetworkInterface) : Prop where
  owned : object.descriptors.stray = []
  failures : object.descriptors.unreturned = []
  tenure : object.asyncSender = .joinable ∧ object.ended = false ∧ 0 ≤ object.fd ∧
      object.descriptors.held = [object.fd.toNat] ∨
    object.descriptors.held = [] ∧ (object.asyncSender = .joinable → object.fd < 0)

/-- A descriptor that no later step closes. -/
def Spoiled (object : KermitNetworkInterface) : Prop :=
  object.descriptors.unreturned ≠ [] ∨ object.ended = true ∧ object.descriptors.held ≠ []

end KermitNetworkInterface

section Steps

variable {object : KermitNetworkInterface} {descriptors : Descriptors} {operation : Operation}
  {fd : Int}

open KermitNetworkInterface

@[simp] theorem close_unreturned : (descriptors.close fd).unreturned = descriptors.unreturned := by
  unfold Descriptors.close
  split
  · rfl
  · split <;> rfl

theorem close_negative (negative : fd < 0) : descriptors.close fd = descriptors := if_pos negative

theorem close_held (nonneg : 0 ≤ fd) (held : descriptors.held = [fd.toNat]) :
    descriptors.close fd = { descriptors with held := [] } := by
  rw [Descriptors.close, if_neg (by omega), if_pos (by simp [held]), held, List.erase_cons_head]

theorem close_stray (nonneg : 0 ≤ fd) (none_held : descriptors.held = []) :
    (descriptors.close fd).stray ≠ [] := by
  rw [Descriptors.close, if_neg (by omega), if_neg (by simp [none_held])]
  exact List.cons_ne_nil _ _

theorem kermitQuit_cases (object : KermitNetworkInterface) :
    object.asyncSender ≠ .joinable ∧ object.kermitQuit = { object with running := false } ∨
      object.asyncSender = .joinable ∧ object.kermitQuit =
        { object with
          running := false, asyncSender := .joined
          descriptors := object.descriptors.close object.fd } := by
  cases sender : object.asyncSender with
  | none => exact Or.inl ⟨by simp, by simp [kermitQuit, sender]⟩
  | joined => exact Or.inl ⟨by simp, by simp [kermitQuit, sender]⟩
  | joinable => exact Or.inr ⟨rfl, by simp [kermitQuit, sender, teensyCleanup]⟩

theorem kermitQuit_kept (kept : object.Kept) : object.kermitQuit.Kept := by
  rcases kermitQuit_cases object with ⟨_, quit⟩ | ⟨sender, quit⟩
  · rw [quit]
    exact ⟨kept.owned, kept.failures, kept.tenure⟩
  · rw [quit]
    rcases kept.tenure with ⟨_, _, nonneg, held⟩ | ⟨none_held, refused⟩
    · rw [close_held nonneg held]
      exact ⟨kept.owned, kept.failures, Or.inr ⟨rfl, fun joinable => by cases joinable⟩⟩
    · rw [close_negative (refused sender)]
      exact ⟨kept.owned, kept.failures, Or.inr ⟨none_held, fun joinable => by cases joinable⟩⟩

theorem serialportInit_cases (calls : PortCalls) (descriptors : Descriptors) :
    calls.opened = none ∧ serialportInit calls descriptors = (-1, descriptors) ∨
      (∃ fd, calls.opened = some fd ∧ (calls.tcgetattr ∧ calls.tcsetattr) ∧
        serialportInit calls descriptors =
          ((fd : Int), { descriptors with held := fd :: descriptors.held })) ∨
      (∃ fd, calls.opened = some fd ∧ ¬(calls.tcgetattr ∧ calls.tcsetattr) ∧
        serialportInit calls descriptors =
          (-1, { descriptors with unreturned := fd :: descriptors.unreturned })) := by
  obtain ⟨opened, tcgetattr, tcsetattr⟩ := calls
  cases opened with
  | none => exact Or.inl ⟨rfl, rfl⟩
  | some fd =>
      cases tcgetattr <;> cases tcsetattr <;> simp [serialportInit]

theorem initTeensyPeripheral_kept {calls : PortCalls} (kept : object.Kept)
    (live : object.ended = false) (orderly : object.Orderly (.initTeensyPeripheral calls)) :
    (object.initTeensyPeripheral calls).Kept := by
  cases debug : object.debug with
  | true => simpa [initTeensyPeripheral, debug] using kept
  | false =>
      obtain ⟨attributes, undisturbed⟩ := orderly debug live
      have none_held : object.descriptors.held = [] := by
        rcases kept.tenure with ⟨joinable, _, nonneg, _⟩ | refused
        · have negative := (undisturbed joinable).1
          omega
        · exact refused.1
      simp only [initTeensyPeripheral, debug, Bool.not_false, if_true]
      rcases serialportInit_cases calls object.descriptors with
        ⟨opened, result⟩ | ⟨fd, opened, _, result⟩ | ⟨fd, opened, unset, result⟩
      · rw [result]
        exact ⟨kept.owned, kept.failures, Or.inr ⟨none_held, fun _ => Int.negSucc_lt_zero 0⟩⟩
      · rw [result]
        have idle : object.asyncSender ≠ .joinable := by
          intro joinable
          rw [(undisturbed joinable).2] at opened
          cases opened
        refine ⟨kept.owned, kept.failures, Or.inl ⟨rfl, by simpa using idle, ?_, ?_⟩⟩
        · exact Int.natCast_nonneg fd
        · simp [none_held]
      · exact absurd (attributes (by simp [opened])) unset

theorem initTeensyPeripheral_spoils {calls : PortCalls} (kept : object.Kept)
    (disorder : ¬object.Orderly (.initTeensyPeripheral calls)) :
    (object.initTeensyPeripheral calls).Spoiled := by
  simp only [Orderly, not_forall] at disorder
  obtain ⟨debug, live, disorder⟩ := disorder
  simp only [initTeensyPeripheral, debug, Bool.not_false, if_true, Spoiled]
  rcases serialportInit_cases calls object.descriptors with
    ⟨opened, result⟩ | ⟨fd, opened, set_up, result⟩ | ⟨fd, opened, _, result⟩
  · rw [result]
    have joinable : object.asyncSender = .joinable ∧ ¬object.fd < 0 := by
      by_contra undisturbed
      refine disorder ⟨by simp [opened], fun joinable => ⟨?_, opened⟩⟩
      by_contra nonneg
      exact undisturbed ⟨joinable, nonneg⟩
    rcases kept.tenure with ⟨_, _, _, held⟩ | ⟨_, refused⟩
    · exact Or.inr ⟨by simp [joinable.1], by simp [held]⟩
    · exact absurd (refused joinable.1) joinable.2
  · rw [result]
    have joinable : object.asyncSender = .joinable := by
      by_contra idle
      exact disorder ⟨fun _ => set_up, fun joinable => absurd joinable idle⟩
    exact Or.inr ⟨by simp [joinable], by simp⟩
  · rw [result]
    exact Or.inl (List.cons_ne_nil _ _)

theorem operate_kept (kept : object.Kept) (orderly : object.Orderly operation) :
    (operate object operation).Kept := by
  unfold operate
  split
  · exact kept
  · next live =>
      have running := Bool.eq_false_iff.mpr live
      cases operation with
      | initTeensyPeripheral calls => exact initTeensyPeripheral_kept kept running orderly
      | kermitQuit => exact kermitQuit_kept kept

theorem operate_spoils (kept : object.Kept) (disorder : ¬object.Orderly operation) :
    (operate object operation).Spoiled := by
  cases operation with
  | kermitQuit => exact absurd trivial disorder
  | initTeensyPeripheral calls =>
      have live : object.ended = false := by
        by_contra ended
        exact disorder fun _ live => absurd live ended
      rw [operate, if_neg (by simp [live])]
      exact initTeensyPeripheral_spoils kept disorder

theorem kermitQuit_unreturned :
    object.kermitQuit.descriptors.unreturned = object.descriptors.unreturned := by
  rcases kermitQuit_cases object with ⟨_, quit⟩ | ⟨_, quit⟩
  · rw [quit]
  · rw [quit, close_unreturned]

theorem initTeensyPeripheral_unreturned {calls : PortCalls}
    (left_open : object.descriptors.unreturned ≠ []) :
    (object.initTeensyPeripheral calls).descriptors.unreturned ≠ [] := by
  unfold initTeensyPeripheral
  split
  · rcases serialportInit_cases calls object.descriptors with
      ⟨_, result⟩ | ⟨fd, _, _, result⟩ | ⟨fd, _, _, result⟩
    · simpa only [result] using left_open
    · simpa only [result] using left_open
    · simp [result]
  · exact left_open

theorem operate_spoiled (spoiled : object.Spoiled) : (operate object operation).Spoiled := by
  unfold operate
  split
  · exact spoiled
  · next live =>
      have left_open := spoiled.resolve_right fun ended => live ended.1
      cases operation with
      | initTeensyPeripheral calls => exact Or.inl (initTeensyPeripheral_unreturned left_open)
      | kermitQuit => exact Or.inl (kermitQuit_unreturned.symm ▸ left_open)

theorem destroy_spoiled (spoiled : object.Spoiled) : ¬object.destroy.descriptors.OwnedOnce := by
  intro once
  unfold destroy at once
  split at once
  · rcases spoiled with left_open | ended
    · exact left_open once.failures
    · exact ended.2 once.closed
  · next live =>
      have left_open := spoiled.resolve_right fun ended => live ended.1
      exact left_open (by simpa [teensyCleanup] using once.failures)

theorem destroy_ownedOnce_iff (kept : object.Kept) :
    object.destroy.descriptors.OwnedOnce ↔ object.ended = true ∨ object.Closable := by
  obtain ⟨owned, failures, tenure⟩ := kept
  unfold destroy
  split
  · next ended =>
      refine ⟨fun _ => Or.inl ended, fun _ => ⟨?_, owned, failures⟩⟩
      rcases tenure with ⟨_, live, _, _⟩ | ⟨none_held, _⟩
      · exact absurd ended (by simp [live])
      · exact none_held
  · next live =>
      simp only [teensyCleanup, Closable]
      rcases tenure with ⟨_, _, nonneg, held⟩ | ⟨none_held, _⟩
      · refine ⟨fun _ => Or.inr (Or.inr (by simp [held])), fun _ => ?_⟩
        rw [close_held nonneg held]
        exact ⟨rfl, owned, failures⟩
      · by_cases negative : object.fd < 0
        · rw [close_negative negative]
          exact ⟨fun _ => Or.inr (Or.inl negative), fun _ => ⟨none_held, owned, failures⟩⟩
        · refine ⟨fun once => absurd once.owned (close_stray (by omega) none_held), ?_⟩
          rintro (ended | negative' | held)
          · exact absurd ended live
          · exact absurd negative' negative
          · simp [none_held] at held

end Steps

/-- A life closes its descriptors exactly once when every step is orderly and what
`fd` holds in the end is safe to close. -/
theorem life_ownedOnce_iff (debug : Bool) (fd : Int) (operations : List Operation) :
    (life debug fd operations).descriptors.OwnedOnce ↔
      Run.EachStep operate KermitNetworkInterface.Orderly (.create debug fd) operations ∧
        ((Run.final operate (.create debug fd) operations).ended = true ∨
          (Run.final operate (.create debug fd) operations).Closable) := by
  have initial : (KermitNetworkInterface.create debug fd).Kept :=
    ⟨rfl, rfl, Or.inr ⟨rfl, fun joinable => by cases joinable⟩⟩
  rcases Run.final_kept_or_spoiled _ _
    (fun _ _ => operate_kept) (fun _ _ => operate_spoils) (fun _ _ => operate_spoiled) initial with
    ⟨every, kept⟩ | ⟨not_every, spoiled⟩
  · rw [life, destroy_ownedOnce_iff kept]
    exact (and_iff_right every).symm
  · exact ⟨fun once => absurd once (destroy_spoiled spoiled), fun orderly => absurd orderly.1 not_every⟩

/-- The port opens, `kermit_quit` closes it, and the destructor closes it again. -/
theorem life_closes_twice :
    ¬(life false 0 [.initTeensyPeripheral ⟨some 5, true, true⟩, .kermitQuit]).descriptors.OwnedOnce := by
  intro once
  exact absurd once.owned (by decide)

end Sentinet.Kernel
