import Mathlib.Data.List.Basic

namespace Sentinet.Data.Run

/-! Runs of a deterministic system over a finite list of events: conditions on
every step, properties of every state reached, and agreement of two systems. -/

variable {σ ε ρ τ : Type}

def final (step : σ → ε → σ) (start : σ) (events : List ε) : σ :=
  events.foldl step start

/-- Every step of the run meets the condition, which may depend on the state
the step starts from. -/
def EachStep (step : σ → ε → σ) (condition : σ → ε → Prop) : σ → List ε → Prop
  | _, [] => True
  | state, event :: rest => condition state event ∧ EachStep step condition (step state event) rest

/-- Every state of the run, the first one included, has the property. -/
def EachState (step : σ → ε → σ) (property : σ → Prop) : σ → List ε → Prop
  | state, [] => property state
  | state, event :: rest => property state ∧ EachState step property (step state event) rest

/-- The last event that passes the test, and the events before it. -/
def lastWhere (test : ε → Bool) : List ε → Option (List ε × ε)
  | [] => none
  | event :: rest =>
      match lastWhere test rest with
      | some (before, last) => some (event :: before, last)
      | none => if test event then some ([], event) else none

def outputs (step : σ → ε → ρ × σ) : σ → List ε → List ρ
  | _, [] => []
  | state, event :: rest => (step state event).1 :: outputs step (step state event).2 rest

section Invariants

variable {step : σ → ε → σ} {start : σ} {event : ε} {events before after : List ε}

@[simp] theorem final_nil : final step start [] = start := rfl

@[simp] theorem final_cons : final step start (event :: events) = final step (step start event) events :=
  rfl

theorem final_append :
    final step start (before ++ after) = final step (final step start before) after :=
  List.foldl_append

theorem eachState_start {property : σ → Prop} (holds : EachState step property start events) :
    property start := by
  cases events with
  | nil => exact holds
  | cons event rest => exact holds.1

theorem eachState_final {property : σ → Prop} (holds : EachState step property start events) :
    property (final step start events) := by
  induction events generalizing start with
  | nil => exact holds
  | cons event rest ih => exact ih holds.2

theorem eachStep_append {condition : σ → ε → Prop} :
    EachStep step condition start (before ++ after) ↔
      EachStep step condition start before ∧
        EachStep step condition (final step start before) after := by
  induction before generalizing start with
  | nil => simp [EachStep]
  | cons event rest ih => simp only [List.cons_append, EachStep, ih, final_cons, and_assoc]

theorem final_invariant (invariant : σ → Prop)
    (preserved : ∀ event ∈ events, ∀ state, invariant state → invariant (step state event))
    (initial : invariant start) : invariant (final step start events) := by
  induction events generalizing start with
  | nil => exact initial
  | cons event rest ih =>
      exact ih (fun later member => preserved later (List.mem_cons_of_mem event member))
        (preserved event List.mem_cons_self start initial)

/-- When a step from a state of the invariant keeps the property exactly under a
condition, a run keeps it exactly when each of its steps meets the condition. -/
theorem eachState_iff_of_invariant (invariant : σ → Prop) {property : σ → Prop}
    {condition : σ → ε → Prop}
    (preserved : ∀ state event, invariant state → invariant (step state event))
    (exact_step : ∀ state event, invariant state → property state →
      (property (step state event) ↔ condition state event))
    (initial : invariant start) (holds : property start) :
    EachState step property start events ↔ EachStep step condition start events := by
  induction events generalizing start with
  | nil => exact ⟨fun _ => trivial, fun _ => holds⟩
  | cons event rest ih =>
      have later := preserved start event initial
      constructor
      · intro every
        obtain ⟨_, rest⟩ := every
        have next := eachState_start rest
        exact ⟨(exact_step start event initial holds).mp next, (ih later next).mp rest⟩
      · intro every
        obtain ⟨first, rest⟩ := every
        have next := (exact_step start event initial holds).mpr first
        exact ⟨holds, (ih later next).mpr rest⟩

theorem eachState_iff_eachStep {property : σ → Prop} {condition : σ → ε → Prop}
    (exact_step : ∀ state event, property state → (property (step state event) ↔ condition state event))
    (initial : property start) :
    EachState step property start events ↔ EachStep step condition start events :=
  eachState_iff_of_invariant (fun _ => True) (fun _ _ _ => trivial)
    (fun state event _ => exact_step state event) trivial initial

theorem eachStep_congr (invariant : σ → Prop) {condition other : σ → ε → Prop}
    (preserved : ∀ state event, invariant state → invariant (step state event))
    (agree : ∀ state event, invariant state → (condition state event ↔ other state event))
    (initial : invariant start) :
    EachStep step condition start events ↔ EachStep step other start events := by
  induction events generalizing start with
  | nil => exact Iff.rfl
  | cons event rest ih =>
      exact and_congr (agree start event initial) (ih (preserved start event initial))

theorem eachStep_of_invariant (invariant : σ → Prop) {property : σ → ε → Prop}
    (preserved : ∀ state event, invariant state → invariant (step state event))
    (gives : ∀ state event, invariant state → property state event) (initial : invariant start) :
    EachStep step property start events := by
  induction events generalizing start with
  | nil => trivial
  | cons event rest ih => exact ⟨gives start event initial, ih (preserved start event initial)⟩

/-- A condition on every step that gives a property of the step wherever the
invariant holds gives it along the run. -/
theorem eachStep_imp (invariant : σ → Prop) {condition property : σ → ε → Prop}
    (preserved : ∀ state event, invariant state → invariant (step state event))
    (gives : ∀ state event, invariant state → condition state event → property state event)
    (initial : invariant start) (every : EachStep step condition start events) :
    EachStep step property start events := by
  induction events generalizing start with
  | nil => trivial
  | cons event rest ih =>
      obtain ⟨first, later⟩ := every
      exact ⟨gives start event initial first, ih (preserved start event initial) later⟩

/-- An invariant that the steps meeting a condition keep gives its property in
every state of a run of such steps. -/
theorem eachState_of_eachStep (invariant : σ → Prop) {property : σ → Prop}
    {condition : σ → ε → Prop}
    (keeps : ∀ state event, invariant state → condition state event → invariant (step state event))
    (gives : ∀ state, invariant state → property state) (initial : invariant start)
    (every : EachStep step condition start events) : EachState step property start events := by
  induction events generalizing start with
  | nil => exact gives start initial
  | cons event rest ih =>
      exact ⟨gives start initial, ih (keeps start event initial every.1) every.2⟩

/-- Steps that meet a condition keep an invariant, and one that does not spoils it
for good: the end of the run tells whether every step met the condition. -/
theorem final_kept_or_spoiled (kept spoiled : σ → Prop) {condition : σ → ε → Prop}
    (keeps : ∀ state event, kept state → condition state event → kept (step state event))
    (spoils : ∀ state event, kept state → ¬condition state event → spoiled (step state event))
    (absorbs : ∀ state event, spoiled state → spoiled (step state event)) (initial : kept start) :
    EachStep step condition start events ∧ kept (final step start events) ∨
      ¬EachStep step condition start events ∧ spoiled (final step start events) := by
  induction events generalizing start with
  | nil => exact Or.inl ⟨trivial, initial⟩
  | cons event rest ih =>
      by_cases met : condition start event
      · rcases ih (keeps start event initial met) with ⟨every, kept_end⟩ | ⟨not_every, spoiled_end⟩
        · exact Or.inl ⟨⟨met, every⟩, kept_end⟩
        · exact Or.inr ⟨fun every => not_every every.2, spoiled_end⟩
      · have spoiled_end : spoiled (final step (step start event) rest) :=
          final_invariant spoiled (fun later _ state => absorbs state later)
            (spoils start event initial met)
        exact Or.inr ⟨fun every => met every.1, spoiled_end⟩

/-- What only some events write, and the others keep, is after a run what the
last of the writing events wrote. -/
theorem view_final (view : σ → ρ) (write : σ → ε → ρ) (test : ε → Bool)
    (writes : ∀ state event, test event = true → view (step state event) = write state event)
    (keeps : ∀ state event, test event = false → view (step state event) = view state) :
    view (final step start events) =
      match lastWhere test events with
      | none => view start
      | some (before, last) => write (final step start before) last := by
  induction events generalizing start with
  | nil => rfl
  | cons event rest ih =>
      rw [final_cons, ih, lastWhere]
      cases lastWhere test rest with
      | some found => rfl
      | none =>
          cases tested : test event with
          | true => exact writes start event tested
          | false => exact keeps start event tested

theorem lastWhere_mem {test : ε → Bool} {last : ε}
    (found : lastWhere test events = some (before, last)) : last ∈ events ∧ test last = true := by
  induction events generalizing before with
  | nil => cases found
  | cons event rest ih =>
      cases later : lastWhere test rest with
      | some entry =>
          simp only [lastWhere, later, Option.some.injEq, Prod.mk.injEq] at found
          obtain ⟨member, tested⟩ := ih (later.trans (by rw [← found.2]))
          exact ⟨List.mem_cons_of_mem event member, tested⟩
      | none =>
          cases tested : test event with
          | true =>
              simp only [lastWhere, later, tested, if_true, Option.some.injEq, Prod.mk.injEq] at found
              rw [← found.2]
              exact ⟨List.mem_cons_self, tested⟩
          | false => simp [lastWhere, later, tested] at found

end Invariants

section Agreement

variable {step : σ → ε → ρ × σ} {spec : τ → ε → ρ × τ}

theorem outputs_append {start : σ} {before after : List ε} :
    outputs step start (before ++ after) = outputs step start before ++
      outputs step (final (fun state event => (step state event).2) start before) after := by
  induction before generalizing start with
  | nil => rfl
  | cons event rest ih => rw [List.cons_append, outputs, ih, outputs, final_cons, List.cons_append]

/-- A simulation that holds up exactly on the steps meeting a condition: the two
systems give the same outputs along a run exactly when every step meets it. -/
theorem outputs_eq_iff (related : σ → τ → Prop) (condition : σ → ε → Prop)
    (agree : ∀ state abstract event, related state abstract →
      ((step state event).1 = (spec abstract event).1 ↔ condition state event))
    (simulate : ∀ state abstract event, related state abstract → condition state event →
      related (step state event).2 (spec abstract event).2)
    {start : σ} {abstract : τ} (initial : related start abstract) (events : List ε) :
    outputs step start events = outputs spec abstract events ↔
      EachStep (fun state event => (step state event).2) condition start events := by
  induction events generalizing start abstract with
  | nil => exact ⟨fun _ => trivial, fun _ => rfl⟩
  | cons event rest ih =>
      simp only [outputs, EachStep, List.cons.injEq]
      constructor
      · intro same
        obtain ⟨same, later⟩ := same
        have met := (agree start abstract event initial).mp same
        exact ⟨met, (ih (simulate start abstract event initial met)).mp later⟩
      · intro every
        obtain ⟨met, later⟩ := every
        exact ⟨(agree start abstract event initial).mpr met,
          (ih (simulate start abstract event initial met)).mpr later⟩

end Agreement

end Sentinet.Data.Run
