import Mathlib.Algebra.Order.Ring.Rat
import Mathlib.Data.NNRat.Defs
import Mathlib.Tactic.Linarith
import Mathlib.Tactic.NormNum
import Sentinet.Data.Run

namespace Sentinet.Controllers

open Sentinet.Data

/-! The velocities of a `Wiimote`: a button drives one up or down, and without a
button it decays.  Velocities are exact. -/

/-- Maintains that value is within bounds. -/
def clamp (value min max : ℚ) : ℚ :=
  if value > max then max else if value < min then min else value

def zeroRounding (value change : ℚ) : ℚ :=
  let dValue := value + change
  if (value > 0 ∧ dValue < 0) ∨ (value < 0 ∧ dValue > 0) then 0 else value

def incrimentVelocity (velocity incriment : ℚ) (increase decrease : Bool) : ℚ :=
  if increase then velocity + incriment
  else if decrease then velocity - incriment
  else if velocity > 0 then zeroRounding (velocity - incriment) incriment
  else if velocity < 0 then zeroRounding (velocity + incriment) incriment
  else velocity

/-- The buttons for one velocity, and how far it may change. -/
structure Press where
  incriment : ℚ
  increase : Bool
  decrease : Bool

/-- A velocity in one call of `control`. -/
def controlled (max velocity : ℚ) (press : Press) : ℚ :=
  clamp (incrimentVelocity velocity press.incriment press.increase press.decrease) (-max) max

structure BotConstants where
  linearMax : ℚ
  linearIncriment : ℚ
  angularMax : ℚ
  angularIncriment : ℚ

structure Buttons where
  up : Bool
  down : Bool
  right : Bool
  left : Bool

structure Wiimote where
  constants : BotConstants
  linear : ℚ
  angular : ℚ

/-- `Wiimote::control`, without the states that buttons toggle. -/
def Wiimote.control (wiimote : Wiimote) (elapsed : ℚ) (buttons : Buttons) : Wiimote :=
  let constants := wiimote.constants
  { wiimote with
    linear := controlled constants.linearMax wiimote.linear
      { incriment := constants.linearIncriment * elapsed
        increase := buttons.up, decrease := buttons.down }
    angular := controlled constants.angularMax wiimote.angular
      { incriment := constants.angularIncriment * elapsed
        increase := buttons.right, decrease := buttons.left } }

/-- A call with no button pressed. -/
def released (max velocity incriment : ℚ) : ℚ :=
  controlled max velocity { incriment, increase := false, decrease := false }

/-- Zero, or of the same sign. -/
def KeepsDirection (before after : ℚ) : Prop :=
  after = 0 ∨ 0 < before ∧ 0 < after ∨ before < 0 ∧ after < 0

/-- One call without buttons slows down, turns nothing around and treats both signs alike. -/
structure Slows (max velocity incriment : ℚ) : Prop where
  slower : |released max velocity incriment| ≤ |velocity|
  direction : KeepsDirection velocity (released max velocity incriment)
  symmetric : released max (-velocity) incriment = -released max velocity incriment

/-- Calls without buttons slow down, each and all together, and calls with any
buttons stay in range. -/
structure ReleaseLaw (max velocity : ℚ) (incriments : List NNRat) : Prop where
  slows : Run.EachStep (fun before (incriment : NNRat) => released max before incriment)
    (fun before incriment => Slows max before incriment) velocity incriments
  slowed : Run.EachState (fun before (incriment : NNRat) => released max before incriment)
    (fun later => |later| ≤ |velocity| ∧ KeepsDirection velocity later) velocity incriments
  range : ∀ presses, Run.EachState (controlled max) (fun later => |later| ≤ max) velocity presses

section Step

variable {max velocity incriment : ℚ}

theorem clamp_inside (lower : -max ≤ velocity) (upper : velocity ≤ max) :
    clamp velocity (-max) max = velocity := by
  rw [clamp, if_neg (not_lt.mpr upper), if_neg (not_lt.mpr lower)]

theorem controlled_range (nonneg : 0 ≤ max) (velocity : ℚ) (press : Press) :
    |controlled max velocity press| ≤ max := by
  rw [abs_le, controlled, clamp]
  split
  · exact ⟨by linarith, le_refl max⟩
  · split
    · exact ⟨le_refl _, by linarith⟩
    · constructor <;> linarith

theorem released_zero (nonneg : 0 ≤ max) : released max 0 incriment = 0 := by
  rw [released, controlled]
  simp only [incrimentVelocity, Bool.false_eq_true, if_false, lt_irrefl]
  exact clamp_inside (by linarith) nonneg

theorem released_positive (positive : 0 < velocity) (upper : velocity ≤ max) (step : 0 ≤ incriment) :
    released max velocity incriment = if velocity ≤ incriment then 0 else velocity - incriment := by
  have rounded : incrimentVelocity velocity incriment false false =
      if velocity ≤ incriment then 0 else velocity - incriment := by
    simp only [incrimentVelocity, Bool.false_eq_true, if_false, gt_iff_lt, positive, if_true,
      zeroRounding, sub_add_cancel, and_true]
    by_cases stops : velocity < incriment
    · rw [if_pos (Or.inr (by linarith)), if_pos stops.le]
    · have reached : incriment ≤ velocity := not_lt.mp stops
      have kept : ¬((0 < velocity - incriment ∧ velocity < 0) ∨ velocity - incriment < 0) := by
        rintro (⟨_, negative⟩ | crossed)
        · linarith
        · linarith
      rw [if_neg kept]
      split
      · linarith
      · rfl
  rw [released, controlled, rounded]
  split
  · exact clamp_inside (by linarith) (by linarith)
  · exact clamp_inside (by linarith) (by linarith)

/-- Below zero the rounding comes too early, and not at all for a step past zero. -/
theorem released_negative (negative : velocity < 0) (lower : -max ≤ velocity) (step : 0 ≤ incriment) :
    0 < velocity + incriment ∧ 0 < released max velocity incriment ∨
      velocity + incriment < 0 ∧ 0 < velocity + incriment + incriment ∧
        released max velocity incriment = 0 ∨
      (velocity + incriment = 0 ∨ velocity + incriment + incriment ≤ 0) ∧
        released max velocity incriment = velocity + incriment := by
  have unpressed : incrimentVelocity velocity incriment false false =
      zeroRounding (velocity + incriment) incriment := by
    simp only [incrimentVelocity, Bool.false_eq_true, if_false, gt_iff_lt, not_lt.mpr negative.le,
      negative, if_true]
  rw [released, controlled, unpressed]
  simp only [zeroRounding]
  by_cases early : velocity + incriment < 0 ∧ velocity + incriment + incriment > 0
  · rw [if_pos (Or.inr early)]
    exact Or.inr (Or.inl ⟨early.1, early.2, clamp_inside (by linarith) (by linarith)⟩)
  · have kept : ¬((velocity + incriment > 0 ∧ velocity + incriment + incriment < 0) ∨
        (velocity + incriment < 0 ∧ velocity + incriment + incriment > 0)) := by
      rintro (⟨crossed, under⟩ | rounds)
      · linarith
      · exact early rounds
    rw [if_neg kept]
    by_cases crossed : 0 < velocity + incriment
    · refine Or.inl ⟨crossed, ?_⟩
      unfold clamp
      split
      · linarith
      · rw [if_neg (by linarith)]
        exact crossed
    · refine Or.inr (Or.inr ⟨?_, clamp_inside (by linarith) (by linarith)⟩)
      rcases eq_or_lt_of_le (not_lt.mp crossed) with zero | under
      · exact Or.inl zero
      · exact Or.inr (not_lt.mp fun beyond => early ⟨under, beyond⟩)

/-- Both signs are treated alike where the step ends in zero or not beyond half way. -/
theorem released_odd_iff (positive : 0 < velocity) (upper : velocity ≤ max) (step : 0 ≤ incriment) :
    released max (-velocity) incriment = -released max velocity incriment ↔
      incriment = velocity ∨ 2 * incriment ≤ velocity := by
  rw [released_positive positive upper step]
  rcases released_negative (neg_lt_zero.mpr positive) (neg_le_neg upper) step with
    ⟨crossed, turned⟩ | ⟨under, early, zero⟩ | ⟨fair, same⟩
  · rw [if_pos (by linarith)]
    constructor
    · intro odd
      linarith
    · rintro (stops | half)
      · linarith
      · linarith
  · rw [if_neg (by linarith), zero]
    constructor
    · intro odd
      linarith
    · rintro (stops | half)
      · linarith
      · linarith
  · rw [same]
    constructor
    · intro _
      rcases fair with stops | half
      · exact Or.inl (by linarith)
      · exact Or.inr (by linarith)
    · rintro (stops | half)
      · rw [if_pos stops.ge, stops]
        linarith
      · split
        · linarith
        · linarith

/-- A positive velocity slows down whatever the step. -/
theorem released_positive_slows (positive : 0 < velocity) (upper : velocity ≤ max)
    (step : 0 ≤ incriment) :
    |released max velocity incriment| ≤ |velocity| ∧
      KeepsDirection velocity (released max velocity incriment) := by
  rw [released_positive positive upper step]
  split
  · exact ⟨by rw [abs_zero]; exact abs_nonneg velocity, Or.inl rfl⟩
  · have rest : 0 < velocity - incriment := by linarith
    refine ⟨?_, Or.inr (Or.inl ⟨positive, rest⟩)⟩
    rw [abs_of_pos rest, abs_of_pos positive]
    linarith

/-- Where both signs are treated alike, a negative velocity slows down like its positive. -/
theorem released_negative_slows (negative : velocity < 0) (lower : -max ≤ velocity)
    (step : 0 ≤ incriment)
    (odd : released max (-velocity) incriment = -released max velocity incriment) :
    |released max velocity incriment| ≤ |velocity| ∧
      KeepsDirection velocity (released max velocity incriment) := by
  obtain ⟨slower, direction⟩ :=
    released_positive_slows (neg_pos.mpr negative) (neg_le.mp lower) step
  rw [odd] at slower direction
  refine ⟨by rwa [abs_neg, abs_neg] at slower, ?_⟩
  rcases direction with zero | ⟨_, same⟩ | ⟨wrong, _⟩
  · exact Or.inl (neg_eq_zero.mp zero)
  · exact Or.inr (Or.inr ⟨negative, neg_pos.mp same⟩)
  · linarith

/-- A call without buttons keeps its law where the step is no longer than half the
speed, or as long as all of it. -/
theorem slows_iff (inside : |velocity| ≤ max) (step : 0 ≤ incriment) :
    Slows max velocity incriment ↔
      velocity = 0 ∨ incriment = |velocity| ∨ 2 * incriment ≤ |velocity| := by
  obtain ⟨lower, upper⟩ := abs_le.mp inside
  rcases lt_trichotomy velocity 0 with negative | zero | positive
  · have odd := released_odd_iff (neg_pos.mpr negative) (neg_le.mp lower) step
    rw [neg_neg] at odd
    rw [abs_of_neg negative, ← odd]
    constructor
    · intro law
      exact Or.inr (by rw [law.symmetric, neg_neg])
    · rintro (zero | odd)
      · exact absurd zero negative.ne
      · have symmetric : released max (-velocity) incriment = -released max velocity incriment := by
          rw [odd, neg_neg]
        obtain ⟨slower, direction⟩ := released_negative_slows negative lower step symmetric
        exact ⟨slower, direction, symmetric⟩
  · subst zero
    have still : released max 0 incriment = 0 := released_zero (by linarith)
    refine ⟨fun _ => Or.inl rfl, fun _ => ⟨by rw [still], Or.inl still, ?_⟩⟩
    rw [neg_zero, still, neg_zero]
  · have odd := released_odd_iff positive upper step
    rw [abs_of_pos positive, ← odd]
    constructor
    · intro law
      exact Or.inr law.symmetric
    · rintro (zero | symmetric)
      · exact absurd zero positive.ne'
      · obtain ⟨slower, direction⟩ := released_positive_slows positive upper step
        exact ⟨slower, direction, symmetric⟩

theorem KeepsDirection.trans {before between after : ℚ} (first : KeepsDirection before between)
    (second : KeepsDirection between after) : KeepsDirection before after := by
  rcases second with zero | ⟨between_positive, after_positive⟩ | ⟨between_negative, after_negative⟩
  · exact Or.inl zero
  · rcases first with zero | ⟨positive, _⟩ | ⟨_, negative⟩
    · exact absurd between_positive zero.le.not_gt
    · exact Or.inr (Or.inl ⟨positive, after_positive⟩)
    · exact absurd between_positive negative.not_gt
  · rcases first with zero | ⟨_, positive⟩ | ⟨negative, _⟩
    · exact absurd between_negative zero.ge.not_gt
    · exact absurd between_negative positive.not_gt
    · exact Or.inr (Or.inr ⟨negative, after_negative⟩)

theorem keepsDirection_self (velocity : ℚ) : KeepsDirection velocity velocity := by
  rcases lt_trichotomy velocity 0 with negative | zero | positive
  · exact Or.inr (Or.inr ⟨negative, negative⟩)
  · exact Or.inl zero
  · exact Or.inr (Or.inl ⟨positive, positive⟩)

end Step

/-- Releasing the controls slows the robot down, the same in both directions, exactly
as long as each step is no longer than half the speed left, or as long as all of it. -/
theorem releaseLaw_iff (max velocity : ℚ) (inside : |velocity| ≤ max) (incriments : List NNRat) :
    ReleaseLaw max velocity incriments ↔
      Run.EachStep (fun before (incriment : NNRat) => released max before incriment)
        (fun before incriment =>
          before = 0 ∨ (incriment : ℚ) = |before| ∨ 2 * (incriment : ℚ) ≤ |before|)
        velocity incriments := by
  have nonneg : 0 ≤ max := (abs_nonneg velocity).trans inside
  have each := @Run.eachStep_congr ℚ NNRat
    (fun before incriment => released max before incriment) velocity incriments
    (fun before => |before| ≤ max) (fun before incriment => Slows max before incriment)
    (fun before incriment =>
      before = 0 ∨ (incriment : ℚ) = |before| ∨ 2 * (incriment : ℚ) ≤ |before|)
    (fun _ _ _ => controlled_range nonneg _ _)
    (fun _ incriment range => slows_iff range incriment.coe_nonneg) inside
  rw [← each]
  constructor
  · intro law
    exact law.slows
  · intro slows
    refine ⟨slows, ?_, ?_⟩
    · apply Run.eachState_of_eachStep
        (fun later => |later| ≤ |velocity| ∧ KeepsDirection velocity later) ?_ (fun _ kept => kept)
        ⟨le_refl _, keepsDirection_self velocity⟩ slows
      intro before incriment kept step
      exact ⟨step.slower.trans kept.1, kept.2.trans step.direction⟩
    · intro presses
      have any : Run.EachStep (controlled max) (fun _ _ => True) velocity presses :=
        Run.eachStep_of_invariant (fun _ => True) (fun _ _ _ => trivial) (fun _ _ _ => trivial) trivial
      exact Run.eachState_of_eachStep (fun later => |later| ≤ max)
        (fun _ press _ _ => controlled_range nonneg _ press) (fun _ kept => kept) inside any

theorem releaseLaw_halving : |(-8 : ℚ)| ≤ 10 ∧ ReleaseLaw 10 (-8) [4, 4] := by
  have inside : |(-8 : ℚ)| ≤ 10 := by norm_num [abs_of_neg]
  have first : released 10 (-8) ((4 : NNRat) : ℚ) = -4 := by
    norm_num [released, controlled, incrimentVelocity, zeroRounding, clamp]
  refine ⟨inside, (releaseLaw_iff 10 (-8) inside [4, 4]).mpr ⟨Or.inr (Or.inr ?_), ?_, trivial⟩⟩
  · norm_num [abs_of_neg]
  · simp only [first]
    exact Or.inr (Or.inl (by norm_num [abs_of_neg]))

/-- A robot that drives backwards at 1 drives forwards at 2 after one step of 3. -/
theorem released_turns_around : ¬ReleaseLaw 10 (-1) [3] := by
  intro law
  have turned : released 10 (-1) ((3 : NNRat) : ℚ) = 2 := by
    norm_num [released, controlled, incrimentVelocity, zeroRounding, clamp]
  have slower := law.slows.1.slower
  rw [turned] at slower
  norm_num [abs_of_neg] at slower

end Sentinet.Controllers
