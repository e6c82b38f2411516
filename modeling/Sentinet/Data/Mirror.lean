import Mathlib.Data.List.Palindrome
import Mathlib.Logic.Equiv.Basic

namespace Sentinet.Data

/-! Sequences with one stretch turned around.  Swapping the two ends of the stretch and
going on between them turns it around too. -/

variable {α : Type} {values : Nat → α} {first last position count : Nat}

/-- The values from `first` to `last` in the other order, all others in their place. -/
def mirror (first last : Nat) (values : Nat → α) : Nat → α := fun position =>
  if first ≤ position ∧ position ≤ last then values (first + last - position) else values position

theorem mirror_inside (lower : first ≤ position) (upper : position ≤ last) :
    mirror first last values position = values (first + last - position) :=
  if_pos ⟨lower, upper⟩

theorem mirror_outside (outside : position < first ∨ last < position) :
    mirror first last values position = values position :=
  if_neg (by omega)

theorem mirror_of_le (short : last ≤ first) : mirror first last values = values := by
  funext position
  by_cases inside : first ≤ position ∧ position ≤ last
  · have place : first + last - position = position := by omega
    rw [mirror_inside inside.1 inside.2, place]
  · exact mirror_outside (by omega)

theorem mirror_mirror (first last : Nat) (values : Nat → α) :
    mirror first last (mirror first last values) = values := by
  funext position
  by_cases inside : first ≤ position ∧ position ≤ last
  · have place : first + last - (first + last - position) = position := by omega
    rw [mirror_inside inside.1 inside.2, mirror_inside (by omega) (by omega), place]
  · rw [mirror_outside (by omega), mirror_outside (by omega)]

/-- One step from outside in. -/
theorem mirror_swap (less : first < last) :
    mirror (first + 1) (last - 1) (values ∘ Equiv.swap first last) = mirror first last values := by
  funext position
  by_cases between : first + 1 ≤ position ∧ position ≤ last - 1
  · have place : first + 1 + (last - 1) - position = first + last - position := by omega
    have inner : Equiv.swap first last (first + last - position) = first + last - position :=
      Equiv.swap_apply_of_ne_of_ne (by omega) (by omega)
    rw [mirror_inside between.1 between.2, mirror_inside (by omega) (by omega), place,
      Function.comp_apply, inner]
  · rw [mirror_outside (by omega), Function.comp_apply]
    by_cases low : position = first
    · subst low
      rw [Equiv.swap_apply_left, mirror_inside (Nat.le_refl _) (Nat.le_of_lt less),
        Nat.add_sub_cancel_left]
    · by_cases high : position = last
      · subst high
        rw [Equiv.swap_apply_right, mirror_inside (Nat.le_of_lt less) (Nat.le_refl _),
          Nat.add_sub_cancel]
      · rw [Equiv.swap_apply_of_ne_of_ne low high, mirror_outside (by omega)]

theorem palindrome_range_iff :
    ((List.range count).map values).Palindrome ↔ ∀ i < count, values i = values (count - 1 - i) := by
  rw [List.Palindrome.iff_reverse_eq, List.ext_getElem_iff]
  simp only [List.length_reverse, List.length_map, List.length_range, List.getElem_reverse,
    List.getElem_map, List.getElem_range, true_and]
  constructor
  · intro same i inside
    exact (same i inside inside).symm
  · intro same i inside _
    exact (same i inside).symm

/-- A palindrome is known by its second half. -/
theorem palindrome_of_behind (half : 2 * (last + 1) ≤ count)
    (behind : ∀ i < count, last < i → values i = values (count - 1 - i)) :
    ∀ i < count, values i = values (count - 1 - i) := by
  intro i inside
  by_cases above : last < i
  · exact behind i inside above
  · have place : count - 1 - (count - 1 - i) = i := by omega
    have other := behind (count - 1 - i) (by omega) (by omega)
    rw [place] at other
    exact other.symm

/-- Turning a first part of at most half around turns all of it around only where
neither changes anything. -/
theorem mirror_eq_reverse_iff (half : 2 * (last + 1) ≤ count) :
    (∀ i < count, mirror 0 last values i = values (count - 1 - i)) ↔
      ((List.range count).map values).Palindrome ∧ ((List.range (last + 1)).map values).Palindrome := by
  have place (i : Nat) : 0 + last - i = last + 1 - 1 - i := by omega
  rw [palindrome_range_iff, palindrome_range_iff]
  constructor
  · intro turned
    have whole : ∀ i < count, values i = values (count - 1 - i) := by
      apply palindrome_of_behind half
      intro i inside above
      rw [← turned i inside, mirror_outside (Or.inr above)]
    refine ⟨whole, fun i low => ?_⟩
    have part := turned i (by omega)
    rw [mirror_inside (Nat.zero_le i) (by omega), ← whole i (by omega), place] at part
    exact part.symm
  · rintro ⟨whole, part⟩ i inside
    by_cases above : last < i
    · rw [mirror_outside (Or.inr above)]
      exact whole i inside
    · rw [mirror_inside (Nat.zero_le i) (by omega), place, ← part i (by omega)]
      exact whole i inside

end Sentinet.Data
