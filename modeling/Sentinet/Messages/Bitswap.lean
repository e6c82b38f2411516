import Mathlib.Data.Nat.Bitwise

namespace Sentinet.Messages

/-! The `bitswap` functions of `data.c`: they shift the bits of a value out to the
right and into the result from there. -/

/-- The result and the amounts of all shifts made for it. -/
structure Swapped (width : Nat) where
  reversed : BitVec width
  shifts : List Nat

/-- The loop, which ends when no bit is left, and the shift behind it.  For the values 0
and 1 that one is by the whole width, which is undefined for 32 and 64 bits: what the
result is there (zero here, the value itself on some machines) is not for the model to
say, and `shifts` records the amount. -/
def swapRest {width : Nat} (reversed data : BitVec width) (count : Nat) : Swapped width :=
  if data = 0 then { reversed := reversed <<< count, shifts := [count] }
  else
    let rest := swapRest (reversed <<< 1 ||| data &&& 1) (data >>> 1) (count - 1)
    { rest with shifts := 1 :: 1 :: rest.shifts }
termination_by data.toNat
decreasing_by
  have positive : data.toNat ≠ 0 := fun zero => ‹¬data = 0› (BitVec.toNat_inj.mp zero)
  rw [BitVec.toNat_ushiftRight, Nat.shiftRight_eq_div_pow]
  omega

/-- The four functions, but for their width. -/
def bitswap {width : Nat} (data : BitVec width) : Swapped width :=
  let rest := swapRest data (data >>> 1) width
  { rest with shifts := 1 :: rest.shifts }

def bitswap8 (data : BitVec 8) : Swapped 8 := bitswap data
def bitswap16 (data : BitVec 16) : Swapped 16 := bitswap data
def bitswap32 (data : BitVec 32) : Swapped 32 := bitswap data
def bitswap64 (data : BitVec 64) : Swapped 64 := bitswap data

/-- The function turns a value around, turns it back, and shifts by less than the width. -/
structure Reverses {width : Nat} (swap : BitVec width → Swapped width) (value : BitVec width) :
    Prop where
  mirrored : ∀ i < width, (swap value).reversed.getLsbD i = value.getLsbD (width - 1 - i)
  involutive : (swap (swap value).reversed).reversed = value
  shifts : ∀ amount ∈ (swap value).shifts, amount < width

section Loop

variable {width count i : Nat} {reversed data value : BitVec width}

/-- What one turn collects: the lowest bit below the bits there were. -/
theorem collect_getLsbD (inside : i < width) :
    (reversed <<< 1 ||| data &&& 1).getLsbD i =
      if i = 0 then data.getLsbD 0 else reversed.getLsbD (i - 1) := by
  have one : (1 : BitVec width).getLsbD i = decide (i = 0) := by
    refine BitVec.getLsbD_one.trans ?_
    by_cases zero : i = 0 <;> simp [zero]
    omega
  rw [BitVec.getLsbD_or, BitVec.getLsbD_shiftLeft, BitVec.getLsbD_and, one]
  by_cases zero : i = 0
  · simp [zero]
  · have above : ¬i < 1 := by omega
    simp [zero, above, inside]

theorem shiftLeft_getLsbD (inside : i < width) :
    (reversed <<< count).getLsbD i = if i < count then false else reversed.getLsbD (i - count) := by
  rw [BitVec.getLsbD_shiftLeft]
  by_cases low : i < count
  · simp [low]
  · rw [if_neg low]
    simp only [inside, low, decide_true, decide_false, Bool.not_false, Bool.true_and]

/-- The bits still to come end up below `count`, in the other order; what was
collected before goes above. -/
theorem swapRest_getLsbD (small : data.toNat < 2 ^ count) (inside : i < width) :
    (swapRest reversed data count).reversed.getLsbD i =
      if i < count then data.getLsbD (count - 1 - i) else reversed.getLsbD (i - count) := by
  have none_left (index : Nat) : (0 : BitVec width).getLsbD index = false := BitVec.getLsbD_zero
  induction count generalizing reversed data with
  | zero =>
      have zero : data = 0 := BitVec.toNat_inj.mp (by simpa using small)
      rw [swapRest, if_pos zero, zero, none_left]
      exact shiftLeft_getLsbD inside
  | succ count ih =>
      by_cases zero : data = 0
      · rw [swapRest, if_pos zero, zero, none_left]
        exact shiftLeft_getLsbD inside
      · have half : (data >>> 1).toNat < 2 ^ count := by
          rw [BitVec.toNat_ushiftRight, Nat.shiftRight_eq_div_pow]
          omega
        have rest := @ih (reversed <<< 1 ||| data &&& 1) (data >>> 1) half
        rw [swapRest, if_neg zero]
        refine rest.trans ?_
        by_cases low : i < count
        · have place : 1 + (count - 1 - i) = count + 1 - 1 - i := by omega
          rw [if_pos low, if_pos (Nat.lt_succ_of_lt low), BitVec.getLsbD_ushiftRight, place]
        · rw [if_neg low, collect_getLsbD (by omega)]
          by_cases last : i = count
          · rw [if_pos (by omega), if_pos (by omega), show count + 1 - 1 - i = 0 by omega]
          · rw [if_neg (by omega), if_neg (by omega), Nat.sub_sub]

/-- Bit `i` of the result is bit `width - i` of the value: one place too far. -/
theorem bitswap_getLsbD (inside : i < width) :
    (bitswap value).reversed.getLsbD i = value.getLsbD (width - i) := by
  have place : 1 + (width - 1 - i) = width - i := by omega
  have small : (value >>> 1).toNat < 2 ^ width := (value >>> 1).isLt
  rw [bitswap]
  refine (swapRest_getLsbD small inside).trans ?_
  rw [if_pos inside, BitVec.getLsbD_ushiftRight, place]

/-- A value whose bits mirrored and mirrored one place too far are the same is zero. -/
theorem zero_of_mirrored
    (mirrored : ∀ i < width, (bitswap value).reversed.getLsbD i = value.getLsbD (width - 1 - i)) :
    value = 0 := by
  have clear : ∀ i < width, value.getLsbD (width - 1 - i) = false := by
    intro i inside
    induction i with
    | zero =>
        rw [← mirrored 0 inside, bitswap_getLsbD inside]
        exact BitVec.getLsbD_of_ge value _ (Nat.le_refl _)
    | succ i ih =>
        have place : width - (i + 1) = width - 1 - i := by omega
        rw [← mirrored (i + 1) inside, bitswap_getLsbD inside, place]
        exact ih (Nat.lt_of_succ_lt inside)
  apply BitVec.eq_of_getLsbD_eq
  intro i inside
  have place : width - 1 - (width - 1 - i) = i := by omega
  have bit := clear (width - 1 - i) (by omega)
  rw [place] at bit
  exact bit.trans BitVec.getLsbD_zero.symm

/-- For zero the last shift is by the whole width. -/
theorem bitswap_not_reverses (value : BitVec width) : ¬Reverses bitswap value := by
  intro law
  have whole : width ∈ (bitswap value).shifts := by
    rw [zero_of_mirrored law.mirrored, bitswap, swapRest, if_pos (by simp)]
    simp
  exact absurd (law.shifts width whole) (Nat.lt_irrefl _)

end Loop

/-- None of the four functions reverses the bits of any value. -/
theorem bitswap_never_reverses (byte : BitVec 8) (half : BitVec 16) (word : BitVec 32)
    (long : BitVec 64) :
    ¬Reverses bitswap8 byte ∧ ¬Reverses bitswap16 half ∧ ¬Reverses bitswap32 word ∧
      ¬Reverses bitswap64 long :=
  ⟨bitswap_not_reverses byte, bitswap_not_reverses half, bitswap_not_reverses word,
    bitswap_not_reverses long⟩

/-- The lowest bit is lost and not moved to the top. -/
theorem bitswap8_one_lost : ¬Reverses bitswap8 1 := by
  intro law
  have top := law.mirrored 7 (by decide)
  simp [bitswap8, bitswap, swapRest] at top

end Sentinet.Messages
