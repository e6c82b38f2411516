import Sentinet.Data.Memory
import Sentinet.Data.Mirror

namespace Sentinet.Messages

open Sentinet.Data

/-! `reverse_bytes` of `data.c`.  It swaps the first byte with the one at `end`, which
starts as the length, and goes on inwards. -/

/-- The bytes in the end and the positions that were read. -/
structure ReversedBytes where
  data : Memory
  reads : List Nat

/-- The loop, which ends before a negative index is used. -/
def reverseFrom (start end_ : Int) (data : Memory) : ReversedBytes :=
  if start < end_ then
    let temp := data start.toNat
    let swapped := (data.store8 start.toNat (data end_.toNat)).store8 end_.toNat temp
    let rest := reverseFrom (start + 1) (end_ - 1) swapped
    { rest with reads := start.toNat :: end_.toNat :: rest.reads }
  else { data, reads := [] }
termination_by (end_ - start).toNat

/-- `int end = len;` -/
def reverseEnd (len : Nat) : Int := (BitVec.ofNat 32 len).toInt

def reverseBytes (data : Memory) (len : Nat) : ReversedBytes := reverseFrom 0 (reverseEnd len) data

/-- The first `len` bytes are turned around, no other byte is read or changed, and a
second call turns them back. -/
structure ReversesBytes (data : Memory) (len : Nat) : Prop where
  reversed : ∀ i < len, (reverseBytes data len).data i = data (len - 1 - i)
  unchanged : ∀ position, len ≤ position → (reverseBytes data len).data position = data position
  unread : ∀ position ∈ (reverseBytes data len).reads, position < len
  restores : (reverseBytes (reverseBytes data len).data len).data = data

section Loop

variable {data : Memory} {start end_ : Int} {len : Nat}

theorem swapped_eq (data : Memory) {first last : Nat} (different : first ≠ last) :
    (data.store8 first (data last)).store8 last (data first) = data ∘ Equiv.swap first last := by
  funext position
  rw [Function.comp_apply]
  by_cases high : position = last
  · subst high
    rw [Memory.store8_same, Equiv.swap_apply_right]
  · rw [Memory.store8_outside high]
    by_cases low : position = first
    · subst low
      rw [Memory.store8_same, Equiv.swap_apply_left]
    · rw [Memory.store8_outside low, Equiv.swap_apply_of_ne_of_ne low high]

/-- The loop turns around what lies between its indexes, both included. -/
theorem reverseFrom_data (nonneg : 0 ≤ start) :
    (reverseFrom start end_ data).data = mirror start.toNat end_.toNat data := by
  fun_induction reverseFrom start end_ data with
  | case1 start end_ data less temp swapped rest ih =>
      have swap : swapped = data ∘ Equiv.swap start.toNat end_.toNat := swapped_eq data (by omega)
      have inner : (start + 1).toNat = start.toNat + 1 := by omega
      have outer : (end_ - 1).toNat = end_.toNat - 1 := by omega
      rw [ih (by omega), swap, inner, outer]
      exact mirror_swap (by omega)
  | case2 start end_ data stop => exact (mirror_of_le (by omega)).symm

theorem reverseFrom_reads (nonneg : 0 ≤ start) :
    ∀ position ∈ (reverseFrom start end_ data).reads, position ≤ end_.toNat := by
  fun_induction reverseFrom start end_ data with
  | case1 start end_ data less temp swapped rest ih =>
      intro position member
      rcases List.mem_cons.mp member with low | member
      · omega
      · rcases List.mem_cons.mp member with high | later
        · omega
        · have inner := ih (by omega) position later
          omega
  | case2 start end_ data stop => exact fun position member => absurd member List.not_mem_nil

theorem reverseBytes_data : (reverseBytes data len).data = mirror 0 (reverseEnd len).toNat data :=
  reverseFrom_data (Int.le_refl 0)

/-- Whatever is turned around, a second call turns it back. -/
theorem reverseBytes_restores (data : Memory) (len : Nat) :
    (reverseBytes (reverseBytes data len).data len).data = data := by
  rw [reverseBytes_data, reverseBytes_data]
  exact mirror_mirror _ _ data

theorem end_mem_reads (positive : 0 < (reverseEnd len).toNat) :
    (reverseEnd len).toNat ∈ (reverseBytes data len).reads := by
  rw [reverseBytes, reverseFrom, if_pos (by omega)]
  exact List.mem_cons_of_mem _ List.mem_cons_self

theorem reverseEnd_toNat (len : Nat) : (reverseEnd len).toNat =
    if len % 4294967296 < 2147483648 then len % 4294967296 else 0 := by
  rw [reverseEnd, BitVec.toInt_eq_toNat_cond, BitVec.toNat_ofNat]
  split <;> split <;> omega

theorem reversesBytes_zero (data : Memory) : ReversesBytes data 0 where
  reversed i inside := absurd inside (Nat.not_lt_zero i)
  unchanged position _ := by
    rw [reverseBytes_data]
    exact congrFun (mirror_of_le (Nat.le_refl 0)) position
  unread position member := by
    rw [reverseBytes, reverseFrom, if_neg (by decide)] at member
    exact absurd member List.not_mem_nil
  restores := reverseBytes_restores data 0

/-- A length that is an `int` is where `end` starts, one place behind the bytes. -/
theorem not_reversesBytes_of_short (some_bytes : 0 < len) (short : len < 2147483648) :
    ¬ReversesBytes data len := by
  intro law
  have last : (reverseEnd len).toNat = len := by
    rw [reverseEnd_toNat, if_pos (by omega)]
    omega
  have read : len ∈ (reverseBytes data len).reads := by
    have first := @end_mem_reads data len (by omega)
    rwa [last] at first
  exact absurd (law.unread len read) (Nat.lt_irrefl len)

/-- Where `end` starts among the bytes, only their order is left to be right. -/
theorem reversesBytes_iff_of_end (half : 2 * ((reverseEnd len).toNat + 1) ≤ len) :
    ReversesBytes data len ↔
      (data.load 0 len).Palindrome ∧ (data.load 0 ((reverseEnd len).toNat + 1)).Palindrome := by
  have window (count : Nat) : data.load 0 count = (List.range count).map data := by
    simp [Memory.load]
  rw [window, window, ← mirror_eq_reverse_iff half, ← reverseBytes_data]
  constructor
  · exact fun law => law.reversed
  · intro reversed
    refine ⟨reversed, ?_, ?_, reverseBytes_restores data len⟩
    · intro position behind
      rw [reverseBytes_data]
      exact mirror_outside (Or.inr (by omega))
    · intro position member
      have inside : position ≤ (reverseEnd len).toNat :=
        reverseFrom_reads (Int.le_refl 0) position member
      omega

theorem palindrome_end_iff :
    (data.load 0 ((reverseEnd len).toNat + 1)).Palindrome ↔
      (len % 4294967296 < 2147483648 → (data.load 0 (len % 4294967296 + 1)).Palindrome) := by
  rw [reverseEnd_toNat]
  by_cases fits : len % 4294967296 < 2147483648
  · rw [if_pos fits]
    exact (imp_iff_right fits).symm
  · rw [if_neg fits]
    exact iff_of_true (List.Palindrome.singleton _) fun low => absurd low fits

end Loop

/-- Bytes are reversed as they should be exactly when there are none, or when an `int`
cannot hold their number and nothing has to change: they are a palindrome, and so are
those up to where `end` starts if that is not negative. -/
theorem reverseBytes_reversesBytes_iff (data : Memory) (len : Nat) :
    ReversesBytes data len ↔
      len = 0 ∨ 2147483648 ≤ len ∧ (data.load 0 len).Palindrome ∧
        (len % 4294967296 < 2147483648 →
          (data.load 0 (len % 4294967296 + 1)).Palindrome) := by
  rcases Nat.eq_zero_or_pos len with none | some_bytes
  · subst none
    exact iff_of_true (reversesBytes_zero data) (Or.inl rfl)
  · by_cases long : 2147483648 ≤ len
    · have half : 2 * ((reverseEnd len).toNat + 1) ≤ len := by
        rw [reverseEnd_toNat]
        split <;> omega
      rw [reversesBytes_iff_of_end half, palindrome_end_iff]
      simp only [some_bytes.ne', long, true_and, false_or]
    · refine iff_of_false (not_reversesBytes_of_short some_bytes (by omega)) ?_
      rintro (none | ⟨large, _⟩)
      · omega
      · exact long large

/-- Of the bytes 1, 2, 3 the first two are to be reversed: the byte behind them comes
to the front. -/
theorem reverseBytes_takes_next :
    ¬ReversesBytes (Memory.ofString [1, 2, 3] fun _ => 0) 2 := by
  intro law
  have first := law.reversed 0 (by decide)
  rw [reverseBytes_data] at first
  exact absurd first (by decide)

end Sentinet.Messages
