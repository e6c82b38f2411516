import Mathlib.Data.List.Induction
import Sentinet.Data.Memory

namespace Sentinet.Common

open Sentinet.Data

/-! The file name that `log_log` displays, cut out of a source path into an array of
20 bytes. -/

def slash : UInt8 := '/'.toUInt8

/-- A string as `strlen` sees it. -/
structure SourcePath where
  chars : List UInt8
  nulFree : 0 ∉ chars

/-- The array `file` with what lies behind it, and the positions read in `file_` and
written in `file`. -/
structure DisplayedName where
  file : Memory
  reads : List Nat
  writes : List Nat

/-- `int index = strlen(file_) - 1;` -/
def SourcePath.index (path : SourcePath) : Int := (BitVec.ofNat 32 path.chars.length - 1).toInt

/-- The loop, with `i + 1` for its counter: the counter in the end and the positions read. -/
def scanName (file_ : Memory) : (numSlashes next : Nat) → Nat × List Nat
  | _, 0 => (0, [])
  | numSlashes, i + 1 =>
      if numSlashes < 1 then
        let rest := scanName file_ (if file_ i = slash then numSlashes + 1 else numSlashes) i
        (rest.1, i :: rest.2)
      else (i + 1, [])

/-- The part of `log_log` in front of the level check. -/
def logName (path : SourcePath) (behind file : Memory) : DisplayedName :=
  let file_ := Memory.ofString path.chars behind
  let scan := scanName file_ 0 (path.index + 1).toNat
  let copyIndex : Int := if path.index < 0 then path.index else (scan.1 : Int) - 1
  let start := (copyIndex + 1).toNat
  let length := (path.index - copyIndex).toNat
  { file := (file.store 0 (file_.load start length)).store8 length 0
    reads := scan.2 ++ (List.range length).map (start + ·)
    writes := List.range length ++ [length] }

/-- What follows the last slash. -/
def lastComponent (chars : List UInt8) : List UInt8 :=
  (chars.reverse.takeWhile (· ≠ slash)).reverse

/-- The last component with the slash in front of it, where there is one. -/
def slashed (chars : List UInt8) : List UInt8 :=
  (if slash ∈ chars then [slash] else []) ++ lastComponent chars

/-- The name stays in its bounds and is the last component or a truncation of it. -/
structure NamesFile (path : SourcePath) (displayed : DisplayedName) : Prop where
  reads : ∀ position ∈ displayed.reads, position < path.chars.length
  writes : ∀ position ∈ displayed.writes, position < 20
  named : ∃ name, displayed.file.load 0 (name.length + 1) = name ++ [0] ∧ 0 ∉ name ∧
    (name <+: slashed path.chars ∨ name <+: lastComponent path.chars)

/-- The characters up to `index`: all of a path of at most 2^31. -/
def SourcePath.seen (path : SourcePath) : List UInt8 := path.chars.take (path.index + 1).toNat

section Components

variable {chars : List UInt8} {char : UInt8}

theorem lastComponent_append :
    lastComponent (chars ++ [char]) = if char = slash then [] else lastComponent chars ++ [char] := by
  rw [lastComponent, List.reverse_append, List.reverse_singleton, List.singleton_append,
    List.takeWhile_cons]
  by_cases same : char = slash
  · simp [same]
  · simp [same, lastComponent]

theorem slashed_append :
    slashed (chars ++ [char]) = if char = slash then [slash] else slashed chars ++ [char] := by
  rw [slashed, lastComponent_append]
  by_cases same : char = slash
  · simp [same]
  · have other : slash ≠ char := Ne.symm same
    simp [same, other, slashed]

theorem slashed_suffix (chars : List UInt8) : slashed chars <:+ chars := by
  induction chars using List.reverseRecOn with
  | nil => exact List.suffix_refl _
  | append_singleton chars char ih =>
      rw [slashed_append]
      split
      · next same =>
          subst same
          exact List.suffix_append _ _
      · obtain ⟨front, whole⟩ := ih
        exact ⟨front, by rw [← List.append_assoc, whole]⟩

end Components

section Scan

variable {file_ : Memory} {next : Nat}

theorem scanName_found (numSlashes : Nat) (found : 1 ≤ numSlashes) :
    scanName file_ numSlashes next = (next, []) := by
  cases next with
  | zero => rfl
  | succ i => rw [scanName, if_neg (by omega)]

/-- The scan stops in front of the last slash of what it sees, or of all of it. -/
theorem scanName_eq : (scanName file_ 0 next).1 = next - (slashed (file_.load 0 next)).length := by
  induction next with
  | zero => rfl
  | succ i ih =>
      have bound := (slashed_suffix (file_.load 0 i)).length_le
      rw [Memory.load_length] at bound
      rw [scanName, if_pos Nat.zero_lt_one, Memory.load_succ_last, slashed_append,
        Nat.zero_add i]
      by_cases same : file_ i = slash
      · rw [if_pos same, if_pos same, scanName_found _ (Nat.le_refl 1)]
        rfl
      · rw [if_neg same, if_neg same, ih, List.length_append, List.length_singleton]
        omega

theorem scanName_reads : ∀ numSlashes, ∀ position ∈ (scanName file_ numSlashes next).2, position < next := by
  induction next with
  | zero => intro _ position member; cases member
  | succ i ih =>
      intro numSlashes position member
      rw [scanName] at member
      split at member
      · rcases List.mem_cons.mp member with same | later
        · omega
        · exact Nat.lt_succ_of_lt (ih _ position later)
      · cases member

end Scan

section Name

variable {path : SourcePath} {behind file : Memory}

theorem index_eq (path : SourcePath) : path.index =
    if (path.chars.length + 4294967295) % 4294967296 < 2147483648
    then (((path.chars.length + 4294967295) % 4294967296 : Nat) : Int)
    else (((path.chars.length + 4294967295) % 4294967296 : Nat) : Int) - 4294967296 := by
  have value : (BitVec.ofNat 32 path.chars.length - 1).toNat =
      (path.chars.length + 4294967295) % 4294967296 := by
    rw [BitVec.toNat_sub, BitVec.toNat_ofNat]
    change (4294967295 + path.chars.length % 4294967296) % 4294967296 = _
    omega
  rw [SourcePath.index, BitVec.toInt_eq_toNat_cond, value]
  split <;> split <;> omega

theorem seen_length_le (path : SourcePath) : (path.index + 1).toNat ≤ path.chars.length := by
  rw [index_eq]
  split <;> omega

theorem seen_of_short (short : path.chars.length ≤ 2147483648) : path.seen = path.chars := by
  rw [SourcePath.seen, index_eq, List.take_of_length_le]
  split <;> omega

theorem load_seen : (Memory.ofString path.chars behind).load 0 (path.index + 1).toNat = path.seen := by
  have inside := seen_length_le path
  rw [Memory.load_ofString (by omega), List.drop_zero]
  rfl

/-- The string that ends in the array is the last component of what was seen. -/
theorem logName_eq : logName path behind file =
    { file := (file.store 0 (slashed path.seen)).store8 (slashed path.seen).length 0
      reads := (scanName (Memory.ofString path.chars behind) 0 (path.index + 1).toNat).2 ++
        (List.range (slashed path.seen).length).map
          ((path.index + 1).toNat - (slashed path.seen).length + ·)
      writes := List.range (slashed path.seen).length ++ [(slashed path.seen).length] } := by
  have inside := seen_length_le path
  have length : path.seen.length = (path.index + 1).toNat := List.length_take_of_le inside
  have part := slashed_suffix path.seen
  have bound := part.length_le
  have stop : (scanName (Memory.ofString path.chars behind) 0 (path.index + 1).toNat).1 =
      (path.index + 1).toNat - (slashed path.seen).length := by rw [scanName_eq, load_seen]
  have copied : (Memory.ofString path.chars behind).load
      ((path.index + 1).toNat - (slashed path.seen).length) (slashed path.seen).length =
        slashed path.seen := by
    have dropped := List.suffix_iff_eq_drop.mp part
    rw [length, ← @load_seen path behind, Memory.load_drop, load_seen, Nat.zero_add] at dropped
    rw [length] at bound
    rw [Nat.sub_sub_self bound] at dropped
    exact dropped.symm
  rw [length] at bound
  have start : ((if path.index < 0 then path.index
      else (((path.index + 1).toNat - (slashed path.seen).length : Nat) : Int) - 1) + 1).toNat =
        (path.index + 1).toNat - (slashed path.seen).length := by
    split <;> omega
  have count : (path.index - (if path.index < 0 then path.index
      else (((path.index + 1).toNat - (slashed path.seen).length : Nat) : Int) - 1)).toNat =
        (slashed path.seen).length := by
    split <;> omega
  simp only [logName, stop, start, count, copied]

theorem logName_reads {position : Nat} (member : position ∈ (logName path behind file).reads) :
    position < path.chars.length := by
  have inside := seen_length_le path
  have length : path.seen.length = (path.index + 1).toNat := List.length_take_of_le inside
  have bound := (slashed_suffix path.seen).length_le
  rw [logName_eq, List.mem_append] at member
  rcases member with scanned | copied
  · exact Nat.lt_of_lt_of_le (scanName_reads 0 position scanned) inside
  · obtain ⟨lane, within, rfl⟩ := List.mem_map.mp copied
    have less := List.mem_range.mp within
    omega

theorem logName_writes_iff :
    (∀ position ∈ (logName path behind file).writes, position < 20) ↔
      (slashed path.seen).length < 20 := by
  rw [logName_eq]
  constructor
  · intro inside
    exact inside _ (List.mem_append_right _ List.mem_cons_self)
  · intro short position member
    rcases List.mem_append.mp member with copied | ended
    · exact Nat.lt_trans (List.mem_range.mp copied) short
    · rwa [List.mem_singleton.mp ended]

theorem slashed_nulFree : 0 ∉ slashed path.seen := by
  intro zero
  have seen := (slashed_suffix path.seen).mem zero
  exact path.nulFree (List.mem_of_mem_take seen)

/-- The array holds one string: what was copied. -/
theorem logName_string :
    (logName path behind file).file.load 0 ((slashed path.seen).length + 1) = slashed path.seen ++ [0] := by
  rw [logName_eq, Memory.load_add, Memory.store8,
    Memory.load_store_disjoint (Or.inl (Nat.le_of_eq (Nat.zero_add _))), Memory.load_store_same,
    Nat.zero_add]
  exact congrArg _ (Memory.load_store_of_length rfl)

/-- Two strings that begin at one place are the same up to the first zero. -/
theorem string_unique {memory : Memory} {first second : List UInt8}
    (loadFirst : memory.load 0 (first.length + 1) = first ++ [0]) (freeFirst : 0 ∉ first)
    (loadSecond : memory.load 0 (second.length + 1) = second ++ [0]) (freeSecond : 0 ∉ second) :
    first = second := by
  have shorter {short long : List UInt8}
      (loadShort : memory.load 0 (short.length + 1) = short ++ [0])
      (loadLong : memory.load 0 (long.length + 1) = long ++ [0]) (freeLong : 0 ∉ long) :
      ¬short.length < long.length := by
    intro less
    have atEnd := Memory.load_lane memory 0 (Nat.lt_succ_self short.length)
    rw [loadShort, List.getElem?_concat_length] at atEnd
    have atLong := Memory.load_lane memory 0 (Nat.lt_succ_of_lt less)
    rw [loadLong, ← atEnd, List.getElem?_append_left less] at atLong
    exact freeLong (List.mem_of_getElem? atLong)
  have sameLength : first.length = second.length :=
    Nat.le_antisymm (Nat.not_lt.mp (shorter loadSecond loadFirst freeFirst))
      (Nat.not_lt.mp (shorter loadFirst loadSecond freeSecond))
  rw [sameLength] at loadFirst
  exact List.append_cancel_right (loadFirst.symm.trans loadSecond)

end Name

/-- The displayed name is right exactly when the last component, with its slash,
has at most 19 characters; where the `int` cuts a longer path off, that goes for the
last component of what is left, which must begin the real one. -/
theorem logName_namesFile_iff (path : SourcePath) (behind file : Memory) :
    NamesFile path (logName path behind file) ↔
      (slashed path.seen).length < 20 ∧
        (slashed path.seen <+: slashed path.chars ∨ slashed path.seen <+: lastComponent path.chars) := by
  constructor
  · intro law
    obtain ⟨name, loaded, nulFree, part⟩ := law.named
    have same := string_unique loaded nulFree logName_string slashed_nulFree
    exact ⟨logName_writes_iff.mp law.writes, same ▸ part⟩
  · rintro ⟨short, part⟩
    exact ⟨fun _ => logName_reads, logName_writes_iff.mpr short,
      ⟨_, logName_string, slashed_nulFree, part⟩⟩

/-- Of a path of at most 2^31 characters all is seen, and only the length counts. -/
theorem logName_namesFile_iff_of_short {path : SourcePath} {behind file : Memory}
    (short : path.chars.length ≤ 2147483648) :
    NamesFile path (logName path behind file) ↔ (slashed path.chars).length < 20 := by
  rw [logName_namesFile_iff, seen_of_short short]
  exact and_iff_left (Or.inl (List.prefix_refl _))

/-- The path of a source file whose name alone has 26 characters. -/
def longName : SourcePath where
  chars := "src/kernel/KermitNetworkInterface.cpp".toList.map Char.toUInt8
  nulFree := by decide

theorem longName_overruns : ¬NamesFile longName (logName longName (fun _ => 0) (fun _ => 0)) := by
  intro law
  exact absurd (law.writes 27 (by decide)) (by decide)

end Sentinet.Common
