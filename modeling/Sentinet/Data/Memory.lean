import Mathlib.Data.Nat.Digits.Defs

namespace Sentinet.Data

/-! Byte memory seen from one base pointer onward, with the little-endian words
that a typed pointer reads and writes there.  Nothing here bounds an access:
clients state bounds over the positions they touch.
-/

abbrev Memory := Nat → UInt8

namespace Memory

def load (memory : Memory) (position count : Nat) : List UInt8 :=
  (List.range count).map (fun lane => memory (position + lane))

def store (memory : Memory) (position : Nat) (bytes : List UInt8) : Memory := fun address =>
  if position ≤ address then bytes[address - position]?.getD (memory address) else memory address

/-- The storage of a string object: its bytes, the terminator that `c_str` and
`operator[]` guarantee, and whatever memory lies behind. -/
def ofString (bytes : List UInt8) (behind : Memory) : Memory :=
  behind.store 0 (bytes ++ [0])

variable {memory other : Memory} {position count lane address : Nat} {bytes : List UInt8}

@[simp] theorem load_length : (memory.load position count).length = count := by
  simp [load]

@[simp] theorem load_zero : memory.load position 0 = [] := rfl

theorem load_lane (memory : Memory) (position : Nat) (bound : lane < count) :
    (memory.load position count)[lane]? = some (memory (position + lane)) := by
  simp [load, bound]

theorem load_add (memory : Memory) (position first second : Nat) :
    memory.load position (first + second) =
      memory.load position first ++ memory.load (position + first) second := by
  simp [load, List.range_add, Nat.add_assoc]

theorem load_succ (memory : Memory) (position count : Nat) :
    memory.load position (count + 1) = memory position :: memory.load (position + 1) count := by
  rw [Nat.add_comm, load_add]
  rfl

theorem load_succ_last (memory : Memory) (position count : Nat) :
    memory.load position (count + 1) = memory.load position count ++ [memory (position + count)] :=
  load_add memory position count 1

theorem load_take (memory : Memory) (position : Nat) {first count : Nat} (bound : first ≤ count) :
    (memory.load position count).take first = memory.load position first := by
  obtain ⟨rest, rfl⟩ := Nat.exists_eq_add_of_le bound
  rw [load_add, List.take_left' load_length]

theorem load_drop (memory : Memory) (position first count : Nat) :
    (memory.load position count).drop first = memory.load (position + first) (count - first) := by
  by_cases bound : first ≤ count
  · obtain ⟨rest, rfl⟩ := Nat.exists_eq_add_of_le bound
    rw [load_add, List.drop_left' load_length, Nat.add_sub_cancel_left]
  · rw [List.drop_eq_nil_of_le (by simp only [load_length]; omega), Nat.sub_eq_zero_of_le (by omega)]
    rfl

theorem load_congr (agree : ∀ address, position ≤ address → address < position + count →
      memory address = other address) :
    memory.load position count = other.load position count := by
  apply List.map_congr_left
  intro lane member
  have bound := List.mem_range.mp member
  exact agree _ (by omega) (by omega)

theorem load_constant {value : UInt8} (constant : ∀ address, position ≤ address →
      address < position + count → memory address = value) :
    memory.load position count = List.replicate count value := by
  apply List.eq_replicate_iff.mpr ⟨load_length, ?_⟩
  intro byte member
  obtain ⟨lane, inside, rfl⟩ := List.mem_map.mp member
  have bound := List.mem_range.mp inside
  exact constant _ (by omega) (by omega)

theorem apply_of_load (loaded : memory.load position bytes.length = bytes)
    (bound : lane < bytes.length) : memory (position + lane) = bytes[lane] := by
  have selected := load_lane memory position bound
  rw [loaded, List.getElem?_eq_getElem bound] at selected
  exact (Option.some.inj selected).symm

@[simp] theorem store_nil : memory.store position [] = memory := by
  funext address
  simp [store]

theorem store_lane (memory : Memory) (position : Nat) (bound : lane < bytes.length) :
    memory.store position bytes (position + lane) = bytes[lane] := by
  simp [store, bound]

theorem store_outside (outside : address < position ∨ position + bytes.length ≤ address) :
    memory.store position bytes address = memory address := by
  unfold store
  split
  · rw [List.getElem?_eq_none (by omega), Option.getD_none]
  · rfl

@[simp] theorem load_store_same :
    (memory.store position bytes).load position bytes.length = bytes := by
  apply List.ext_getElem?
  intro lane
  by_cases bound : lane < bytes.length
  · rw [load_lane _ _ bound, store_lane _ _ bound, List.getElem?_eq_getElem bound]
  · rw [List.getElem?_eq_none (by simp only [load_length]; omega), List.getElem?_eq_none (by omega)]

theorem load_store_of_length (length : bytes.length = count) :
    (memory.store position bytes).load position count = bytes := by
  subst count
  exact load_store_same

theorem load_store_disjoint {start : Nat}
    (disjoint : start + count ≤ position ∨ position + bytes.length ≤ start) :
    (memory.store position bytes).load start count = memory.load start count :=
  load_congr fun _ _ _ => store_outside (by omega)

theorem store_append (memory : Memory) (position : Nat) (first second : List UInt8) :
    memory.store position (first ++ second) =
      (memory.store position first).store (position + first.length) second := by
  funext address
  by_cases before : address < position
  · rw [store_outside (Or.inl before), store_outside (Or.inl (by omega)),
      store_outside (Or.inl before)]
  · obtain ⟨lane, rfl⟩ := Nat.exists_eq_add_of_le (Nat.not_lt.mp before)
    by_cases inFirst : lane < first.length
    · have kept : ((memory.store position first).store (position + first.length) second)
          (position + lane) = memory.store position first (position + lane) :=
        store_outside (Or.inl (by omega))
      rw [kept, store_lane _ _ inFirst, store_lane _ _ (by simp only [List.length_append]; omega),
        List.getElem_append_left inFirst]
    · obtain ⟨rest, rfl⟩ := Nat.exists_eq_add_of_le (Nat.not_lt.mp inFirst)
      by_cases inSecond : rest < second.length
      · rw [← Nat.add_assoc, store_lane _ _ inSecond, Nat.add_assoc,
          store_lane _ _ (by simp only [List.length_append]; omega),
          List.getElem_append_right (by omega)]
        simp only [Nat.add_sub_cancel_left]
      · rw [store_outside (Or.inr (by simp only [List.length_append]; omega)),
          store_outside (Or.inr (by omega)), store_outside (Or.inr (by omega))]

theorem store_last (memory : Memory) (position : Nat) (front : List UInt8) (value : UInt8) :
    memory.store position (front ++ [value]) (position + front.length) = value := by
  have inside : front.length < (front ++ [value]).length := by simp
  rw [store_lane memory position inside, List.getElem_concat_length rfl]

theorem load_store_middle (memory : Memory) (position : Nat) (first middle last : List UInt8) :
    (memory.store position (first ++ middle ++ last)).load (position + first.length) middle.length =
      middle := by
  rw [store_append, store_append, List.length_append,
    load_store_disjoint (Or.inl (Nat.le_of_eq (Nat.add_assoc _ _ _))), load_store_same]

theorem ofString_inside {behind : Memory} (bound : lane < bytes.length) :
    ofString bytes behind lane = bytes[lane] := by
  have inside : lane < (bytes ++ [0]).length := by simp only [List.length_append]; omega
  have stored := store_lane behind 0 inside
  rw [Nat.zero_add, List.getElem_append_left bound] at stored
  exact stored

theorem load_ofString {behind : Memory} (inside : position + count ≤ bytes.length) :
    (ofString bytes behind).load position count = (bytes.drop position).take count := by
  apply List.ext_getElem?
  intro lane
  by_cases bound : lane < count
  · rw [load_lane _ _ bound, ofString_inside (by omega), List.getElem?_take_of_lt bound,
      List.getElem?_drop, List.getElem?_eq_getElem]
  · rw [List.getElem?_eq_none (by simp only [load_length]; omega), List.getElem?_eq_none]
    simp only [List.length_take, List.length_drop]
    omega

@[simp] theorem ofString_terminator {behind : Memory} : ofString bytes behind bytes.length = 0 := by
  have inside : bytes.length < (bytes ++ [0]).length := by simp
  have stored := store_lane behind 0 inside
  rw [Nat.zero_add] at stored
  simpa [ofString] using stored

theorem ofString_behind {behind : Memory} (beyond : bytes.length < address) :
    ofString bytes behind address = behind address :=
  store_outside (Or.inr (by simp only [List.length_append, List.length_singleton]; omega))

/-- Sending a window of memory as a string and reading a part of it at the
other end gives the bytes the sender held. -/
theorem load_ofString_load {behind : Memory} {length : Nat} (inside : position + count ≤ length) :
    (ofString (memory.load 0 length) behind).load position count = memory.load position count := by
  apply load_congr
  intro address _ upper
  rw [ofString_inside (by simp only [load_length]; omega)]
  simp [load]

end Memory

/-! Little-endian words. -/

namespace LittleEndian

def encode : (width value : Nat) → List UInt8
  | 0, _ => []
  | width + 1, value => UInt8.ofNat value :: encode width (value / 256)

def decode (bytes : List UInt8) : Nat :=
  Nat.ofDigits 256 (bytes.map UInt8.toNat)

@[simp] theorem encode_length (width value : Nat) : (encode width value).length = width := by
  induction width generalizing value with
  | zero => rfl
  | succ width ih => simp [encode, ih]

@[simp] theorem decode_nil : decode [] = 0 := rfl

@[simp] theorem decode_cons (byte : UInt8) (bytes : List UInt8) :
    decode (byte :: bytes) = byte.toNat + 256 * decode bytes := by
  simp [decode, Nat.ofDigits_cons]

theorem decode_append (first second : List UInt8) :
    decode (first ++ second) = decode first + 256 ^ first.length * decode second := by
  simp [decode, Nat.ofDigits_append]

theorem decode_lt (bytes : List UInt8) : decode bytes < 256 ^ bytes.length := by
  have digits : ∀ digit ∈ bytes.map UInt8.toNat, digit < 256 := by
    intro digit member
    obtain ⟨byte, _, rfl⟩ := List.mem_map.mp member
    exact byte.toNat_lt
  simpa [decode] using Nat.ofDigits_lt_base_pow_length (by decide) digits

theorem decode_encode (width value : Nat) : decode (encode width value) = value % 256 ^ width := by
  induction width generalizing value with
  | zero => simp [encode, Nat.mod_one]
  | succ width ih =>
      simp only [encode, decode_cons, ih, UInt8.toNat_ofNat', Nat.reducePow]
      rw [Nat.pow_succ, Nat.mul_comm (256 ^ width), Nat.mod_mul]

theorem encode_eq_iff {width value other : Nat} (bound : value < 256 ^ width)
    (otherBound : other < 256 ^ width) :
    encode width value = encode width other ↔ value = other := by
  refine ⟨?_, fun same => by rw [same]⟩
  intro same
  have decoded := congrArg decode same
  rwa [decode_encode, decode_encode, Nat.mod_eq_of_lt bound, Nat.mod_eq_of_lt otherBound] at decoded

theorem encode_decode (bytes : List UInt8) : encode bytes.length (decode bytes) = bytes := by
  induction bytes with
  | nil => rfl
  | cons byte bytes ih =>
      have quotient : (byte.toNat + 256 * decode bytes) / 256 = decode bytes := by
        have bound := byte.toNat_lt
        omega
      have digit : UInt8.ofNat (byte.toNat + 256 * decode bytes) = byte := by
        apply UInt8.toNat_inj.mp
        have bound := byte.toNat_lt
        simp only [UInt8.toNat_ofNat', Nat.reducePow]
        omega
      rw [List.length_cons, decode_cons, encode, quotient, ih, digit]

end LittleEndian

/-! The fixed-width words that typed pointers move. -/

namespace Memory

def load16 (memory : Memory) (position : Nat) : UInt16 :=
  UInt16.ofNat (LittleEndian.decode (memory.load position 2))

def load32 (memory : Memory) (position : Nat) : UInt32 :=
  UInt32.ofNat (LittleEndian.decode (memory.load position 4))

def load64 (memory : Memory) (position : Nat) : UInt64 :=
  UInt64.ofNat (LittleEndian.decode (memory.load position 8))

def store8 (memory : Memory) (position : Nat) (value : UInt8) : Memory :=
  memory.store position [value]

def store16 (memory : Memory) (position : Nat) (value : UInt16) : Memory :=
  memory.store position (LittleEndian.encode 2 value.toNat)

def store32 (memory : Memory) (position : Nat) (value : UInt32) : Memory :=
  memory.store position (LittleEndian.encode 4 value.toNat)

def store64 (memory : Memory) (position : Nat) (value : UInt64) : Memory :=
  memory.store position (LittleEndian.encode 8 value.toNat)

variable {memory : Memory} {position start : Nat} {bytes : List UInt8}

theorem decode_load_lt (memory : Memory) (position count : Nat) :
    LittleEndian.decode (memory.load position count) < 256 ^ count := by
  simpa using LittleEndian.decode_lt (memory.load position count)

theorem encode_decode_load (memory : Memory) (position count : Nat) :
    LittleEndian.encode count (LittleEndian.decode (memory.load position count)) =
      memory.load position count := by
  simpa using LittleEndian.encode_decode (memory.load position count)

theorem load64_toNat (memory : Memory) (position : Nat) :
    (memory.load64 position).toNat = LittleEndian.decode (memory.load position 8) :=
  UInt64.toNat_ofNat_of_lt' (decode_load_lt memory position 8)

theorem load64_split (memory : Memory) (position : Nat) :
    (memory.load64 position).toNat =
      LittleEndian.decode (memory.load position 4) +
        2 ^ 32 * LittleEndian.decode (memory.load (position + 4) 4) := by
  rw [load64_toNat, load_add memory position 4 4, LittleEndian.decode_append, load_length,
    show 256 ^ 4 = 2 ^ 32 by decide]

theorem decode_load_store {count value : Nat} (bound : value < 256 ^ count) :
    LittleEndian.decode ((memory.store position (LittleEndian.encode count value)).load position count) =
      value := by
  rw [load_store_of_length (LittleEndian.encode_length _ _), LittleEndian.decode_encode,
    Nat.mod_eq_of_lt bound]

@[simp] theorem load16_store16 (value : UInt16) :
    (memory.store16 position value).load16 position = value := by
  rw [load16, store16, decode_load_store value.toNat_lt, UInt16.ofNat_toNat]

@[simp] theorem load32_store32 (value : UInt32) :
    (memory.store32 position value).load32 position = value := by
  rw [load32, store32, decode_load_store value.toNat_lt, UInt32.ofNat_toNat]

@[simp] theorem load64_store64 (value : UInt64) :
    (memory.store64 position value).load64 position = value := by
  rw [load64, store64, decode_load_store value.toNat_lt, UInt64.ofNat_toNat]

theorem load32_store_middle (memory : Memory) {first last : List UInt8} {value : UInt32}
    (length : first.length = position) :
    (memory.store 0 (first ++ LittleEndian.encode 4 value.toNat ++ last)).load32 position = value := by
  have loaded := load_store_middle memory 0 first (LittleEndian.encode 4 value.toNat) last
  have small : value.toNat < 256 ^ 4 := value.toNat_lt
  rw [Nat.zero_add, LittleEndian.encode_length, length] at loaded
  rw [load32, loaded, LittleEndian.decode_encode, Nat.mod_eq_of_lt small, UInt32.ofNat_toNat]

/-- The bytes of a loaded word are the bytes it was loaded from. -/
theorem encode_load16 (memory : Memory) (position : Nat) :
    LittleEndian.encode 2 (memory.load16 position).toNat = memory.load position 2 := by
  rw [load16, UInt16.toNat_ofNat_of_lt' (decode_load_lt memory position 2), encode_decode_load]

theorem encode_load32 (memory : Memory) (position : Nat) :
    LittleEndian.encode 4 (memory.load32 position).toNat = memory.load position 4 := by
  rw [load32, UInt32.toNat_ofNat_of_lt' (decode_load_lt memory position 4), encode_decode_load]

theorem encode_load64 (memory : Memory) (position : Nat) :
    LittleEndian.encode 8 (memory.load64 position).toNat = memory.load position 8 := by
  rw [load64_toNat, encode_decode_load]

theorem store16_load16 (source : Memory) :
    memory.store16 position (source.load16 start) = memory.store position (source.load start 2) := by
  rw [store16, encode_load16]

theorem store32_load32 (source : Memory) :
    memory.store32 position (source.load32 start) = memory.store position (source.load start 4) := by
  rw [store32, encode_load32]

theorem store64_load64 (source : Memory) :
    memory.store64 position (source.load64 start) = memory.store position (source.load start 8) := by
  rw [store64, encode_load64]

theorem store8_outside {value : UInt8} {address : Nat} (outside : address ≠ position) :
    memory.store8 position value address = memory address :=
  store_outside (by simp only [List.length_singleton]; omega)

@[simp] theorem store8_same {value : UInt8} : memory.store8 position value position = value :=
  store_lane memory position (show 0 < [value].length by simp)

theorem store16_outside {value : UInt16} {address : Nat}
    (outside : address < position ∨ position + 2 ≤ address) :
    memory.store16 position value address = memory address :=
  store_outside (by simpa using outside)

theorem store32_outside {value : UInt32} {address : Nat}
    (outside : address < position ∨ position + 4 ≤ address) :
    memory.store32 position value address = memory address :=
  store_outside (by simpa using outside)

theorem store64_outside {value : UInt64} {address : Nat}
    (outside : address < position ∨ position + 8 ≤ address) :
    memory.store64 position value address = memory address :=
  store_outside (by simpa using outside)

theorem load16_congr {other : Memory}
    (agree : ∀ address, position ≤ address → address < position + 2 → memory address = other address) :
    memory.load16 position = other.load16 position := by
  rw [load16, load16, load_congr agree]

theorem load32_congr {other : Memory}
    (agree : ∀ address, position ≤ address → address < position + 4 → memory address = other address) :
    memory.load32 position = other.load32 position := by
  rw [load32, load32, load_congr agree]

theorem load_store32_disjoint {value : UInt32} {count : Nat}
    (disjoint : start + count ≤ position ∨ position + 4 ≤ start) :
    (memory.store32 position value).load start count = memory.load start count :=
  load_congr fun _ _ _ => store32_outside (by omega)

/-- A word determines the bytes it was read from. -/
theorem load16_eq_iff {other : Memory} :
    memory.load16 position = other.load16 start ↔ memory.load position 2 = other.load start 2 := by
  refine ⟨?_, fun same => by rw [load16, load16, same]⟩
  intro same
  rw [← encode_load16 memory, same, encode_load16]

theorem load32_eq_iff {other : Memory} :
    memory.load32 position = other.load32 start ↔ memory.load position 4 = other.load start 4 := by
  refine ⟨?_, fun same => by rw [load32, load32, same]⟩
  intro same
  rw [← encode_load32 memory, same, encode_load32]

theorem load32_store32_disjoint {value : UInt32}
    (disjoint : start + 4 ≤ position ∨ position + 4 ≤ start) :
    (memory.store32 position value).load32 start = memory.load32 start :=
  load32_congr fun _ _ _ => store32_outside (by omega)

theorem load32_ofString {behind : Memory} {length : Nat} (inside : position + 4 ≤ length) :
    (ofString (memory.load 0 length) behind).load32 position = memory.load32 position := by
  rw [load32, load_ofString_load inside, load32]

theorem load64_congr {other : Memory}
    (agree : ∀ address, position ≤ address → address < position + 8 → memory address = other address) :
    memory.load64 position = other.load64 position := by
  rw [load64, load64, load_congr agree]

end Memory

end Sentinet.Data
