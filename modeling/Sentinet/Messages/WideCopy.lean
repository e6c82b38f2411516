import Sentinet.Messages.Buffer

namespace Sentinet.Messages

open Sentinet.Data

/-! The default branches against a plain byte copy.  Their long loop counts in
fours while it moves eight bytes, so it overshoots the payload whenever it runs
at all. -/

theorem smallMask (value : Nat) : value &&& 0xFFFFFFFC = value % 2 ^ 32 / 4 * 4 := by
  have mask : 0xFFFFFFFC = (2 ^ 30 - 1) <<< 2 := by decide
  have quotient : value % 2 ^ 32 / 4 * 4 = (value % 2 ^ 32) >>> 2 <<< 2 := by
    simp [Nat.shiftRight_eq_div_pow, Nat.shiftLeft_eq]
  rw [mask, quotient]
  apply Nat.eq_of_testBit_eq
  intro bit
  simp only [Nat.testBit_and, Nat.testBit_shiftLeft, Nat.testBit_shiftRight,
    Nat.testBit_two_pow_sub_one, Nat.testBit_mod_two_pow]
  by_cases low : 2 ≤ bit
  · have shifted : 2 + (bit - 2) = bit := by omega
    by_cases inside : bit < 32
    · simp [low, inside, shifted, show bit - 2 < 30 by omega]
    · simp [low, inside, shifted, show ¬ bit - 2 < 30 by omega]
  · simp [low]

/-- Only the first four of the eight bytes decide the test. -/
theorem smallLong_iff (memory : Memory) (position : Nat) :
    smallLong (memory.load64 position) = true ↔
      LittleEndian.decode (memory.load position 4) < 4 := by
  have low : LittleEndian.decode (memory.load position 4) < 2 ^ 32 :=
    Memory.decode_load_lt memory position 4
  have masked : (memory.load64 position &&& 0xFFFFFFFC).toNat =
      LittleEndian.decode (memory.load position 4) / 4 * 4 := by
    rw [UInt64.toNat_and, Memory.load64_split, show UInt64.toNat 0xFFFFFFFC = 0xFFFFFFFC from rfl,
      smallMask, Nat.add_mul_mod_self_left, Nat.mod_eq_of_lt low]
  rw [smallLong, beq_iff_eq, ← UInt64.toNat_inj, masked, UInt64.toNat_zero]
  omega

theorem copyCount_short {longs : Bool} {numBytes : Nat} (short : numBytes < 4 ∨ longs = false) :
    copyCount longs numBytes = numBytes := by
  rcases short with few | never
  · unfold copyCount
    split <;> omega
  · simp [copyCount, never]

theorem copyCount_long {numBytes : Nat} (many : 4 ≤ numBytes) : numBytes < copyCount true numBytes := by
  simp only [copyCount, if_true]
  omega

/-- What a plain copy would make of an accepted payload, whatever follows it in
memory. -/
structure AppendsExactly (buffer : DataBuffer) (typeCode : TypeCode) (payload : List UInt8) :
    Prop where
  appended : ∀ behind : Memory,
    (serializeData buffer (some (behind.store 0 payload)) (UInt8.ofNat payload.length)
        typeCode).data.load buffer.byteLength.toNat (payload.length + 3) =
      UInt8.ofNat payload.length :: typeCode :: (payload ++ [0])
  untouched : ∀ (behind : Memory) (address : Nat),
    (serializeData buffer (some (behind.store 0 payload)) (UInt8.ofNat payload.length)
      typeCode).byteLength.toNat ≤ address →
    (serializeData buffer (some (behind.store 0 payload)) (UInt8.ofNat payload.length)
      typeCode).data address = buffer.data address
  independent : ∀ behind other : Memory,
    (serializeData buffer (some (behind.store 0 payload)) (UInt8.ofNat payload.length) typeCode).data =
      (serializeData buffer (some (other.store 0 payload)) (UInt8.ofNat payload.length) typeCode).data

/-- The long loop stays out of an append: a short payload, or bits of the mask
in its first four bytes or in the four bytes the buffer holds there. -/
def AppendsByBytes (buffer : DataBuffer) (payload : List UInt8) : Prop :=
  payload.length < 4 ∨ 3 < LittleEndian.decode (payload.take 4) ∨
    3 < LittleEndian.decode (buffer.data.load (buffer.byteLength.toNat + 2) 4)

section Append

variable {buffer : DataBuffer} {typeCode : TypeCode} {payload : List UInt8}

theorem source_load {behind : Memory} : (behind.store 0 payload).load 0 payload.length = payload :=
  Memory.load_store_same

theorem source_front {behind : Memory} (long : 4 ≤ payload.length) :
    (behind.store 0 payload).load 0 4 = payload.take 4 := by
  rw [← Memory.load_take _ _ long, source_load]

theorem takesLongs_append (buffer : DataBuffer) (behind : Memory) (long : 4 ≤ payload.length) :
    takesLongs (behind.store 0 payload) 0 buffer.data (buffer.byteLength.toNat + 2) = true ↔
      ¬ AppendsByBytes buffer payload := by
  rw [takesLongs, Bool.and_eq_true, smallLong_iff, smallLong_iff, source_front long, AppendsByBytes]
  omega

theorem serializeData_byBytes (default : fixedWidth typeCode = none) (small : payload.length < 256)
    (room : buffer.hasRoom (UInt8.ofNat payload.length) = true)
    (byBytes : AppendsByBytes buffer payload) (behind : Memory) :
    (serializeData buffer (some (behind.store 0 payload)) (UInt8.ofNat payload.length) typeCode).data =
      buffer.data.store buffer.byteLength.toNat
        (UInt8.ofNat payload.length :: typeCode :: (payload ++ [0])) := by
  have count : copyCount (takesLongs (behind.store 0 payload) 0 buffer.data
      (buffer.byteLength.toNat + 2)) payload.length = payload.length := by
    by_cases long : 4 ≤ payload.length
    · apply copyCount_short
      right
      rw [← Bool.not_eq_true, takesLongs_append buffer behind long, not_not]
      exact byBytes
    · exact copyCount_short (Or.inl (by omega))
  simp only [serializeData_accepted room, appendedBytes, movedCount_default default,
    UInt8.toNat_ofNat_of_lt' small, count, source_load]

/-- With it, the byte after the payload in memory lands where the terminator
belongs. -/
theorem serializeData_byLongs (default : fixedWidth typeCode = none) (small : payload.length < 256)
    (room : buffer.hasRoom (UInt8.ofNat payload.length) = true)
    (byLongs : ¬ AppendsByBytes buffer payload) (behind : Memory) :
    (serializeData buffer (some (behind.store 0 payload)) (UInt8.ofNat payload.length) typeCode).data
      (buffer.byteLength.toNat + (payload.length + 2)) = behind payload.length := by
  have long : 4 ≤ payload.length := by
    simp only [AppendsByBytes, not_or, Nat.not_lt] at byLongs
    exact byLongs.1
  have taken := (takesLongs_append buffer behind long).mpr byLongs
  have more := copyCount_long long
  simp only [serializeData_accepted room, appendedBytes, movedCount_default default,
    UInt8.toNat_ofNat_of_lt' small, taken]
  rw [Memory.store_lane _ _ (by
    simp only [List.length_cons, List.length_append, Memory.load_length]; omega)]
  simp only [List.getElem_cons_succ]
  rw [List.getElem_append_left (by simpa using more)]
  simp only [Memory.load, List.getElem_map, List.getElem_range, Nat.zero_add]
  exact Memory.store_outside (Or.inr (by omega))

theorem appendsExactly_iff (bounded : buffer.byteLength.toNat < messageSize)
    (default : fixedWidth typeCode = none) (small : payload.length < 256)
    (room : buffer.hasRoom (UInt8.ofNat payload.length) = true) :
    AppendsExactly buffer typeCode payload ↔ AppendsByBytes buffer payload := by
  constructor
  · intro appends
    by_contra byLongs
    -- a nonzero byte behind the payload would have to be the terminator
    have spilled := serializeData_byLongs default small room byLongs (fun _ => 1)
    have last : payload.length + 2 <
        (UInt8.ofNat payload.length :: typeCode :: (payload ++ [0])).length := by simp
    have terminator := Memory.apply_of_load (by simpa using appends.appended fun _ => 1) last
    rw [spilled] at terminator
    simp at terminator
  · intro byBytes
    have stored := serializeData_byBytes default small room byBytes
    have length : (UInt8.ofNat payload.length :: typeCode :: (payload ++ [0])).length =
        payload.length + 3 := by simp
    have advanced := byteLength_accepted bounded room
    rw [UInt8.toNat_ofNat_of_lt' small] at advanced
    constructor
    case appended =>
      intro behind
      rw [stored, Memory.load_store_of_length length]
    case untouched =>
      intro behind address beyond
      rw [serializeData_accepted room] at beyond
      simp only [advanced] at beyond
      rw [stored, Memory.store_outside (Or.inr (by rw [length]; omega))]
    case independent =>
      intro behind other
      rw [stored, stored]

end Append

/-- What a plain copy would do with the element at an index, whatever the
destination held. -/
def FetchesExactly (memory : Memory) (index : Nat) (element : Element) : Prop :=
  ∀ destination : Memory, ∃ after,
    getData (some memory) (some destination) index = .ok (element, after) ∧
    after.load 0 element.size.toNat = memory.load element.data element.size.toNat ∧
    ∀ address, element.size.toNat ≤ address → after address = destination address

/-- Into a destination that begins with four zero bytes the long loop copies a
payload of such bytes, and a byte behind it that differs there. -/
theorem getDefault_overruns {source : Memory} {position size : Nat} (wide : 4 ≤ size)
    (zeros : LittleEndian.decode (source.load position 4) ≤ 3) :
    ∃ destination : Memory, destination.store 0 (source.load position
      (copyCount (takesLongs source position destination 0) size)) size ≠ destination size := by
  -- the bytes behind the first four all differ from what the loop moves there
  let destination : Memory := fun address =>
    if address < 4 then 0 else source (position + address) + 1
  have first : destination.load 0 4 = List.replicate 4 0 :=
    Memory.load_constant fun address _ upper => if_pos upper
  have taken : takesLongs source position destination 0 = true := by
    rw [takesLongs, Bool.and_eq_true, smallLong_iff, smallLong_iff, first]
    exact ⟨by omega, by decide⟩
  refine ⟨destination, fun kept => ?_⟩
  have beyond : size < (source.load position (copyCount true size)).length := by
    simpa using copyCount_long wide
  have moved := Memory.store_lane destination 0 beyond
  rw [taken] at kept
  rw [Nat.zero_add, kept] at moved
  simp only [Memory.load, List.getElem_map, List.getElem_range, destination,
    if_neg (Nat.not_lt.mpr wide)] at moved
  have same := congrArg UInt8.toNat moved
  simp only [UInt8.toNat_add, UInt8.reduceToNat] at same
  omega

theorem copyCount_narrow {source : Memory} {position size : Nat} (destination : Memory)
    (narrow : size < 4 ∨ 3 < LittleEndian.decode (source.load position 4)) :
    copyCount (takesLongs source position destination 0) size = size := by
  apply copyCount_short
  rcases narrow with few | large
  · exact Or.inl few
  · right
    rw [← Bool.not_eq_true, takesLongs, Bool.and_eq_true, smallLong_iff]
    omega

theorem fetchesExactly_iff {memory : Memory} {index : Nat} {element : Element}
    (found : ∃ destination after, getData (some memory) (some destination) index = .ok (element, after))
    (default : fixedWidth element.typeCode = none) :
    FetchesExactly memory index element ↔
      element.size.toNat < 4 ∨ 3 < LittleEndian.decode (memory.load element.data 4) := by
  obtain ⟨probe, written, found⟩ := found
  have located : locate memory index = .ok element := by
    rw [getData_eq] at found
    cases result : locate memory index with
    | error error => simp [result, Except.map] at found
    | ok other =>
        simp only [result, Except.map, Except.ok.injEq, Prod.mk.injEq] at found
        rw [found.1]
  have fetched (destination : Memory) := getData_eq memory destination index
  simp only [located, Except.map, movedCount_default default] at fetched
  constructor
  · intro exact
    by_contra wide
    simp only [not_or, Nat.not_lt] at wide
    obtain ⟨destination, overrun⟩ := getDefault_overruns wide.1 wide.2
    obtain ⟨after, result, -, untouched⟩ := exact destination
    rw [fetched, Except.ok.injEq, Prod.mk.injEq] at result
    have kept := untouched element.size.toNat (Nat.le_refl _)
    rw [← result.2] at kept
    exact overrun kept
  · intro narrow destination
    have count := copyCount_narrow destination narrow
    refine ⟨_, fetched destination, ?_, ?_⟩
    · rw [count, Memory.load_store_of_length Memory.load_length]
    · intro address beyond
      exact Memory.store_outside (Or.inr (by simpa [count] using beyond))

/-- Both default branches copy exactly their payload if and only if the long
loop cannot run: for every payload that a reachable buffer has room for, and for
every element that is stored in a message. -/
theorem defaultCopy_exact_iff (calls : List BufferCall) (typeCode : TypeCode)
    (payload : List UInt8) (memory : Memory) (index : Nat) (element : Element) :
    (fixedWidth typeCode = none → payload.length < 256 →
      (Run.final BufferCall.apply createBuffer calls).hasRoom (UInt8.ofNat payload.length) = true →
      (AppendsExactly (Run.final BufferCall.apply createBuffer calls) typeCode payload ↔
        AppendsByBytes (Run.final BufferCall.apply createBuffer calls) payload)) ∧
    ((∃ destination after,
        getData (some memory) (some destination) index = .ok (element, after)) →
      fixedWidth element.typeCode = none →
      (FetchesExactly memory index element ↔
        element.size.toNat < 4 ∨ 3 < LittleEndian.decode (memory.load element.data 4))) :=
  ⟨fun default small room => appendsExactly_iff (run_bounded calls) default small room,
    fun found default => fetchesExactly_iff found default⟩

theorem defaultCopy_exact_large :
    AppendsExactly (Run.final BufferCall.apply createBuffer []) TypeCode.uint64
        [0, 1, 0, 0, 0, 0, 0, 0] ∧
      FetchesExactly
        (toWire (serializeData createBuffer (some fun lane => if lane = 1 then 1 else 0) 8
          TypeCode.uint64)).data 0 { size := 8, typeCode := TypeCode.uint64, data := 15 } := by
  obtain ⟨appends, fetches⟩ := defaultCopy_exact_iff [] TypeCode.uint64 [0, 1, 0, 0, 0, 0, 0, 0]
    (toWire (serializeData createBuffer (some fun lane => if lane = 1 then 1 else 0) 8
      TypeCode.uint64)).data 0 { size := 8, typeCode := TypeCode.uint64, data := 15 }
  exact ⟨(appends (by decide) (by decide) (by decide)).mpr (Or.inr (Or.inl (by decide))),
    (fetches ⟨fun _ => 1, _, rfl⟩ (by decide)).mpr (Or.inr (by decide))⟩

theorem defaultCopy_spills :
    ¬ AppendsExactly createBuffer TypeCode.uint64 [1, 0, 0, 0, 0, 0, 0, 0] ∧
      ¬ FetchesExactly
        (toWire (serializeData createBuffer (some fun lane => if lane = 0 then 1 else 0) 8
          TypeCode.uint64)).data 0 { size := 8, typeCode := TypeCode.uint64, data := 15 } := by
  constructor
  · intro appends
    exact absurd (appends.appended fun _ => 0xEE) (by decide)
  · intro fetches
    obtain ⟨after, result, -, untouched⟩ := fetches fun address => if address < 8 then 0 else 0xEE
    have kept := untouched 8 (by decide)
    have spilled : (getData
        (some (toWire (serializeData createBuffer (some fun lane => if lane = 0 then 1 else 0) 8
          TypeCode.uint64)).data)
        (some fun address => if address < 8 then 0 else 0xEE) 0).map (·.2 8) = .ok 0 := by decide
    rw [result] at spilled
    simp [Except.map] at spilled kept
    rw [spilled] at kept
    exact absurd kept (by decide)

end Sentinet.Messages
