import Sentinet.Kernel.SerialRead

namespace Sentinet.Kernel

open Sentinet.Data

/-! `serialport_read_until`, with the array `b` that its exit test may see before
any byte was read into it, the `int` that counts the bytes, and the positions it writes. -/

/-- `INT_MAX` -/
def intMax : Nat := 2147483647

/-- A `char` as the `int` that a comparison makes of it; `char` is signed. -/
def signedChar (value : UInt8) : Int :=
  if value.toNat < 128 then value.toNat else (value.toNat : Int) - 256

/-- `stat` is `none` once the `int` has overflowed. -/
structure ReadUntil where
  stat : Option Int
  buf : Memory
  writes : List Nat
  port : SerialPort

namespace ReadUntil

def wrote (position : Nat) (read : ReadUntil) : ReadUntil :=
  { read with writes := position :: read.writes }

/-- `buf[i] = 0; return i + 1;` -/
def terminated (i : Nat) (port : SerialPort) (buf : Memory) : ReadUntil :=
  { stat := if i = intMax then none else some ((i : Int) + 1)
    buf := buf.store8 i 0, writes := [i], port }

end ReadUntil

/-- The exit test of the loop. -/
def ReadsOn (untilByte : UInt8) (bufMax : Nat) (b : UInt8) (i : Nat) (timeout : Int) : Prop :=
  signedChar b ≠ (untilByte.toNat : Int) ∧ i < bufMax ∧ timeout > 0

instance (untilByte : UInt8) (bufMax : Nat) (b : UInt8) (i : Nat) (timeout : Int) :
    Decidable (ReadsOn untilByte bufMax b i timeout) :=
  inferInstanceAs (Decidable (_ ∧ _ ∧ _))

theorem SerialPort.read_shrinks {port later : SerialPort} {value : UInt8}
    (found : port.read = (.byte value, later)) : port.output = value :: later.output := by
  obtain ⟨front, rest, output, ready, byte⟩ | empty | failed := port.read_cases
  · rw [byte] at found
    cases found
    exact output
  · simp [empty] at found
  · simp [failed] at found

theorem SerialPort.read_keeps {port later : SerialPort} (found : port.read = (.empty, later)) :
    later.output = port.output := by
  obtain ⟨front, rest, output, ready, byte⟩ | empty | failed := port.read_cases
  · simp [byte] at found
  · rw [empty] at found
    cases found
    rfl
  · simp [failed] at found

/-- The loop, from a turn that begins with the last byte read in `b`. -/
def serialportReadUntilFrom (untilByte : UInt8) (bufMax : Nat) (b : UInt8) (i : Nat)
    (timeout : Int) (port : SerialPort) (buf : Memory) : ReadUntil :=
  match found : port.read with
  | (.failed, later) => { stat := some (-1), buf, writes := [], port := later }
  | (.empty, later) =>
      if timeout - 1 = 0 then { stat := some (-2), buf, writes := [], port := later }
      else if again : ReadsOn untilByte bufMax b i (timeout - 1) then
        serialportReadUntilFrom untilByte bufMax b i (timeout - 1) later buf
      else .terminated i later buf
  | (.byte value, later) =>
      let buf := buf.store8 i value
      if i = intMax then { stat := none, buf, writes := [i], port := later }
      else if ReadsOn untilByte bufMax value (i + 1) timeout then
        (serialportReadUntilFrom untilByte bufMax value (i + 1) timeout later buf).wrote i
      else (ReadUntil.terminated (i + 1) later buf).wrote i
termination_by port.output.length + timeout.toNat
decreasing_by
  · have kept := SerialPort.read_keeps found
    have positive := again.2.2
    rw [kept]
    omega
  · rw [SerialPort.read_shrinks found, List.length_cons]
    omega

/-- `b` is what the uninitialised array holds. -/
def serialportReadUntil (port : SerialPort) (buf : Memory) (untilByte : UInt8) (bufMax : Nat)
    (timeout : Int) (b : UInt8) : ReadUntil :=
  serialportReadUntilFrom untilByte bufMax b 0 timeout port buf

/-- The bytes that the device delivers before it fails or leaves the reader
without a try. -/
def SerialPort.bytesWithin (port : SerialPort) (timeout : Int) : List UInt8 :=
  match found : port.read with
  | (.failed, _) => []
  | (.empty, later) => if timeout ≤ 1 then [] else later.bytesWithin (timeout - 1)
  | (.byte value, later) => value :: later.bytesWithin timeout
termination_by port.output.length + timeout.toNat
decreasing_by
  · rw [SerialPort.read_keeps found]
    omega
  · rw [SerialPort.read_shrinks found, List.length_cons]
    omega

/-- What a result `r` that counts as success promises: the buffer holds the bytes
delivered, up to the delimiter or as many as fit, and a zero behind them. -/
structure HoldsString (port : SerialPort) (untilByte : UInt8) (bufMax : Nat) (read : ReadUntil)
    (r : Int) (taken : List UInt8) : Prop where
  delivered : port.output = taken ++ read.port.output
  nonempty : taken ≠ []
  contents : read.buf.load 0 taken.length = taken
  counted : r = taken.length + 1
  terminated : read.buf taken.length = 0
  complete : taken.getLast? = some untilByte ∨ taken.length + 1 = bufMax
  first : untilByte ∉ taken.dropLast
  bounded : ∀ position ∈ read.writes, position < bufMax

def ReadsDelimited (port : SerialPort) (untilByte : UInt8) (bufMax : Nat) (read : ReadUntil) : Prop :=
  ∃ r, read.stat = some r ∧ (0 ≤ r → ∃ taken, HoldsString port untilByte bufMax read r taken)

/-- An empty read comes first, tries are left, and what happens to be in `b` passes
for the delimiter. -/
def EndsUnread (port : SerialPort) (untilByte : UInt8) (timeout : Int) (b : UInt8) : Prop :=
  port.read.1.attempt = .empty ∧ 1 < timeout ∧ b = untilByte ∧ untilByte < 128

section Loop

variable {port : SerialPort} {buf : Memory} {untilByte b : UInt8} {bufMax i : Nat} {timeout : Int}

theorem signedChar_eq_iff {value : UInt8} :
    signedChar value = (untilByte.toNat : Int) ↔ value = untilByte ∧ untilByte < 128 := by
  have range := value.toNat_lt
  have bound := untilByte.toNat_lt
  have half : (128 : UInt8).toNat = 128 := rfl
  rw [UInt8.lt_iff_toNat_lt, ← UInt8.toNat_inj, half, signedChar]
  split <;> omega

/-- How a loop ends, from `i` bytes on, by the bytes that the device goes on to deliver. -/
inductive LoopEnd (untilByte : UInt8) (bufMax i : Nat) (port : SerialPort) (buf : Memory)
    (bytes : List UInt8) (read : ReadUntil) : Prop
  | gaveUp (stat : read.stat = some (-1) ∨ read.stat = some (-2))
      (open_end : ¬(untilByte < 128 ∧ untilByte ∈ bytes))
      (room : i + bytes.length < bufMax) (counts : i + bytes.length ≤ intMax)
  | delimited (front rest : List UInt8) (bytes_eq : bytes = front ++ untilByte :: rest)
      (first : untilByte ∉ front) (ascii : untilByte < 128)
      (room : i + front.length + 1 < bufMax) (counts : i + front.length + 1 < intMax)
      (stat : read.stat = some ((i : Int) + front.length + 2))
      (contents : read.buf = (buf.store i (front ++ [untilByte])).store8 (i + front.length + 1) 0)
      (delivered : port.output = front ++ untilByte :: read.port.output)
      (bounded : ∀ position ∈ read.writes, position < bufMax)
  | spoiled (stat : read.stat = none ∨ (∃ r, read.stat = some r ∧ 0 ≤ r) ∧ bufMax ∈ read.writes)
      (late : ¬(untilByte < 128 ∧ untilByte ∈ bytes.take (min bufMax intMax - 1 - i)))
      (excess : (untilByte < 128 ∧ untilByte ∈ bytes) ∨ bufMax ≤ i + bytes.length ∨
        intMax < i + bytes.length)

theorem bytesWithin_failed {later : SerialPort} (found : port.read = (.failed, later)) :
    port.bytesWithin timeout = [] := by
  rw [SerialPort.bytesWithin]
  split <;> simp_all

theorem bytesWithin_empty {later : SerialPort} (found : port.read = (.empty, later)) :
    port.bytesWithin timeout = if timeout ≤ 1 then [] else later.bytesWithin (timeout - 1) := by
  rw [SerialPort.bytesWithin]
  split <;> simp_all

theorem bytesWithin_byte {later : SerialPort} {value : UInt8}
    (found : port.read = (.byte value, later)) :
    port.bytesWithin timeout = value :: later.bytesWithin timeout := by
  rw [SerialPort.bytesWithin]
  split <;> simp_all

theorem LoopEnd.of_output {later : SerialPort} {bytes : List UInt8} {read : ReadUntil}
    (same : later.output = port.output) (ends : LoopEnd untilByte bufMax i later buf bytes read) :
    LoopEnd untilByte bufMax i port buf bytes read := by
  cases ends with
  | gaveUp stat open_end room counts => exact .gaveUp stat open_end room counts
  | delimited front rest bytes_eq first ascii room counts stat contents delivered bounded =>
      exact .delimited front rest bytes_eq first ascii room counts stat contents
        (same.symm.trans delivered) bounded
  | spoiled stat late excess => exact .spoiled stat late excess

/-- One more byte, other than the delimiter, in front of the rest of the loop. -/
theorem LoopEnd.step {later : SerialPort} {value : UInt8} {bytes : List UInt8} {read : ReadUntil}
    (output : port.output = value :: later.output) (inside : i < bufMax)
    (other : ¬(value = untilByte ∧ untilByte < 128))
    (ends : LoopEnd untilByte bufMax (i + 1) later (buf.store8 i value) bytes read) :
    LoopEnd untilByte bufMax i port buf (value :: bytes) (read.wrote i) := by
  have skip {window : List UInt8} (open_end : ¬(untilByte < 128 ∧ untilByte ∈ window)) :
      ¬(untilByte < 128 ∧ untilByte ∈ value :: window) := by
    rintro ⟨ascii, member⟩
    rcases List.mem_cons.mp member with same | later
    · exact other ⟨same.symm, ascii⟩
    · exact open_end ⟨ascii, later⟩
  cases ends with
  | gaveUp stat open_end room counts =>
      exact .gaveUp stat (skip open_end) (by simp only [List.length_cons]; omega)
        (by simp only [List.length_cons]; omega)
  | delimited front rest bytes_eq first ascii room counts stat contents delivered bounded =>
      have longer : (value :: front).length = front.length + 1 := rfl
      refine .delimited (value :: front) rest (by rw [bytes_eq]; rfl) ?_ ascii (by omega) (by omega)
        ?_ ?_ (by rw [output, delivered]; rfl) ?_
      · intro member
        rcases List.mem_cons.mp member with same | later
        · exact other ⟨same.symm, ascii⟩
        · exact first later
      · rw [ReadUntil.wrote, stat, longer, Option.some.injEq]
        omega
      · have behind : i + (value :: front).length + 1 = i + 1 + front.length + 1 := by omega
        have joined := Memory.store_append buf i [value] (front ++ [untilByte])
        rw [List.singleton_append, ← List.cons_append] at joined
        rw [behind, joined]
        exact contents
      · intro position member
        rcases List.mem_cons.mp member with same | later
        · exact same ▸ inside
        · exact bounded position later
  | spoiled stat late excess =>
      refine .spoiled (stat.imp_right fun full => ⟨full.1, List.mem_cons_of_mem i full.2⟩) ?_ ?_
      · cases window : min bufMax intMax - 1 - i with
        | zero => simp
        | succ count =>
            have shorter : min bufMax intMax - 1 - (i + 1) = count := by omega
            rw [shorter] at late
            exact skip late
      · rcases excess with closed | full | many
        · exact Or.inl ⟨closed.1, List.mem_cons_of_mem value closed.2⟩
        · exact Or.inr (Or.inl (by simp only [List.length_cons]; omega))
        · exact Or.inr (Or.inr (by simp only [List.length_cons]; omega))

/-- The last byte of a loop that ends on its own test. -/
theorem LoopEnd.last {later : SerialPort} {value : UInt8} {bytes : List UInt8}
    (output : port.output = value :: later.output) (inside : i < bufMax) (counts : i < intMax)
    (ended : (value = untilByte ∧ untilByte < 128) ∨ i + 1 = bufMax) :
    LoopEnd untilByte bufMax i port buf (value :: bytes)
      ((ReadUntil.terminated (i + 1) later (buf.store8 i value)).wrote i) := by
  by_cases room : i + 1 < min bufMax intMax
  · obtain ⟨same, ascii⟩ := ended.resolve_right (by omega)
    subst same
    refine .delimited [] bytes rfl List.not_mem_nil ascii (by simp only [List.length_nil]; omega)
      (by simp only [List.length_nil]; omega) ?_ rfl output ?_
    · rw [ReadUntil.wrote, ReadUntil.terminated, if_neg (by omega), Option.some.injEq,
        List.length_nil]
      omega
    · intro position member
      simp only [ReadUntil.wrote, ReadUntil.terminated, List.mem_cons, List.not_mem_nil, or_false]
        at member
      omega
  · have window : min bufMax intMax - 1 - i = 0 := by omega
    refine .spoiled ?_ (by simp [window]) ?_
    · rw [ReadUntil.wrote, ReadUntil.terminated]
      by_cases overflow : i + 1 = intMax
      · exact Or.inl (if_pos overflow)
      · have full : bufMax = i + 1 := by omega
        exact Or.inr ⟨⟨_, if_neg overflow, by omega⟩, by simp [full]⟩
    · rcases ended with ⟨same, ascii⟩ | full
      · exact Or.inl ⟨ascii, same ▸ List.mem_cons_self⟩
      · exact Or.inr (Or.inl (by simp only [List.length_cons]; omega))

theorem serialportReadUntilFrom_end (positive : timeout > 0) (inside : i < bufMax)
    (counts : i ≤ intMax) (fresh : ¬EndsUnread port untilByte timeout b) :
    LoopEnd untilByte bufMax i port buf (port.bytesWithin timeout)
      (serialportReadUntilFrom untilByte bufMax b i timeout port buf) := by
  fun_induction serialportReadUntilFrom untilByte bufMax b i timeout port buf with
  | case1 b i timeout port buf later found =>
      rw [bytesWithin_failed found]
      exact .gaveUp (Or.inl rfl) (by simp) inside counts
  | case2 b i timeout port buf later found last =>
      rw [bytesWithin_empty found, if_pos (by omega)]
      exact .gaveUp (Or.inr rfl) (by simp) inside counts
  | case3 b i timeout port buf later found more again ih =>
      rw [bytesWithin_empty found, if_neg (by omega)]
      have other : ¬EndsUnread later untilByte (timeout - 1) b := by
        rintro ⟨_, _, same, ascii⟩
        exact again.1 (signedChar_eq_iff.mpr ⟨same, ascii⟩)
      exact (ih again.2.2 inside counts other).of_output (SerialPort.read_keeps found)
  | case4 b i timeout port buf later found more ended =>
      refine absurd ?_ fresh
      have same : signedChar b = (untilByte.toNat : Int) := by
        by_contra other
        exact ended ⟨other, inside, by omega⟩
      exact ⟨by rw [found]; rfl, by omega, signedChar_eq_iff.mp same⟩
  | case5 b timeout port buf value later found =>
      rw [bytesWithin_byte found]
      refine .spoiled (Or.inl rfl) ?_ (Or.inr (Or.inr (by simp only [List.length_cons]; omega)))
      have window : min bufMax intMax - 1 - intMax = 0 := by omega
      simp [window]
  | case6 b i timeout port buf value later found stored more again ih =>
      rw [bytesWithin_byte found]
      have other : ¬(value = untilByte ∧ untilByte < 128) :=
        fun same => again.1 (signedChar_eq_iff.mpr same)
      exact (ih positive again.2.1 (by omega) fun ends => other ends.2.2).step
        (SerialPort.read_shrinks found) inside other
  | case7 b i timeout port buf value later found stored more ended =>
      rw [bytesWithin_byte found]
      refine .last (SerialPort.read_shrinks found) inside (by omega) ?_
      by_cases full : i + 1 = bufMax
      · exact Or.inr full
      · have same : signedChar value = (untilByte.toNat : Int) := by
          by_contra other
          exact ended ⟨other, by omega, positive⟩
        exact Or.inl (signedChar_eq_iff.mp same)

/-- An empty read that the exit test takes for the delimiter returns an empty string. -/
theorem serialportReadUntil_unread (unread : EndsUnread port untilByte timeout b) :
    (serialportReadUntil port buf untilByte bufMax timeout b).stat = some 1 ∧
      (serialportReadUntil port buf untilByte bufMax timeout b).port.output = port.output := by
  obtain ⟨empty, tries, same, ascii⟩ := unread
  have closes := signedChar_eq_iff.mpr ⟨same, ascii⟩
  have ended : ¬ReadsOn untilByte bufMax b 0 (timeout - 1) := fun again => again.1 closes
  obtain ⟨later, found⟩ : ∃ later, port.read = (.empty, later) := by
    obtain ⟨value, rest, output, ready, byte⟩ | found | failed := port.read_cases
    · simp [byte, ReadByte.attempt] at empty
    · exact ⟨_, found⟩
    · simp [failed, ReadByte.attempt] at empty
  have result : serialportReadUntil port buf untilByte bufMax timeout b = .terminated 0 later buf := by
    rw [serialportReadUntil, serialportReadUntilFrom]
    split
    · simp_all
    · next read =>
        cases found.symm.trans read
        rw [if_neg (by omega), dif_neg ended]
    · simp_all
  rw [result]
  exact ⟨rfl, SerialPort.read_keeps found⟩

theorem holdsString_of_front {front : List UInt8} {read : ReadUntil}
    (first : untilByte ∉ front)
    (contents : read.buf = (buf.store 0 (front ++ [untilByte])).store8 (front.length + 1) 0)
    (delivered : port.output = front ++ untilByte :: read.port.output)
    (bounded : ∀ position ∈ read.writes, position < bufMax) :
    HoldsString port untilByte bufMax read ((front.length : Int) + 2) (front ++ [untilByte]) where
  delivered := by rw [delivered, List.append_assoc, List.singleton_append]
  nonempty := by simp
  contents := by
    have length : (front ++ [untilByte]).length = front.length + 1 := by simp
    rw [contents, Memory.store8, Memory.load_store_disjoint (Or.inl (by omega)),
      Memory.load_store_same]
  counted := by
    simp only [List.length_append, List.length_singleton]
    omega
  terminated := by simp [contents]
  complete := Or.inl (by simp)
  first := by simpa using first
  bounded := bounded

/-- What a loop delivers is right exactly where its bytes end it in time, or none of
them ends it and all fit. -/
theorem LoopEnd.readsDelimited_iff {bytes : List UInt8} {read : ReadUntil}
    (ends : LoopEnd untilByte bufMax 0 port buf bytes read) :
    ReadsDelimited port untilByte bufMax read ↔
      (untilByte < 128 ∧ untilByte ∈ bytes.take (min bufMax intMax - 1)) ∨
        (¬(untilByte < 128 ∧ untilByte ∈ bytes) ∧ bytes.length < bufMax ∧ bytes.length ≤ intMax) := by
  cases ends with
  | gaveUp stat open_end inside counts =>
      rw [Nat.zero_add] at inside counts
      refine ⟨fun _ => Or.inr ⟨open_end, inside, counts⟩, fun _ => ?_⟩
      rcases stat with failed | exhausted
      · exact ⟨-1, failed, fun success => absurd success (by decide)⟩
      · exact ⟨-2, exhausted, fun success => absurd success (by decide)⟩
  | delimited front rest bytes_eq first ascii inside counts stat contents delivered bounded =>
      rw [Nat.zero_add] at inside counts contents
      constructor
      · intro _
        refine Or.inl ⟨ascii, ?_⟩
        have window : min bufMax intMax - 1 =
            front.length + 1 + (min bufMax intMax - 2 - front.length) := by omega
        rw [bytes_eq, window, List.take_add, List.mem_append]
        exact Or.inl (by simp [List.take_append])
      · intro _
        have success : read.stat = some ((front.length : Int) + 2) := by simpa using stat
        exact ⟨_, success, fun _ => ⟨_, holdsString_of_front first contents delivered bounded⟩⟩
  | spoiled stat late excess =>
      constructor
      · rintro ⟨r, result, holds⟩
        rcases stat with overflow | ⟨⟨r', success, nonneg⟩, outside⟩
        · rw [overflow] at result
          cases result
        · rw [success] at result
          cases result
          obtain ⟨taken, string⟩ := holds nonneg
          exact absurd (string.bounded bufMax outside) (Nat.lt_irrefl _)
      · rintro (early | ⟨open_end, inside, counts⟩)
        · exact absurd early late
        · rcases excess with closed | full | many
          · exact absurd closed open_end
          · omega
          · omega

theorem not_readsDelimited_of_unread (unread : EndsUnread port untilByte timeout b) :
    ¬ReadsDelimited port untilByte bufMax
      (serialportReadUntil port buf untilByte bufMax timeout b) := by
  rintro ⟨r, result, holds⟩
  obtain ⟨stat, kept⟩ :=
    @serialportReadUntil_unread port buf untilByte b bufMax timeout unread
  rw [stat] at result
  cases result
  obtain ⟨taken, string⟩ := holds (by decide)
  have lengths := congrArg List.length string.delivered
  rw [kept, List.length_append] at lengths
  have some_byte := List.length_pos_iff.mpr string.nonempty
  omega

end Loop

/-- A read up to a delimiter keeps its promise exactly when the exit test never
takes the uninitialised byte for the delimiter, and among the bytes delivered in
time an ASCII delimiter comes with room for the zero behind it, or none comes and
the bytes leave room. -/
theorem serialportReadUntil_delimited_iff (port : SerialPort) (buf : Memory) (untilByte b : UInt8)
    (bufMax : Nat) (timeout : Int) (room : 1 ≤ bufMax) (positive : timeout > 0) :
    ReadsDelimited port untilByte bufMax
        (serialportReadUntil port buf untilByte bufMax timeout b) ↔
      ¬EndsUnread port untilByte timeout b ∧
        ((untilByte < 128 ∧
            untilByte ∈ (port.bytesWithin timeout).take (min bufMax intMax - 1)) ∨
          (¬(untilByte < 128 ∧ untilByte ∈ port.bytesWithin timeout) ∧
            (port.bytesWithin timeout).length < bufMax ∧
            (port.bytesWithin timeout).length ≤ intMax)) := by
  by_cases unread : EndsUnread port untilByte timeout b
  · exact iff_of_false (not_readsDelimited_of_unread unread) fun condition => condition.1 unread
  · have ends : LoopEnd untilByte bufMax 0 port buf (port.bytesWithin timeout)
        (serialportReadUntil port buf untilByte bufMax timeout b) :=
      serialportReadUntilFrom_end positive room (Nat.zero_le _) unread
    exact ends.readsDelimited_iff.trans (iff_and_self.mpr fun _ => unread)

theorem serialportReadUntil_delimited_line :
    1 ≤ 4 ∧ (5 : Int) > 0 ∧
      ReadsDelimited { output := [7, 10, 8], attempts := [.ready, .empty] } 10 4
        (serialportReadUntil { output := [7, 10, 8], attempts := [.ready, .empty] } (fun _ => 0) 10 4
          5 0) := by
  refine ⟨by decide, by decide, (serialportReadUntil_delimited_iff _ _ _ _ _ _ (by decide)
    (by decide)).mpr ⟨?_, Or.inl ⟨by decide, ?_⟩⟩⟩
  · simp [EndsUnread, SerialPort.read, ReadByte.attempt]
  · simp [SerialPort.bytesWithin, SerialPort.read, intMax]

/-- A buffer of two bytes, the delimiter in the second: the zero goes behind the buffer. -/
theorem serialportReadUntil_overruns :
    ¬ReadsDelimited { output := [7, 10], attempts := [] } 10 2
      (serialportReadUntil { output := [7, 10], attempts := [] } (fun _ => 0) 10 2 5 0) := by
  rintro ⟨r, result, holds⟩
  have overrun : serialportReadUntil { output := [7, 10], attempts := [] } (fun _ => 0) 10 2 5 0 =
      { stat := some 3, buf := (((Memory.store8 (fun _ => 0) 0 7).store8 1 10).store8 2 0)
        writes := [0, 1, 2], port := { output := [], attempts := [] } } := by
    simp [serialportReadUntil, serialportReadUntilFrom, SerialPort.read, ReadsOn, signedChar,
      ReadUntil.terminated, ReadUntil.wrote, intMax]
  rw [overrun] at result holds
  cases result
  obtain ⟨taken, string⟩ := holds (by decide)
  exact absurd (string.bounded 2 (by simp)) (by decide)

end Sentinet.Kernel
