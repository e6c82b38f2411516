import Sentinet.Messages.Buffer

namespace Sentinet.Messages

open Sentinet.Data

/-! What an accepted `serialize_data` writes and what a rejected one reports.
The acceptance test and the new byte length use `num_bytes`; the branch that
copies uses the width of the type. -/

/-- A call writes a position when it changes some storage there. -/
def Writes (buffer : DataBuffer) (source : Memory) (numBytes : UInt8) (typeCode : TypeCode)
    (position : Nat) : Prop :=
  ∃ storage : Memory,
    (serializeData { buffer with data := storage } (some source) numBytes typeCode).data position ≠
      storage position

/-- A call writes between the old and the new end of the data only, does not
outgrow the storage, and leaves a terminator where `get_data` looks for it. -/
structure StaysInField (buffer : DataBuffer) (source : Memory) (numBytes : UInt8)
    (typeCode : TypeCode) : Prop where
  inside : ∀ position, Writes buffer source numBytes typeCode position →
    buffer.byteLength.toNat ≤ position ∧
      position < (serializeData buffer (some source) numBytes typeCode).byteLength.toNat
  bounded : (serializeData buffer (some source) numBytes typeCode).byteLength.toNat ≤ messageSize
  closed : (serializeData buffer (some source) numBytes typeCode).data
    ((serializeData buffer (some source) numBytes typeCode).byteLength.toNat - 1) = 0

section Field

variable {buffer : DataBuffer} {source : Memory} {numBytes : UInt8} {typeCode : TypeCode}
  {width position : Nat}

theorem appendedBytes_fixed (fixed : fixedWidth typeCode = some width) :
    appendedBytes buffer source numBytes typeCode =
      numBytes :: typeCode :: (source.load 0 width ++ [0]) := by
  rw [appendedBytes, movedCount_fixed fixed]

/-- The accepted call writes the stretch that the width of its type asks for. -/
theorem writes_iff (fixed : fixedWidth typeCode = some width)
    (room : buffer.hasRoom numBytes = true) :
    Writes buffer source numBytes typeCode position ↔
      buffer.byteLength.toNat ≤ position ∧ position < buffer.byteLength.toNat + (width + 3) := by
  have stored (storage : Memory) :
      (serializeData { buffer with data := storage } (some source) numBytes typeCode).data =
        storage.store buffer.byteLength.toNat
          (numBytes :: typeCode :: (source.load 0 width ++ [0])) := by
    have kept : ({ buffer with data := storage } : DataBuffer).hasRoom numBytes = true := room
    rw [serializeData_accepted kept, appendedBytes_fixed fixed]
  have length : (numBytes :: typeCode :: (source.load 0 width ++ [0])).length = width + 3 := by simp
  generalize numBytes :: typeCode :: (source.load 0 width ++ [0]) = stretch at stored length
  constructor
  · intro written
    obtain ⟨storage, changed⟩ := written
    rw [stored] at changed
    by_contra outside
    exact changed (Memory.store_outside (by omega))
  · intro within
    obtain ⟨lower, upper⟩ := within
    obtain ⟨lane, rfl⟩ := Nat.exists_eq_add_of_le lower
    have bound : lane < stretch.length := by omega
    refine ⟨fun _ => stretch[lane] + 1, ?_⟩
    rw [stored, Memory.store_lane _ _ bound]
    simp

theorem field_end (bounded : buffer.byteLength.toNat < messageSize)
    (room : buffer.hasRoom numBytes = true) :
    (serializeData buffer (some source) numBytes typeCode).byteLength.toNat =
      buffer.byteLength.toNat + 3 + numBytes.toNat := by
  rw [serializeData_accepted room]
  exact byteLength_accepted bounded room

theorem data_accepted (fixed : fixedWidth typeCode = some width)
    (room : buffer.hasRoom numBytes = true) :
    (serializeData buffer (some source) numBytes typeCode).data =
      buffer.data.store buffer.byteLength.toNat
        (numBytes :: typeCode :: (source.load 0 width ++ [0])) := by
  rw [serializeData_accepted room, appendedBytes_fixed fixed]

theorem staysInField_iff (bounded : buffer.byteLength.toNat < messageSize)
    (fixed : fixedWidth typeCode = some width) (room : buffer.hasRoom numBytes = true) :
    StaysInField buffer source numBytes typeCode ↔
      width ≤ numBytes.toNat ∧ (width = numBytes.toNat ∨
        buffer.data (buffer.byteLength.toNat + (numBytes.toNat + 2)) = 0) := by
  have fits := (hasRoom_iff bounded).mp room
  have ending : (serializeData buffer (some source) numBytes typeCode).byteLength.toNat = _ :=
    field_end bounded room
  have last : buffer.byteLength.toNat + 3 + numBytes.toNat - 1 =
      buffer.byteLength.toNat + (numBytes.toNat + 2) := by omega
  have stored : (serializeData buffer (some source) numBytes typeCode).data = _ :=
    data_accepted fixed room
  constructor
  · intro stays
    have written : Writes buffer source numBytes typeCode (buffer.byteLength.toNat + (width + 2)) :=
      (writes_iff fixed room).mpr ⟨by omega, by omega⟩
    have within := (stays.inside _ written).2
    rw [ending] at within
    refine ⟨by omega, ?_⟩
    by_cases exact_width : width = numBytes.toNat
    · exact Or.inl exact_width
    · have closed := stays.closed
      rw [ending, last, stored, Memory.store_outside (Or.inr (by simp; omega))] at closed
      exact Or.inr closed
  · intro covers
    obtain ⟨narrow, closing⟩ := covers
    refine ⟨?_, by rw [ending]; omega, ?_⟩
    · intro position written
      have within := (writes_iff fixed room).mp written
      rw [ending]
      omega
    · rw [ending, last, stored]
      by_cases exact_width : width = numBytes.toNat
      · rw [← exact_width]
        have closed := Memory.store_last buffer.data buffer.byteLength.toNat
          (numBytes :: typeCode :: source.load 0 width) 0
        simpa using closed
      · rw [Memory.store_outside (Or.inr (by simp; omega))]
        exact closing.resolve_left exact_width

end Field

/-- An accepted field stays in its place exactly when its size covers the width
of its type and, where it is larger, the buffer already ends the field with zero. -/
theorem accepted_staysInField_iff (calls : List BufferCall) (source : Memory) {numBytes : UInt8}
    {typeCode : TypeCode} {width : Nat} (fixed : fixedWidth typeCode = some width)
    (room : (Run.final BufferCall.apply createBuffer calls).hasRoom numBytes = true) :
    StaysInField (Run.final BufferCall.apply createBuffer calls) source numBytes typeCode ↔
      width ≤ numBytes.toNat ∧ (width = numBytes.toNat ∨
        (Run.final BufferCall.apply createBuffer calls).data
          ((Run.final BufferCall.apply createBuffer calls).byteLength.toNat +
            (numBytes.toNat + 2)) = 0) :=
  staysInField_iff (run_bounded calls) fixed room

theorem accepted_staysInField_iff_float :
    StaysInField createBuffer (fun _ => 7) 4 TypeCode.float ↔
      4 ≤ (4 : UInt8).toNat ∧ (4 = (4 : UInt8).toNat ∨
        createBuffer.data (createBuffer.byteLength.toNat + ((4 : UInt8).toNat + 2)) = 0) :=
  accepted_staysInField_iff [] (fun _ => 7) (by decide) (by decide)

/-- Two bytes announced for a `FLOAT` leave its terminator behind the field, and
near the end of the storage an announced size of zero writes behind the storage. -/
theorem narrow_float_overruns :
    (createBuffer.hasRoom 2 = true ∧
      ¬ StaysInField createBuffer (fun _ => 0) 2 TypeCode.float) ∧
    ∃ calls : List BufferCall,
      (Run.final BufferCall.apply createBuffer calls).hasRoom 0 = true ∧
        Writes (Run.final BufferCall.apply createBuffer calls) (fun _ => 0) 0 TypeCode.float
          (messageSize + 2) := by
  have fixed : fixedWidth TypeCode.float = some 4 := by decide
  constructor
  · refine ⟨by decide, ?_⟩
    intro stays
    have covers := (staysInField_iff (by decide) fixed (by decide)).mp stays
    exact absurd covers.1 (by decide)
  · refine ⟨[.serializeData (some fun _ => 0) 236 TypeCode.byteType], by decide, ?_⟩
    exact (writes_iff fixed (by decide)).mpr (by decide)

/-! The result of `serialize_data` along a series of appends. -/

/-- The result of `serialize_data`, which its callers compare with -1. -/
def serializeDataResult (buffer : DataBuffer) (data : Option Memory) (numBytes : UInt8) : Int :=
  match data with
  | none => 0
  | some _ => if buffer.hasRoom numBytes then 0 else 0

structure Append where
  data : Option Memory
  numBytes : UInt8
  typeCode : TypeCode

namespace Append

def apply (buffer : DataBuffer) (append : Append) : DataBuffer :=
  serializeData buffer append.data append.numBytes append.typeCode

def result (buffer : DataBuffer) (append : Append) : Int :=
  serializeDataResult buffer append.data append.numBytes

def length (append : Append) : Nat := append.numBytes.toNat + 3

end Append

def reportedStored : DataBuffer → List Append → List Append
  | _, [] => []
  | buffer, append :: rest =>
      if append.result buffer = 0 then append :: reportedStored (append.apply buffer) rest
      else reportedStored (append.apply buffer) rest

def totalLength (appends : List Append) : Nat := (appends.map Append.length).sum

/-- The counters of the buffer agree with the results its caller has seen. -/
structure Accounted (appends : List Append) : Prop where
  fields : (Run.final Append.apply createBuffer appends).fields.toNat =
    (reportedStored createBuffer appends).length
  byteLength : (Run.final Append.apply createBuffer appends).byteLength.toNat =
    dataHeaderSize + totalLength (reportedStored createBuffer appends)
  unchanged : Run.EachStep Append.apply (fun buffer append =>
    append.result buffer ≠ 0 → append.apply buffer = buffer) createBuffer appends

section Reported

variable {buffer : DataBuffer} {appends : List Append} {append : Append}

@[simp] theorem totalLength_nil : totalLength [] = 0 := rfl

@[simp] theorem totalLength_cons :
    totalLength (append :: appends) = append.numBytes.toNat + 3 + totalLength appends := rfl

/-- Every append is reported as stored. -/
theorem result_zero (buffer : DataBuffer) (append : Append) : append.result buffer = 0 := by
  unfold Append.result serializeDataResult
  split
  · rfl
  · exact ite_self 0

theorem reportedStored_all : reportedStored buffer appends = appends := by
  induction appends generalizing buffer with
  | nil => rfl
  | cons append rest ih => rw [reportedStored, if_pos (result_zero buffer append), ih]

/-- An append is stored, and then with its full length, exactly when its data
are there and fit. -/
theorem apply_cases (bounded : buffer.byteLength.toNat < messageSize) (append : Append) :
    (append.data.isSome ∧ buffer.byteLength.toNat + append.length < messageSize ∧
      (append.apply buffer).byteLength.toNat = buffer.byteLength.toNat + append.length ∧
      (append.apply buffer).fields = buffer.fields + 1) ∨
    ((append.data.isSome → messageSize ≤ buffer.byteLength.toNat + append.length) ∧
      append.apply buffer = buffer) := by
  obtain ⟨data, numBytes, typeCode⟩ := append
  have roomIff : buffer.hasRoom numBytes = true ↔ _ := hasRoom_iff bounded
  cases data with
  | none => exact Or.inr ⟨fun absent => by simp at absent, rfl⟩
  | some source =>
      cases room : buffer.hasRoom numBytes with
      | true =>
          have fits := roomIff.mp room
          have longer := byteLength_accepted bounded room
          refine Or.inl ⟨rfl, by simp only [Append.length]; omega, ?_, ?_⟩
          · simp only [Append.apply, serializeData_accepted room, longer, Append.length]
            omega
          · simp only [Append.apply, serializeData_accepted room]
      | false =>
          refine Or.inr ⟨?_, serializeData_rejected room⟩
          intro _
          have full : ¬ buffer.byteLength.toNat + 3 + numBytes.toNat < messageSize := by
            intro fits
            rw [roomIff.mpr fits] at room
            contradiction
          simp only [Append.length]
          omega

theorem final_byteLength (bounded : buffer.byteLength.toNat < messageSize) :
    (Run.final Append.apply buffer appends).byteLength.toNat ≤
        buffer.byteLength.toNat + totalLength appends ∧
      ((Run.final Append.apply buffer appends).byteLength.toNat =
          buffer.byteLength.toNat + totalLength appends ↔
        (∀ append ∈ appends, append.data.isSome) ∧
          buffer.byteLength.toNat + totalLength appends < messageSize) := by
  induction appends generalizing buffer with
  | nil => simpa using bounded
  | cons append rest ih =>
      rw [Run.final_cons, totalLength_cons, List.forall_mem_cons]
      obtain ⟨present, fits, longer, -⟩ | ⟨dropped, same⟩ := apply_cases bounded append
      · have shorter : (append.apply buffer).byteLength.toNat < messageSize := by omega
        obtain ⟨below, full⟩ := ih shorter
        have sum : buffer.byteLength.toNat + (append.numBytes.toNat + 3) + totalLength rest =
            buffer.byteLength.toNat + (append.numBytes.toNat + 3 + totalLength rest) := by omega
        rw [longer, Append.length, sum] at below full
        refine ⟨below, full.trans ?_⟩
        simp only [present, true_and]
      · -- Every append adds at least three, so the sum stays behind once one is dropped.
        have later := ih bounded
        rw [same]
        refine ⟨by omega, by omega, ?_⟩
        intro all
        have full := dropped all.1.1
        simp only [Append.length] at full
        omega

theorem final_fields (bounded : buffer.byteLength.toNat < messageSize)
    (present : ∀ append ∈ appends, append.data.isSome)
    (fits : buffer.byteLength.toNat + totalLength appends < messageSize)
    (few : buffer.fields.toNat + totalLength appends < 2 ^ 16) :
    (Run.final Append.apply buffer appends).fields.toNat =
      buffer.fields.toNat + appends.length := by
  induction appends generalizing buffer with
  | nil => rfl
  | cons append rest ih =>
      have later := List.forall_mem_cons.mp present
      rw [totalLength_cons] at fits few
      obtain ⟨-, -, longer, counted⟩ | ⟨dropped, -⟩ := apply_cases bounded append
      · simp only [Append.length] at longer
        have next : (append.apply buffer).fields.toNat = buffer.fields.toNat + 1 := by
          simp only [counted, UInt16.toNat_add, UInt16.reduceToNat]
          omega
        rw [Run.final_cons, ih (by omega) later.2 (by omega) (by omega), next, List.length_cons]
        omega
      · have full := dropped later.1
        simp only [Append.length] at full
        omega

end Reported

/-- The results a caller sees account for its buffer exactly when there was
nothing to report: all data are there and all of them fit. -/
theorem accounted_iff (appends : List Append) :
    Accounted appends ↔
      (∀ append ∈ appends, append.data.isSome) ∧
        dataHeaderSize + totalLength appends < messageSize := by
  have bounded : createBuffer.byteLength.toNat < messageSize := by decide
  have start : createBuffer.byteLength.toNat = dataHeaderSize := by decide
  have counted : (Run.final Append.apply createBuffer appends).byteLength.toNat = _ ↔ _ :=
    (final_byteLength bounded).2
  rw [start] at counted
  constructor
  · intro accounted
    have length := accounted.byteLength
    rw [reportedStored_all] at length
    exact counted.mp length
  · intro stored
    have fields := final_fields bounded stored.1 (by rw [start]; exact stored.2)
    refine ⟨?_, ?_, ?_⟩
    · have few : totalLength appends < 2 ^ 16 := by
        have fits := stored.2
        simp only [messageSize] at fits
        omega
      rw [reportedStored_all, fields (by simpa [createBuffer, toWire] using few)]
      simp [createBuffer, toWire]
    · rw [reportedStored_all]
      exact counted.mpr stored
    · exact Run.eachStep_of_invariant (fun _ => True) (fun _ _ _ => trivial)
        (fun buffer append _ rejected => absurd (result_zero buffer append) rejected) trivial

/-- An append without data reports that it was stored, and a field that does
not fit does so too. -/
theorem dropped_append_unreported :
    serializeDataResult createBuffer none 4 = 0 ∧
      ¬ Accounted [{ data := none, numBytes := 4, typeCode := TypeCode.float }] ∧
      ¬ Accounted [{ data := some fun _ => 0, numBytes := 255, typeCode := TypeCode.byteType }] := by
  refine ⟨rfl, ?_, ?_⟩
  · intro accounted
    have fields := accounted.fields
    rw [reportedStored_all] at fields
    exact absurd fields (by decide)
  · intro accounted
    have fields := accounted.fields
    rw [reportedStored_all] at fields
    exact absurd fields (by decide)

end Sentinet.Messages
