import Mathlib.Logic.Function.Basic
import Sentinet.Data.Run

namespace Sentinet.Data

/-! A record in shared memory that one writer at a time stores field by field and
a reader loads field by field, in any interleaving.  What the reader takes may be
stitched together, but only from the updates of its window. -/

variable {ι α : Type}

/-- The reader's place: the fields it has yet to load and those it took.  `window`
are the updates it can have met: the one that was complete when it began, the one
under way then, and those begun since. -/
structure RecordReader (ι α : Type) where
  todo : List ι
  taken : List (ι × α)
  window : List (ι → α)

/-- `complete` is the last update that the writer stored whole, `writing` the one
under way, with the fields that it has yet to store. -/
structure SharedRecord (ι α : Type) where
  memory : ι → α
  complete : ι → α
  writing : Option ((ι → α) × List ι)
  reader : RecordReader ι α

namespace SharedRecord

def start (initial : ι → α) : SharedRecord ι α :=
  { memory := initial, complete := initial, writing := none
    reader := { todo := [], taken := [], window := [] } }

/-- The updates in `memory`, the one under way last. -/
def current (record : SharedRecord ι α) : List (ι → α) :=
  match record.writing with
  | none => [record.complete]
  | some (update, _) => [record.complete, update]

/-- A writer begins, unless another is not done. -/
def begin (record : SharedRecord ι α) (order : List ι) (update : ι → α) : SharedRecord ι α :=
  match record.writing with
  | some _ => record
  | none =>
      { record with
        writing := some (update, order)
        reader := { record.reader with window := record.reader.window ++ [update] } }

/-- The next store of the writer, or its end when there is none left. -/
def store [DecidableEq ι] (record : SharedRecord ι α) : SharedRecord ι α :=
  match record.writing with
  | none => record
  | some (update, []) => { record with complete := update, writing := none }
  | some (update, field :: rest) =>
      { record with
        memory := Function.update record.memory field (update field)
        writing := some (update, rest) }

/-- The reader begins, once it is done with what it loaded before. -/
def read (record : SharedRecord ι α) (order : List ι) : SharedRecord ι α :=
  match record.reader.todo with
  | _ :: _ => record
  | [] => { record with reader := { todo := order, taken := [], window := record.current } }

def load (record : SharedRecord ι α) : SharedRecord ι α :=
  match record.reader.todo with
  | [] => record
  | field :: rest =>
      { record with
        reader :=
          { record.reader with
            todo := rest, taken := record.reader.taken ++ [(field, record.memory field)] } }

/-- The reader is done with what it took. -/
def forget (record : SharedRecord ι α) : SharedRecord ι α :=
  { record with reader := { todo := [], taken := [], window := [] } }

/-- Every word in memory is of the last complete update or, where the writer under
way has stored, of its update; the reader has both in its window. -/
structure Sound (record : SharedRecord ι α) : Prop where
  settled : record.writing = none → record.memory = record.complete
  stored : ∀ update rest, record.writing = some (update, rest) → ∀ field,
    record.memory field = update field ∨ field ∈ rest ∧ record.memory field = record.complete field
  seen : record.reader.todo ≠ [] → ∀ update ∈ record.current, update ∈ record.reader.window
  taken : ∀ entry ∈ record.reader.taken, ∃ update ∈ record.reader.window, entry.2 = update entry.1

section Steps

variable {record : SharedRecord ι α} {order : List ι} {update : ι → α}
  {field : ι}

theorem start_sound (initial : ι → α) : (start initial).Sound where
  settled _ := rfl
  stored _ _ writing := by cases writing
  seen active := absurd rfl active
  taken _ member := by cases member

theorem begin_cases (record : SharedRecord ι α) (order : List ι) (update : ι → α) :
    (∃ busy, record.writing = some busy ∧ record.begin order update = record) ∨
      record.writing = none ∧ record.begin order update =
        { record with
          writing := some (update, order)
          reader := { record.reader with window := record.reader.window ++ [update] } } := by
  cases writing : record.writing with
  | some busy => exact Or.inl ⟨busy, rfl, by simp only [begin, writing]⟩
  | none => exact Or.inr ⟨rfl, by simp only [begin, writing]⟩

theorem Sound.memory_current (sound : record.Sound) (field : ι) :
    ∃ update ∈ record.current, record.memory field = update field := by
  cases writing : record.writing with
  | none => exact ⟨record.complete, by simp [current, writing], congrFun (sound.settled writing) field⟩
  | some busy =>
      obtain ⟨update, rest⟩ := busy
      rcases sound.stored update rest writing field with new | ⟨_, old⟩
      · exact ⟨update, by simp [current, writing], new⟩
      · exact ⟨record.complete, by simp [current, writing], old⟩

theorem Sound.begin (sound : record.Sound) (covers : ∀ field, field ∈ order) :
    (record.begin order update).Sound := by
  rcases begin_cases record order update with ⟨busy, _, same⟩ | ⟨idle, begun⟩
  · rw [same]
    exact sound
  · rw [begun]
    constructor
    · intro writing
      cases writing
    · intro other rest writing field
      cases writing
      exact Or.inr ⟨covers field, congrFun (sound.settled idle) field⟩
    · intro active other member
      have before := sound.seen active
      simp only [current, idle, List.mem_cons, List.not_mem_nil, or_false, forall_eq] at before member
      rcases member with rfl | rfl
      · exact List.mem_append_left _ before
      · exact List.mem_append_right _ (List.mem_singleton_self _)
    · intro entry member
      obtain ⟨source, inWindow, same⟩ := sound.taken entry member
      exact ⟨source, List.mem_append_left _ inWindow, same⟩

theorem Sound.store [DecidableEq ι] (sound : record.Sound) : record.store.Sound := by
  cases writing : record.writing with
  | none =>
      simp only [SharedRecord.store, writing]
      exact sound
  | some busy =>
      obtain ⟨update, rest⟩ := busy
      cases rest with
      | nil =>
          simp only [SharedRecord.store, writing]
          constructor
          · intro _
            funext field
            rcases sound.stored update [] writing field with new | ⟨none_left, _⟩
            · exact new
            · cases none_left
          · intro _ _ writing
            cases writing
          · intro active other member
            have before := sound.seen active
            simp only [current, writing] at before
            simp only [current, List.mem_singleton] at member
            exact member ▸ before update (by simp)
          · exact sound.taken
      | cons field rest =>
          simp only [SharedRecord.store, writing]
          constructor
          · intro idle
            cases idle
          · intro other later same at_
            cases same
            by_cases here : at_ = field
            · subst here
              exact Or.inl (Function.update_self ..)
            · simp only [Function.update_of_ne here]
              rcases sound.stored update (field :: rest) writing at_ with new | ⟨left, old⟩
              · exact Or.inl new
              · exact Or.inr ⟨(List.mem_cons.mp left).resolve_left here, old⟩
          · intro active other member
            have before := sound.seen active other
            simp only [current, writing] at before member
            exact before member
          · exact sound.taken

theorem Sound.read (sound : record.Sound) : (record.read order).Sound := by
  cases todo : record.reader.todo with
  | cons field rest =>
      simp only [SharedRecord.read, todo]
      exact sound
  | nil =>
      simp only [SharedRecord.read, todo]
      exact ⟨sound.settled, sound.stored, fun _ _ member => member, fun _ member => by cases member⟩

theorem Sound.load (sound : record.Sound) : record.load.Sound := by
  cases todo : record.reader.todo with
  | nil =>
      simp only [SharedRecord.load, todo]
      exact sound
  | cons field rest =>
      simp only [SharedRecord.load, todo]
      have active : record.reader.todo ≠ [] := by simp [todo]
      refine ⟨sound.settled, sound.stored, fun _ => sound.seen active, ?_⟩
      intro entry member
      rcases List.mem_append.mp member with before | new
      · exact sound.taken entry before
      · rw [List.mem_singleton.mp new]
        obtain ⟨update, inMemory, same⟩ := sound.memory_current field
        exact ⟨update, sound.seen active update inMemory, same⟩

theorem Sound.forget (sound : record.Sound) : record.forget.Sound :=
  ⟨sound.settled, sound.stored, fun active => absurd rfl active, fun _ member => by cases member⟩

/-- A reader that met one update only took that one. -/
theorem Sound.taken_whole (sound : record.Sound)
    (alone : ∀ other ∈ record.reader.window, other = update) {entry : ι × α}
    (member : entry ∈ record.reader.taken) : entry.2 = update entry.1 := by
  obtain ⟨source, inWindow, same⟩ := sound.taken entry member
  exact alone source inWindow ▸ same

end Steps

section Orders

variable {record : SharedRecord ι α} {orders : List (List ι)} {order : List ι} {update : ι → α}

/-- The reader is done, or it takes the fields in one of the orders. -/
def Reads (record : SharedRecord ι α) (orders : List (List ι)) : Prop :=
  record.reader.taken = [] ∧ record.reader.todo = [] ∨
    ∃ order ∈ orders, record.reader.taken.map Prod.fst ++ record.reader.todo = order

@[simp] theorem start_reads (initial : ι → α) : (start initial).Reads orders := Or.inl ⟨rfl, rfl⟩

@[simp] theorem forget_reads : record.forget.Reads orders := Or.inl ⟨rfl, rfl⟩

theorem Reads.begin (reads : record.Reads orders) : (record.begin order update).Reads orders := by
  rcases begin_cases record order update with ⟨_, _, same⟩ | ⟨_, begun⟩
  · rw [same]
    exact reads
  · rw [begun]
    exact reads

@[simp] theorem store_reader [DecidableEq ι] : record.store.reader = record.reader := by
  unfold store
  split <;> rfl

theorem Reads.store [DecidableEq ι] (reads : record.Reads orders) : record.store.Reads orders := by
  simpa only [Reads, store_reader] using reads

theorem Reads.read (reads : record.Reads orders) (allowed : order ∈ orders) :
    (record.read order).Reads orders := by
  cases todo : record.reader.todo with
  | cons field rest => simpa only [Reads, SharedRecord.read, todo] using reads
  | nil =>
      refine Or.inr ⟨order, allowed, ?_⟩
      simp only [SharedRecord.read, todo, List.map_nil, List.nil_append]

theorem Reads.load (reads : record.Reads orders) : record.load.Reads orders := by
  cases todo : record.reader.todo with
  | nil => simpa only [Reads, SharedRecord.load, todo] using reads
  | cons field rest =>
      obtain ⟨order, allowed, same⟩ := reads.resolve_left fun idle => by simp [todo] at idle
      refine Or.inr ⟨order, allowed, ?_⟩
      simpa [SharedRecord.load, todo] using same

/-- The word that was loaded from a field. -/
def loaded [BEq ι] [Inhabited α] (record : SharedRecord ι α) (field : ι) : α :=
  (record.reader.taken.lookup field).getD default

theorem lookup_mem [BEq ι] [LawfulBEq ι] {taken : List (ι × α)} {field : ι} (other : α)
    (member : field ∈ taken.map Prod.fst) : (field, (taken.lookup field).getD other) ∈ taken := by
  induction taken with
  | nil => cases member
  | cons entry rest ih =>
      obtain ⟨first, word⟩ := entry
      by_cases here : field = first
      · subst here
        simp
      · have later : field ∈ rest.map Prod.fst := by simpa [here] using member
        rw [List.lookup_cons, beq_false_of_ne here]
        exact List.mem_cons_of_mem _ (ih later)

theorem Reads.loaded_mem [BEq ι] [LawfulBEq ι] [Inhabited α] (reads : record.Reads orders)
    (covers : ∀ order ∈ orders, ∀ field, field ∈ order) (finished : record.reader.todo = [])
    (begun : record.reader.taken ≠ []) (field : ι) :
    (field, record.loaded field) ∈ record.reader.taken := by
  obtain ⟨order, allowed, same⟩ := reads.resolve_left fun idle => begun idle.1
  rw [finished, List.append_nil] at same
  exact lookup_mem _ (same ▸ covers order allowed field)

end Orders

section Met

variable {record : SharedRecord ι α} {order : List ι} {update other : ι → α}

/-- The updates that loads done or to come can have met. -/
def met (record : SharedRecord ι α) : List (ι → α) := record.current ++ record.reader.window

theorem mem_met_begin (member : other ∈ (record.begin order update).met) :
    other ∈ record.met ∨ other = update := by
  rcases begin_cases record order update with ⟨_, _, same⟩ | ⟨idle, begun⟩
  · rw [same] at member
    exact Or.inl member
  · simp only [met, begun, current, idle, List.mem_append, List.mem_cons, List.not_mem_nil,
      or_false] at member ⊢
    tauto

theorem mem_met_store [DecidableEq ι] (member : other ∈ record.store.met) : other ∈ record.met := by
  cases writing : record.writing with
  | none => simpa only [store, writing] using member
  | some busy =>
      obtain ⟨update, rest⟩ := busy
      cases rest with
      | nil =>
          simp only [met, store, current, writing, List.mem_append, List.mem_cons,
            List.not_mem_nil, or_false] at member ⊢
          tauto
      | cons field rest => simpa only [met, store, current, writing] using member

theorem mem_met_read (member : other ∈ (record.read order).met) : other ∈ record.met := by
  cases todo : record.reader.todo with
  | cons field rest => simpa only [read, todo] using member
  | nil =>
      simp only [met, read, current, todo, List.mem_append] at member ⊢
      tauto

theorem mem_met_load (member : other ∈ record.load.met) : other ∈ record.met := by
  cases todo : record.reader.todo with
  | nil => simpa only [load, todo] using member
  | cons field rest => simpa only [met, load, current, todo] using member

theorem mem_met_forget (member : other ∈ record.forget.met) : other ∈ record.met := by
  simp only [met, forget, current, List.append_nil] at member
  exact List.mem_append_left _ member

end Met

end SharedRecord

end Sentinet.Data
