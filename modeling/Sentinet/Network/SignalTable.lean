import Mathlib.Data.List.AList

namespace Sentinet.Network

/-! The signal table of a `ProxyInterface`.  Handlers act on a program state, and
one that terminates the process does not return. -/

variable {σ : Type}

/-- `std::function<int(void)>` -/
abbrev Handler (σ : Type) := σ → Option (Int32 × σ)

abbrev SignalTable (σ : Type) := AList fun _ : Int32 => Handler σ

/-- The methods that the built-in handlers call. -/
structure ProxyMethods (σ : Type) where
  start : σ → Option σ
  pause : σ → Option σ
  stop : σ → Option σ

def CLEAN_STOP : Int32 := 0
def KILL : Int32 := 1
def START : Int32 := 2
def PAUSE : Int32 := 3

namespace SignalTable

/-- `emplace`, which inserts only a new key, and whether it did. -/
def emplace (table : SignalTable σ) (signalVal : Int32) (func : Handler σ) : Bool × SignalTable σ :=
  match table.lookup signalVal with
  | some _ => (false, table)
  | none => (true, table.insert signalVal func)

def registerSignal (table : SignalTable σ) (signalVal : Int32) (func : Handler σ) :
    Bool × SignalTable σ :=
  match table.lookup signalVal with
  | some _ => (false, table)
  | none =>
      let emplaced := table.emplace signalVal func
      if !emplaced.1 then (false, emplaced.2) else (true, emplaced.2)

/-- One after another, whatever each returns. -/
def registerSignals (table : SignalTable σ) (registrations : List (Int32 × Handler σ)) :
    SignalTable σ :=
  registrations.foldl (fun table registration => (table.registerSignal registration.1 registration.2).2)
    table

end SignalTable

/-- The handlers that the constructor registers; `kill` stops the proxy and then
terminates the process. -/
def builtIns (methods : ProxyMethods σ) : List (Int32 × Handler σ) :=
  [(CLEAN_STOP, fun state => (methods.stop state).map (CLEAN_STOP, ·)),
    (KILL, fun _ => none),
    (START, fun state => (methods.start state).map (START, ·)),
    (PAUSE, fun state => (methods.pause state).map (PAUSE, ·))]

/-- The table of a constructed proxy. -/
def SignalTable.create (methods : ProxyMethods σ) : SignalTable σ :=
  SignalTable.registerSignals ∅ (builtIns methods)

/-- The handler that ran, and the status with the state it left; nothing when the
handler did not return. -/
structure Signalled (σ : Type) where
  ran : Option (Handler σ)
  result : Option (Int32 × σ)

/-- `bool ret = status; return ret;` -/
def throughBool (status : Int32) : Int32 := if status ≠ 0 then 1 else 0

def SignalTable.signal (table : SignalTable σ) (signalVal : Int32) (state : σ) : Signalled σ :=
  match table.lookup signalVal with
  | none => { ran := none, result := some (-1, state) }
  | some func =>
      { ran := some func
        result := (func state).map fun returned => (throughBool returned.1, returned.2) }

/-- The handler of the first registration for a signal. -/
def firstRegistered (registrations : List (Int32 × Handler σ)) (signalVal : Int32) :
    Option (Handler σ) :=
  (registrations.find? (·.1 = signalVal)).map (·.2)

/-- The law of a signal after some registrations, the built-in ones first among them. -/
structure SignalLaw (methods : ProxyMethods σ) (registrations : List (Int32 × Handler σ))
    (table : SignalTable σ) (signalVal : Int32) (state : σ) : Prop where
  first : (table.signal signalVal state).ran =
    firstRegistered (builtIns methods ++ registrations) signalVal
  status : ∀ func, (table.signal signalVal state).ran = some func →
    (table.signal signalVal state).result = func state
  builtIn : ∀ registration ∈ builtIns methods,
    (table.signal registration.1 state).ran = some registration.2
  refused : firstRegistered (builtIns methods ++ registrations) signalVal ≠ none →
    ∀ func, table.registerSignal signalVal func = (false, table)
  unknown : (table.signal signalVal state).ran = none →
    (table.signal signalVal state).result = some (-1, state)

section Table

variable {table : SignalTable σ} {methods : ProxyMethods σ} {signalVal : Int32} {state : σ}
  {registrations : List (Int32 × Handler σ)}

theorem registerSignal_lookup (func : Handler σ) (other : Int32) :
    (table.registerSignal signalVal func).2.lookup other =
      (table.lookup other).or (if signalVal = other then some func else none) := by
  cases found : table.lookup signalVal with
  | some first =>
      simp only [SignalTable.registerSignal, found]
      by_cases same : signalVal = other
      · subst same
        rw [found, Option.some_or]
      · rw [if_neg same, Option.or_none]
  | none =>
      simp only [SignalTable.registerSignal, SignalTable.emplace, found, Bool.not_true,
        Bool.false_eq_true, if_false]
      by_cases same : signalVal = other
      · subst same
        rw [AList.lookup_insert, found, if_pos rfl, Option.none_or]
      · rw [AList.lookup_insert_ne (Ne.symm same), if_neg same, Option.or_none]

/-- Registering never replaces: the table holds what it held before, and otherwise
the first handler registered since. -/
theorem registerSignals_lookup :
    (table.registerSignals registrations).lookup signalVal =
      (table.lookup signalVal).or (firstRegistered registrations signalVal) := by
  induction registrations generalizing table with
  | nil => exact (Option.or_none).symm
  | cons registration rest ih =>
      rw [SignalTable.registerSignals, List.foldl_cons]
      refine (ih).trans ?_
      rw [registerSignal_lookup, Option.or_assoc, firstRegistered, firstRegistered,
        List.find?_cons]
      by_cases same : registration.1 = signalVal
      · simp [same]
      · simp [same]

theorem create_lookup :
    ((SignalTable.create methods).registerSignals registrations).lookup signalVal =
      firstRegistered (builtIns methods ++ registrations) signalVal := by
  rw [registerSignals_lookup, SignalTable.create, registerSignals_lookup, AList.lookup_empty,
    Option.none_or, firstRegistered, firstRegistered, firstRegistered, List.find?_append]
  cases (builtIns methods).find? (·.1 = signalVal) <;> rfl

theorem signal_ran : (table.signal signalVal state).ran = table.lookup signalVal := by
  unfold SignalTable.signal
  cases found : table.lookup signalVal with
  | none => rfl
  | some func => rfl

theorem throughBool_eq_iff (status : Int32) : throughBool status = status ↔ status = 0 ∨ status = 1 := by
  unfold throughBool
  split
  · next nonzero => exact ⟨fun same => Or.inr same.symm, fun small => (small.resolve_left nonzero).symm⟩
  · next zero => exact ⟨fun same => Or.inl same.symm, fun _ => (not_ne_iff.mp zero).symm⟩

theorem signal_unknown (unknown : table.lookup signalVal = none) :
    table.signal signalVal state = { ran := none, result := some (-1, state) } := by
  rw [SignalTable.signal, unknown]

theorem signal_known {func : Handler σ} (known : table.lookup signalVal = some func) :
    table.signal signalVal state =
      { ran := some func
        result := (func state).map fun returned => (throughBool returned.1, returned.2) } := by
  rw [SignalTable.signal, known]

/-- The status survives the `bool` exactly when there is none or it is a truth value. -/
theorem map_throughBool_iff (result : Option (Int32 × σ)) :
    result.map (fun returned => (throughBool returned.1, returned.2)) = result ↔
      ∀ status after, result = some (status, after) → status = 0 ∨ status = 1 := by
  cases result with
  | none => simp
  | some returned => simp [Prod.ext_iff, throughBool_eq_iff]

theorem builtIn_lookup {registration : Int32 × Handler σ} (member : registration ∈ builtIns methods) :
    firstRegistered (builtIns methods ++ registrations) registration.1 = some registration.2 := by
  have different : CLEAN_STOP ≠ KILL ∧ CLEAN_STOP ≠ START ∧ CLEAN_STOP ≠ PAUSE ∧ KILL ≠ START ∧
      KILL ≠ PAUSE ∧ START ≠ PAUSE := by decide
  simp only [builtIns, List.mem_cons, List.not_mem_nil, or_false] at member
  rcases member with rfl | rfl | rfl | rfl <;> simp [firstRegistered, builtIns, different]

end Table

/-- A signal keeps its law exactly when the handler it runs returns 0, 1 or not at
all: any other status comes back as 1. -/
theorem signalLaw_iff (methods : ProxyMethods σ) (registrations : List (Int32 × Handler σ))
    (signalVal : Int32) (state : σ) :
    SignalLaw methods registrations
        ((SignalTable.create methods).registerSignals registrations) signalVal state ↔
      ∀ func, firstRegistered (builtIns methods ++ registrations) signalVal = some func →
        ∀ status after, func state = some (status, after) → status = 0 ∨ status = 1 := by
  generalize made : (SignalTable.create methods).registerSignals registrations = table
  have lookup (number : Int32) : table.lookup number =
      firstRegistered (builtIns methods ++ registrations) number := made ▸ create_lookup
  constructor
  · intro law func first status after returned
    have known : table.lookup signalVal = some func := (lookup signalVal).trans first
    have unchanged := law.status func (signal_ran.trans known)
    rw [signal_known known] at unchanged
    exact (map_throughBool_iff (func state)).mp unchanged status after returned
  · intro truth
    refine ⟨signal_ran.trans (lookup signalVal), ?_, ?_, ?_, ?_⟩
    · intro func ran
      have known : table.lookup signalVal = some func := signal_ran.symm.trans ran
      rw [signal_known known]
      exact (map_throughBool_iff (func state)).mpr (truth func ((lookup signalVal).symm.trans known))
    · intro registration member
      exact signal_ran.trans ((lookup registration.1).trans (builtIn_lookup member))
    · intro registered func
      rw [← lookup signalVal] at registered
      obtain ⟨first, found⟩ := Option.ne_none_iff_exists'.mp registered
      rw [SignalTable.registerSignal, found]
    · intro none_ran
      rw [signal_unknown (signal_ran.symm.trans none_ran)]

/-- A handler registered for 10 that returns 7: the signal returns 1. -/
theorem signal_loses_status :
    ¬SignalLaw { start := some, pause := some, stop := some } [(10, fun state => some (7, state))]
      ((SignalTable.create { start := some, pause := some, stop := some }).registerSignals
        [(10, fun state => some (7, state))]) 10 () := by
  intro law
  have status := law.status (fun state => some (7, state)) rfl
  exact absurd status (by decide)

end Sentinet.Network
