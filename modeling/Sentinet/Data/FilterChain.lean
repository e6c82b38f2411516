import Sentinet.Data.Run

namespace Sentinet.Data

/-! Filters with a state of their own, in a row, through which messages pass one at a
time; filters are put at the end of the row between messages.  The result is that of
handing the whole stream to one filter after the other. -/

variable {φ α : Type}

inductive StreamEvent (φ α : Type) where
  | install (filter : φ)
  | pass (message : α)

/-- The filters as they are now, and the messages that came out. -/
structure FilterChain (φ α : Type) where
  filters : List φ
  out : List α

namespace FilterChain

def empty : FilterChain φ α := { filters := [], out := [] }

/-- One message through the filters, the first one first. -/
def convertEach (convert : φ → α → α × φ) : List φ → α → α × List φ
  | [], message => (message, [])
  | filter :: rest, message =>
      let (message, filter) := convert filter message
      let (message, rest) := convertEach convert rest message
      (message, filter :: rest)

def step (convert : φ → α → α × φ) (chain : FilterChain φ α) : StreamEvent φ α → FilterChain φ α
  | .install filter => { chain with filters := chain.filters ++ [filter] }
  | .pass message =>
      let (converted, filters) := convertEach convert chain.filters message
      { filters, out := chain.out ++ [converted] }

/-- The messages of a stream as they went in. -/
def messages : List (StreamEvent φ α) → List α
  | [] => []
  | .install _ :: rest => messages rest
  | .pass message :: rest => message :: messages rest

/-- A filter, and how many messages were through when it was installed. -/
structure Installed (φ : Type) where
  late : Nat
  filter : φ

def Installed.shift (count : Nat) (installed : Installed φ) : Installed φ :=
  { installed with late := installed.late + count }

def installs : List (StreamEvent φ α) → List (Installed φ)
  | [] => []
  | .install filter :: rest => { late := 0, filter } :: installs rest
  | .pass _ :: rest => (installs rest).map (Installed.shift 1)

/-- What one filter makes of the whole stream. -/
def convertAfter (convert : φ → α → α × φ) (messages : List α) (installed : Installed φ) : List α :=
  messages.take installed.late ++
    Run.outputs convert installed.filter (messages.drop installed.late)

/-- What the filters make of it, one after the other. -/
def convertAll (convert : φ → α → α × φ) (installed : List (Installed φ)) (messages : List α) :
    List α :=
  installed.foldl (convertAfter convert) messages

theorem messages_append (before after : List (StreamEvent φ α)) :
    messages (before ++ after) = messages before ++ messages after := by
  induction before with
  | nil => rfl
  | cons event rest ih =>
      cases event with
      | install filter => exact ih
      | pass message => exact congrArg (message :: ·) ih

theorem installs_append (before after : List (StreamEvent φ α)) :
    installs (before ++ after) =
      installs before ++ (installs after).map (Installed.shift (messages before).length) := by
  induction before with
  | nil => exact (List.map_id (installs after)).symm
  | cons event rest ih =>
      cases event with
      | install filter => exact congrArg _ ih
      | pass message =>
          simp only [List.cons_append, installs, ih, List.map_append, List.map_map, messages,
            List.length_cons]
          rfl

@[simp] theorem messages_pass (passed : List α) :
    messages (passed.map StreamEvent.pass : List (StreamEvent φ α)) = passed := by
  induction passed with
  | nil => rfl
  | cons message rest ih => exact congrArg (message :: ·) ih

@[simp] theorem installs_pass (passed : List α) :
    installs (passed.map StreamEvent.pass : List (StreamEvent φ α)) = [] := by
  induction passed with
  | nil => rfl
  | cons message rest ih =>
      rw [List.map_cons, installs, ih]
      rfl

section Interchange

variable {convert : φ → α → α × φ} {message : α} {rest : List α} {filter : φ}

theorem convertEach_append (before : List φ) (filter : φ) (message : α) :
    convertEach convert (before ++ [filter]) message =
      ((convert filter (convertEach convert before message).1).1,
        (convertEach convert before message).2 ++
          [(convert filter (convertEach convert before message).1).2]) := by
  induction before generalizing message with
  | nil => rfl
  | cons first rest ih => simp only [List.cons_append, convertEach, ih]

theorem convertEach_length (convert : φ → α → α × φ) (filters : List φ) (message : α) :
    (convertEach convert filters message).2.length = filters.length := by
  induction filters generalizing message with
  | nil => rfl
  | cons filter rest ih => rw [convertEach, List.length_cons, ih, List.length_cons]

theorem convertAfter_zero :
    convertAfter convert (message :: rest) { late := 0, filter } =
      (convert filter message).1 ::
        convertAfter convert rest { late := 0, filter := (convert filter message).2 } := rfl

theorem convertAfter_shift (installed : Installed φ) :
    convertAfter convert (message :: rest) (installed.shift 1) =
      message :: convertAfter convert rest installed := rfl

theorem convertAll_shift (installed : List (Installed φ)) :
    convertAll convert (installed.map (Installed.shift 1)) (message :: rest) =
      message :: convertAll convert installed rest := by
  induction installed generalizing rest with
  | nil => rfl
  | cons first later ih =>
      simp only [convertAll, List.map_cons, List.foldl_cons, convertAfter_shift] at ih ⊢
      exact ih

/-- The first message goes through the filters that are there from the start; the
others find them as it left them. -/
theorem convertAll_first (filters : List φ) :
    convertAll convert (filters.map (Installed.mk 0)) (message :: rest) =
      (convertEach convert filters message).1 ::
        convertAll convert ((convertEach convert filters message).2.map (Installed.mk 0)) rest := by
  induction filters generalizing message rest with
  | nil => rfl
  | cons filter later ih =>
      simp only [convertAll, List.map_cons, List.foldl_cons, convertAfter_zero] at ih ⊢
      exact ih

theorem convertAll_append (before after : List (Installed φ)) (messages : List α) :
    convertAll convert (before ++ after) messages =
      convertAll convert after (convertAll convert before messages) :=
  List.foldl_append

theorem convertAll_nil (installed : List (Installed φ)) : convertAll convert installed [] = [] := by
  induction installed with
  | nil => rfl
  | cons first later ih =>
      have none : convertAfter convert [] first = [] := by
        rw [convertAfter, List.take_nil, List.drop_nil]
        rfl
      rw [convertAll, List.foldl_cons, none]
      exact ih

/-- Message by message through the row of filters, or filter by filter over the
whole stream. -/
theorem run_out (chain : FilterChain φ α) (events : List (StreamEvent φ α)) :
    (Run.final (step convert) chain events).out =
      chain.out ++ convertAll convert (chain.filters.map (Installed.mk 0) ++ installs events)
        (messages events) := by
  induction events generalizing chain with
  | nil => rw [messages, convertAll_nil, List.append_nil, Run.final_nil]
  | cons event rest ih =>
      rw [Run.final_cons, ih]
      cases event with
      | install filter =>
          simp only [step, installs, messages, List.map_append, List.map_cons, List.map_nil,
            List.append_assoc, List.singleton_append]
      | pass message =>
          simp only [step, installs, messages, List.append_assoc, convertAll_append,
            convertAll_first, convertAll_shift, List.singleton_append]

end Interchange

end FilterChain

end Sentinet.Data
