import Mathlib.Data.List.Basic

namespace FreenetMigrate.Calls

/-- A program finishes with a value, or makes a call and continues with the answer it gets. -/
inductive Program (Call : Type) (Answer : Call → Type) (α : Type) : Type
  | done (value : α)
  | call (request : Call) (next : Answer request → Program Call Answer α)

structure Event (Call : Type) (Answer : Call → Type) where
  request : Call
  answer : Answer request

/-- The answers a caller may get in each state, and the states they leave behind. An answer is
    not a function of the state, so a world may fail, refuse or change its mind at any call. -/
abbrev World (Call : Type) (Answer : Call → Type) (State : Type) : Type :=
  State → (request : Call) → Answer request → State → Prop

variable {Call : Type} {Answer : Call → Type} {State Abstract : Type} {α β ι : Type}

namespace Program

def bind (program : Program Call Answer α) (rest : α → Program Call Answer β) :
    Program Call Answer β :=
  match program with
  | .done value => rest value
  | .call request next => .call request fun answer => (next answer).bind rest

instance : Monad (Program Call Answer) where
  pure := .done
  bind := bind

def request (call : Call) : Program Call Answer (Answer call) := .call call .done

def run (handler : State → (request : Call) → Answer request × State) :
    Program Call Answer α → State → List (Event Call Answer) × State × α
  | .done value, state => ([], state, value)
  | .call request next, state =>
    let (answer, after) := handler state request
    let (events, result) := run handler (next answer) after
    (⟨request, answer⟩ :: events, result)

end Program

/-- `Executes world before program events after value`: the program can run to its end from
    `before`, making the calls `events`, leaving `after` and returning `value`. -/
inductive Executes (world : World Call Answer State) :
    State → Program Call Answer α → List (Event Call Answer) → State → α → Prop
  | done (state : State) (value : α) : Executes world state (.done value) [] state value
  | call {before middle after : State} {request : Call} {answer : Answer request}
      {next : Answer request → Program Call Answer α} {events : List (Event Call Answer)} {value : α}
      (step : world before request answer middle)
      (rest : Executes world middle (next answer) events after value) :
      Executes world before (.call request next) (⟨request, answer⟩ :: events) after value

/-- `Reaches world before program events after`: the program can be stopped in `after`, having
    made the calls `events` and possibly not being at its end. -/
inductive Reaches (world : World Call Answer State) :
    State → Program Call Answer α → List (Event Call Answer) → State → Prop
  | here (state : State) (program : Program Call Answer α) : Reaches world state program [] state
  | call {before middle after : State} {request : Call} {answer : Answer request}
      {next : Answer request → Program Call Answer α} {events : List (Event Call Answer)}
      (step : world before request answer middle)
      (rest : Reaches world middle (next answer) events after) :
      Reaches world before (.call request next) (⟨request, answer⟩ :: events) after

variable {world : World Call Answer State} {before after : State}
  {events : List (Event Call Answer)}

@[simp] theorem executes_done {value result : α} :
    Executes world before (.done value : Program Call Answer α) events after result ↔
      events = [] ∧ after = before ∧ result = value := by
  constructor
  · intro run
    cases run
    exact ⟨rfl, rfl, rfl⟩
  · rintro ⟨rfl, rfl, rfl⟩
    exact .done _ _

@[simp] theorem executes_pure {value result : α} :
    Executes world before (pure value : Program Call Answer α) events after result ↔
      events = [] ∧ after = before ∧ result = value := executes_done

@[simp] theorem executes_request {call : Call} {result : Answer call} :
    Executes world before (Program.request call) events after result ↔
      events = [⟨call, result⟩] ∧ world before call result after := by
  constructor
  · intro run
    cases run with
    | call step rest =>
      obtain ⟨rfl, rfl, rfl⟩ := executes_done.mp rest
      exact ⟨rfl, step⟩
  · rintro ⟨rfl, step⟩
    exact .call step (.done _ _)

theorem executes_bind {program : Program Call Answer α} {rest : α → Program Call Answer β}
    {result : β} :
    Executes world before (program >>= rest) events after result ↔
      ∃ first middle value second, events = first ++ second ∧
        Executes world before program first middle value ∧
        Executes world middle (rest value) second after result := by
  induction program generalizing before events with
  | done value =>
    constructor
    · intro run
      exact ⟨[], before, value, events, rfl, .done _ _, run⟩
    · rintro ⟨first, middle, value, second, rfl, run, remaining⟩
      obtain ⟨rfl, rfl, rfl⟩ := executes_done.mp run
      exact remaining
  | call request next ih =>
    constructor
    · intro run
      cases run with
      | call step remaining =>
        obtain ⟨first, middle, value, second, rfl, inner, tail⟩ := (ih _).mp remaining
        exact ⟨_ :: first, middle, value, second, rfl, .call step inner, tail⟩
    · rintro ⟨first, middle, value, second, rfl, run, tail⟩
      cases run with
      | call step inner => exact .call step ((ih _).mpr ⟨_, _, _, _, rfl, inner, tail⟩)

theorem Executes.reaches {program : Program Call Answer α} {value : α}
    (run : Executes world before program events after value) :
    Reaches world before program events after := by
  induction run with
  | done => exact .here _ _
  | call step _ ih => exact .call step ih

/-- What every single call preserves, every stopping point of a run preserves. -/
theorem Reaches.invariant {program : Program Call Answer α} {holds : State → Prop}
    (preserved : ∀ s call answer s', world s call answer s' → holds s → holds s')
    (run : Reaches world before program events after) (start : holds before) : holds after := by
  induction run with
  | here => exact start
  | call step _ ih => exact ih (preserved _ _ _ _ step start)

theorem Executes.invariant {program : Program Call Answer α} {value : α} {holds : State → Prop}
    (preserved : ∀ s call answer s', world s call answer s' → holds s → holds s')
    (run : Executes world before program events after value) (start : holds before) :
    holds after := run.reaches.invariant preserved start

theorem executes_run {program : Program Call Answer α}
    {handler : State → (request : Call) → Answer request × State}
    (answers : ∀ s call, world s call (handler s call).1 (handler s call).2) (start : State) :
    Executes world start program (program.run handler start).1 (program.run handler start).2.1
      (program.run handler start).2.2 := by
  induction program generalizing start with
  | done => exact .done _ _
  | call request next ih => exact .call (answers start request) (ih _ _)

def Program.ends (handler : State → (request : Call) → Answer request × State)
    (program : Program Call Answer α) (state : State) : State × α := (program.run handler state).2

section Ends

variable {handler : State → (request : Call) → Answer request × State} {state : State}

@[simp] theorem ends_pure {value : α} :
    (pure value : Program Call Answer α).ends handler state = (state, value) := rfl

@[simp] theorem ends_request {call : Call} :
    (Program.request call : Program Call Answer (Answer call)).ends handler state =
      ((handler state call).2, (handler state call).1) := rfl

theorem ends_bind {program : Program Call Answer α} {rest : α → Program Call Answer β} :
    (program >>= rest).ends handler state =
      (rest (program.ends handler state).2).ends handler (program.ends handler state).1 := by
  induction program generalizing state with
  | done => rfl
  | call request next ih => exact ih _

end Ends

inductive Iterates (world : World Call Answer State) (body : β → ι → Program Call Answer β) :
    State → β → List ι → List (List (Event Call Answer)) → State → β → Prop
  | nil (state : State) (value : β) : Iterates world body state value [] [] state value
  | cons {before middle after : State} {value next result : β} {item : ι} {items : List ι}
      {events : List (Event Call Answer)} {rounds : List (List (Event Call Answer))}
      (round : Executes world before (body value item) events middle next)
      (rest : Iterates world body middle next items rounds after result) :
      Iterates world body before value (item :: items) (events :: rounds) after result

theorem executes_foldlM {body : β → ι → Program Call Answer β} {items : List ι}
    {start result : β} :
    Executes world before (items.foldlM body start) events after result ↔
      ∃ rounds, events = rounds.flatten ∧
        Iterates world body before start items rounds after result := by
  induction items generalizing before events start with
  | nil =>
    rw [List.foldlM_nil, executes_pure]
    constructor
    · rintro ⟨rfl, rfl, rfl⟩
      exact ⟨[], rfl, .nil _ _⟩
    · rintro ⟨rounds, rfl, run⟩
      cases run
      exact ⟨rfl, rfl, rfl⟩
  | cons item items ih =>
    rw [List.foldlM_cons, executes_bind]
    constructor
    · rintro ⟨first, middle, value, second, rfl, round, rest⟩
      obtain ⟨rounds, rfl, run⟩ := ih.mp rest
      exact ⟨first :: rounds, rfl, .cons round run⟩
    · rintro ⟨rounds, rfl, run⟩
      cases run with
      | cons round rest => exact ⟨_, _, _, _, rfl, round, ih.mpr ⟨_, rfl, rest⟩⟩

/-- The loop rule: what each iteration preserves, with the iterations already made in view,
    the whole loop preserves. -/
theorem Iterates.invariant {body : β → ι → Program Call Answer β} {items : List ι}
    {rounds : List (List (Event Call Answer))} {start result : β} {done : List ι}
    {holds : List ι → State → β → Prop}
    (preserved : ∀ done item s value events s' next, holds done s value →
      Executes world s (body value item) events s' next → holds (done ++ [item]) s' next)
    (run : Iterates world body before start items rounds after result)
    (initial : holds done before start) : holds (done ++ items) after result := by
  induction run generalizing done with
  | nil => simpa using initial
  | cons round _ ih =>
    have step := ih (preserved _ _ _ _ _ _ _ initial round)
    simpa using step

end FreenetMigrate.Calls
