import FreenetMigrate.Calls.Program

namespace FreenetMigrate.Calls

variable {Call : Type} {Answer : Call → Type} {State α β ι : Type}

/-- The weakest precondition of a program that may be stopped at any call: wherever it is stopped
    `crash` holds, and where it ends, `post` does of the state and the value as well. -/
def Program.wp (world : World Call Answer State) (crash : State → Prop) (post : State → α → Prop) :
    Program Call Answer α → State → Prop
  | .done value, state => crash state ∧ post state value
  | .call request next, state => crash state ∧ ∀ answer after,
    world state request answer after → (next answer).wp world crash post after

variable {world : World Call Answer State} {crash : State → Prop} {before after : State}
  {events : List (Event Call Answer)}

theorem wp_pure {value : α} {post : State → α → Prop} (stopped : crash before)
    (met : post before value) : (pure value : Program Call Answer α).wp world crash post before :=
  ⟨stopped, met⟩

theorem wp_call {call : Call} {rest : Answer call → Program Call Answer β}
    {post : State → β → Prop} (stopped : crash before)
    (each : ∀ answer after, world before call answer after →
      (rest answer).wp world crash post after) :
    (Program.request call >>= rest).wp world crash post before := ⟨stopped, each⟩

theorem wp_bind {program : Program Call Answer α} {rest : α → Program Call Answer β}
    {middle : State → α → Prop} {post : State → β → Prop}
    (first : program.wp world crash middle before)
    (second : ∀ state value, crash state → middle state value →
      (rest value).wp world crash post state) :
    (program >>= rest).wp world crash post before := by
  induction program generalizing before with
  | done value => exact second before value first.1 first.2
  | call request next ih => exact ⟨first.1, fun answer after step => ih answer (first.2 answer after step)⟩

theorem Program.wp.mono {program : Program Call Answer α} {post wider : State → α → Prop}
    (runs : program.wp world crash post before)
    (implied : ∀ state value, crash state → post state value → wider state value) :
    program.wp world crash wider before := by
  induction program generalizing before with
  | done value => exact ⟨runs.1, implied before value runs.1 runs.2⟩
  | call request next ih => exact ⟨runs.1, fun answer after step => ih answer (runs.2 answer after step)⟩

/-- The rule of a loop, with the items already done in view. -/
theorem wp_foldlM {body : β → ι → Program Call Answer β} (holds : List ι → State → β → Prop)
    {start : β} (items done : List ι) (stopped : crash before) (initial : holds done before start)
    (each : ∀ past item rest state value, done ++ items = past ++ item :: rest → crash state →
      holds past state value → (body value item).wp world crash (holds (past ++ [item])) state) :
    (items.foldlM body start).wp world crash (holds (done ++ items)) before := by
  induction items generalizing done before start with
  | nil =>
    rw [List.foldlM_nil, List.append_nil]
    exact wp_pure stopped initial
  | cons item rest ih =>
    rw [List.foldlM_cons]
    refine wp_bind (each done item rest before start rfl stopped initial) ?_
    intro state value stopped' held
    rw [List.append_cons]
    apply ih (done ++ [item]) stopped' held
    rw [← List.append_cons]
    exact each

theorem Program.wp.reaches {program : Program Call Answer α} {post : State → α → Prop}
    (runs : program.wp world crash post before) (run : Reaches world before program events after) :
    crash after := by
  induction run with
  | here _ program =>
    cases program with
    | done => exact runs.1
    | call => exact runs.1
  | call step _ ih => exact ih (runs.2 _ _ step)

theorem Program.wp.executes {program : Program Call Answer α} {post : State → α → Prop} {value : α}
    (runs : program.wp world crash post before)
    (run : Executes world before program events after value) : crash after ∧ post after value := by
  induction run with
  | done => exact runs
  | call step _ ih => exact ih (runs.2 _ _ step)

/-- A program in two parts is stopped in the first, or in the second once the first has ended. -/
theorem reaches_bind {program : Program Call Answer α} {rest : α → Program Call Answer β}
    (run : Reaches world before (program >>= rest) events after) :
    Reaches world before program events after ∨
      ∃ first middle value second, events = first ++ second ∧
        Executes world before program first middle value ∧
        Reaches world middle (rest value) second after := by
  induction program generalizing before events with
  | done value => exact .inr ⟨[], before, value, events, rfl, .done _ _, run⟩
  | call request next ih =>
    cases run with
    | here => exact .inl (.here _ _)
    | call step remaining =>
      rcases ih _ remaining with within | ⟨first, middle, value, second, rfl, whole, tail⟩
      · exact .inl (.call step within)
      · exact .inr ⟨_ :: first, middle, value, second, rfl, .call step whole, tail⟩

def World.within (world : World Call Answer State) (allowed : Event Call Answer → Prop) :
    World Call Answer State := fun before request answer after =>
  world before request answer after ∧ allowed ⟨request, answer⟩

variable {allowed : Event Call Answer → Prop}

theorem executes_within {program : Program Call Answer α} {value : α} :
    Executes (world.within allowed) before program events after value ↔
      Executes world before program events after value ∧ ∀ event ∈ events, allowed event := by
  constructor
  · intro run
    induction run with
    | done => exact ⟨.done _ _, by simp⟩
    | call step _ ih => exact ⟨.call step.1 ih.1, List.forall_mem_cons.mpr ⟨step.2, ih.2⟩⟩
  · rintro ⟨run, each⟩
    induction run with
    | done => exact .done _ _
    | call step _ ih =>
      obtain ⟨first, others⟩ := List.forall_mem_cons.mp each
      exact .call ⟨step, first⟩ (ih others)

section Beside

variable {Other : Type} {OtherAnswer : Other → Type}

def Program.beside : Program Call Answer α → Program (Other ⊕ Call) (Sum.elim OtherAnswer Answer) α
  | .done value => .done value
  | .call request next => .call (.inr request) fun answer => (next answer).beside

def World.beside (other : World Other OtherAnswer State) (world : World Call Answer State) :
    World (Other ⊕ Call) (Sum.elim OtherAnswer Answer) State
  | before, .inl request, answer, after => other before request answer after
  | before, .inr request, answer, after => world before request answer after

variable {other : World Other OtherAnswer State}

theorem wp_beside {program : Program Call Answer α} {post : State → α → Prop}
    (runs : program.wp world crash post before) :
    program.beside.wp (other.beside world) crash post before := by
  induction program generalizing before with
  | done => exact runs
  | call request next ih => exact ⟨runs.1, fun answer after step => ih answer (runs.2 answer after step)⟩

theorem executes_beside {program : Program Call Answer α} {value : α}
    {events : List (Event (Other ⊕ Call) (Sum.elim OtherAnswer Answer))}
    (run : Executes (other.beside world) before program.beside events after value) :
    ∃ own : List (Event Call Answer), events = own.map (fun event => ⟨.inr event.request, event.answer⟩) ∧
      Executes world before program own after value := by
  induction program generalizing before events with
  | done =>
    cases run
    exact ⟨[], rfl, .done _ _⟩
  | call request next ih =>
    cases run with
    | @call _ _ _ _ answer _ _ _ step rest =>
      obtain ⟨own, rfl, inner⟩ := ih answer rest
      exact ⟨⟨request, answer⟩ :: own, rfl, .call step inner⟩

end Beside

end FreenetMigrate.Calls
