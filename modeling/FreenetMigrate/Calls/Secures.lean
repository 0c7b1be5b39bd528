import FreenetMigrate.Calls.Rules

namespace FreenetMigrate.Calls

variable {Call : Type} {Answer : Call → Type} {State α β ε ι : Type}

/-- From any state that keeps `keeps`, each call of the program leaves one that does, and a value it
    returns meets `post`. -/
inductive Program.Secures (world : World Call Answer State) (keeps : State → Prop)
    (post : α → Prop) : Program Call Answer α → Prop
  | done {value : α} (met : post value) : Secures world keeps post (.done value)
  | call {request : Call} {next : Answer request → Program Call Answer α}
      (kept : ∀ s answer s', keeps s → world s request answer s' → keeps s')
      (rest : ∀ s answer s', keeps s → world s request answer s' →
        Secures world keeps post (next answer)) :
      Secures world keeps post (.call request next)

variable {world : World Call Answer State} {keeps : State → Prop} {before after : State}
  {events : List (Event Call Answer)}

theorem secures_pure {value : α} {post : α → Prop} (met : post value) :
    (pure value : Program Call Answer α).Secures world keeps post := .done met

theorem secures_call {call : Call} {rest : Answer call → Program Call Answer β} {post : β → Prop}
    (each : ∀ s answer s', keeps s → world s call answer s' →
      keeps s' ∧ (rest answer).Secures world keeps post) :
    (Program.request call >>= rest).Secures world keeps post :=
  .call (fun s answer s' kept step => (each s answer s' kept step).1)
    fun s answer s' kept step => (each s answer s' kept step).2

theorem secures_bind {program : Program Call Answer α} {rest : α → Program Call Answer β}
    {middle : α → Prop} {post : β → Prop} (first : program.Secures world keeps middle)
    (second : ∀ value, middle value → (rest value).Secures world keeps post) :
    (program >>= rest).Secures world keeps post := by
  induction first with
  | done met => exact second _ met
  | call kept _ ih => exact .call kept ih

theorem Program.Secures.mono {program : Program Call Answer α} {post wider : α → Prop}
    (secures : program.Secures world keeps post) (implied : ∀ value, post value → wider value) :
    program.Secures world keeps wider := by
  induction secures with
  | done met => exact .done (implied _ met)
  | call kept _ ih => exact .call kept ih

/-- The rule of a loop: each iteration takes a value that meets the invariant to one that does. -/
theorem secures_foldlM {body : β → ι → Program Call Answer β} {holds : β → Prop} (items : List ι)
    {start : β} (initial : holds start)
    (each : ∀ item ∈ items, ∀ value, holds value → (body value item).Secures world keeps holds) :
    (items.foldlM body start).Secures world keeps holds := by
  induction items generalizing start with
  | nil => exact secures_pure initial
  | cons item rest ih =>
    rw [List.foldlM_cons]
    refine secures_bind (each item (List.mem_cons_self ..) start initial) ?_
    intro next met
    exact ih met fun other member => each other (List.mem_cons_of_mem _ member)

/-- A program that only makes calls which keep the invariant whatever they are answered. -/
theorem secures_of_uses {program : Program Call Answer α} {allowed : Call → Prop}
    (uses : program.Uses allowed)
    (quiet : ∀ s call answer s', allowed call → keeps s → world s call answer s' → keeps s') :
    program.Secures world keeps fun _ => True := by
  induction program with
  | done => exact .done trivial
  | call request next ih =>
    exact .call (fun s answer s' kept step => quiet s request answer s' uses.1 kept step)
      fun s answer s' _ _ => ih answer (uses.2 answer)

theorem Program.Secures.reaches {program : Program Call Answer α} {post : α → Prop}
    (secures : program.Secures world keeps post) (run : Reaches world before program events after)
    (start : keeps before) : keeps after := by
  induction run with
  | here => exact start
  | call step _ ih =>
    cases secures with
    | call kept rest => exact ih (rest _ _ _ start step) (kept _ _ _ start step)

theorem Program.Secures.executes {program : Program Call Answer α} {post : α → Prop} {value : α}
    (secures : program.Secures world keeps post)
    (run : Executes world before program events after value) (start : keeps before) :
    keeps after ∧ post value := by
  induction run with
  | done =>
    cases secures with
    | done met => exact ⟨start, met⟩
  | call step _ ih =>
    cases secures with
    | call kept rest => exact ih (rest _ _ _ start step) (kept _ _ _ start step)

section Fallible

variable {post : β → Prop} {failed : ε → Prop} {middle : α → Prop}

def Either (post : α → Prop) (failed : ε → Prop) : Except ε α → Prop
  | .ok value => post value
  | .error e => failed e

theorem secures_run_pure {value : α} (met : middle value) :
    (pure value : ExceptT ε (Program Call Answer) α).run.Secures world keeps (Either middle failed) :=
  .done met

theorem secures_run_throw {e : ε} (met : failed e) :
    (throw e : ExceptT ε (Program Call Answer) α).run.Secures world keeps (Either middle failed) :=
  .done met

theorem secures_run_lift {program : Program Call Answer α}
    (secures : program.Secures world keeps middle) :
    (liftM program : ExceptT ε (Program Call Answer) α).run.Secures world keeps
      (Either middle failed) :=
  secures_bind secures fun _ met => .done met

theorem secures_run_bind {program : ExceptT ε (Program Call Answer) α}
    {rest : α → ExceptT ε (Program Call Answer) β}
    (first : program.run.Secures world keeps (Either middle failed))
    (second : ∀ value, middle value → (rest value).run.Secures world keeps (Either post failed)) :
    (program >>= rest).run.Secures world keeps (Either post failed) := by
  rw [ExceptT.run_bind]
  refine secures_bind first ?_
  intro result met
  cases result with
  | error e => exact .done met
  | ok value => exact second value met

theorem secures_run_call {call : Call} {rest : Answer call → ExceptT ε (Program Call Answer) β}
    {post : Except ε β → Prop}
    (each : ∀ s answer s', keeps s → world s call answer s' →
      keeps s' ∧ (rest answer).run.Secures world keeps post) :
    ((liftM (Program.request call : Program Call Answer (Answer call)) :
      ExceptT ε (Program Call Answer) (Answer call)) >>= rest).run.Secures world keeps post :=
  .call (fun s answer s' kept step => (each s answer s' kept step).1)
    fun s answer s' kept step => (each s answer s' kept step).2

theorem secures_run_foldlM {body : β → ι → ExceptT ε (Program Call Answer) β} (items : List ι)
    {start : β} (initial : post start)
    (each : ∀ item ∈ items, ∀ value, post value →
      (body value item).run.Secures world keeps (Either post failed)) :
    (items.foldlM body start).run.Secures world keeps (Either post failed) := by
  induction items generalizing start with
  | nil => exact secures_run_pure initial
  | cons item rest ih =>
    rw [List.foldlM_cons]
    refine secures_run_bind (each item (List.mem_cons_self ..) start initial) ?_
    intro next met
    exact ih met fun other member => each other (List.mem_cons_of_mem _ member)

end Fallible

/-- The world that is left as long as no call of a kind is made. -/
def World.until (goal : Call → Prop) (world : World Call Answer State) :
    World Call Answer State := fun before request answer after =>
  ¬ goal request ∧ world before request answer after

theorem Executes.until_or {program : Program Call Answer α} {value : α}
    (run : Executes world before program events after value) (goal : Call → Prop) :
    (∃ event ∈ events, goal event.request) ∨
      Executes (world.until goal) before program events after value := by
  induction run with
  | done => exact .inr (.done _ _)
  | @call _ _ _ request answer _ _ _ step _ ih =>
    by_cases made : goal request
    · exact .inl ⟨⟨request, answer⟩, List.mem_cons_self .., made⟩
    · rcases ih with ⟨event, member, reached⟩ | rest
      · exact .inl ⟨event, List.mem_cons_of_mem _ member, reached⟩
      · exact .inr (.call ⟨made, step⟩ rest)

end FreenetMigrate.Calls
