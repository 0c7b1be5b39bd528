import FreenetMigrate.Calls.Program
import Mathlib.Data.List.Chain

namespace FreenetMigrate.Calls

variable {Call : Type} {Answer : Call → Type} {State α β ε : Type}

/-- A program makes no call outside `allowed`, whatever it is answered. -/
def Program.Uses (allowed : Call → Prop) : Program Call Answer α → Prop
  | .done _ => True
  | .call request next => allowed request ∧ ∀ answer, (next answer).Uses allowed

variable {allowed : Call → Prop} {world : World Call Answer State} {before after : State}
  {events : List (Event Call Answer)}

theorem uses_pure (value : α) : (pure value : Program Call Answer α).Uses allowed := trivial

theorem uses_request {call : Call} (permitted : allowed call) :
    (Program.request call : Program Call Answer (Answer call)).Uses allowed :=
  ⟨permitted, fun _ => trivial⟩

theorem uses_bind {program : Program Call Answer α} {rest : α → Program Call Answer β}
    (first : program.Uses allowed) (second : ∀ value, (rest value).Uses allowed) :
    (program >>= rest).Uses allowed := by
  induction program with
  | done value => exact second value
  | call request next ih => exact ⟨first.1, fun answer => ih answer (first.2 answer)⟩

theorem uses_foldlM {ι : Type} {body : β → ι → Program Call Answer β} (items : List ι) (start : β)
    (each : ∀ value item, (body value item).Uses allowed) :
    (items.foldlM body start).Uses allowed := by
  induction items generalizing start with
  | nil => exact uses_pure start
  | cons item rest ih =>
    rw [List.foldlM_cons]
    exact uses_bind (each start item) ih

theorem Program.Uses.mono {program : Program Call Answer α} {wider : Call → Prop}
    (uses : program.Uses allowed) (implied : ∀ call, allowed call → wider call) :
    program.Uses wider := by
  induction program with
  | done => trivial
  | call request next ih => exact ⟨implied _ uses.1, fun answer => ih answer (uses.2 answer)⟩

def Only (allowed : Call → Prop) (events : List (Event Call Answer)) : Prop :=
  ∀ event ∈ events, allowed event.request

@[simp] theorem only_nil : Only allowed ([] : List (Event Call Answer)) := by simp [Only]

@[simp] theorem only_cons {event : Event Call Answer} :
    Only allowed (event :: events) ↔ allowed event.request ∧ Only allowed events :=
  List.forall_mem_cons

@[simp] theorem only_append {more : List (Event Call Answer)} :
    Only allowed (events ++ more) ↔ Only allowed events ∧ Only allowed more :=
  List.forall_mem_append

theorem Only.mono {wider : Call → Prop} (only : Only allowed events)
    (implied : ∀ call, allowed call → wider call) : Only wider events :=
  fun event member => implied _ (only event member)

theorem Executes.only {program : Program Call Answer α} {value : α}
    (run : Executes world before program events after value) (uses : program.Uses allowed) :
    Only allowed events := by
  induction run with
  | done => simp
  | call step _ ih => exact only_cons.mpr ⟨uses.1, ih (uses.2 _)⟩

inductive Steps (world : World Call Answer State) :
    State → List (Event Call Answer) → State → Prop
  | nil (state : State) : Steps world state [] state
  | cons {before middle after : State} {request : Call} {answer : Answer request}
      {events : List (Event Call Answer)} (step : world before request answer middle)
      (rest : Steps world middle events after) : Steps world before (⟨request, answer⟩ :: events) after

theorem Reaches.steps {program : Program Call Answer α}
    (run : Reaches world before program events after) : Steps world before events after := by
  induction run with
  | here => exact .nil _
  | call step _ ih => exact .cons step ih

theorem Executes.steps {program : Program Call Answer α} {value : α}
    (run : Executes world before program events after value) : Steps world before events after :=
  run.reaches.steps

/-- What every call of a kind preserves, a history of only such calls preserved. -/
theorem Steps.frame {holds : State → Prop} (steps : Steps world before events after)
    (only : Only allowed events)
    (preserved : ∀ s call answer s', allowed call → world s call answer s' → holds s → holds s')
    (start : holds before) : holds after := by
  induction steps with
  | nil => exact start
  | cons step _ ih =>
    obtain ⟨first, rest⟩ := only_cons.mp only
    exact ih rest (preserved _ _ _ _ first step start)

section Follows

variable {ok : List (Event Call Answer) → Event Call Answer → Prop}
  {past more : List (Event Call Answer)} {event : Event Call Answer}

def Follows (ok : List (Event Call Answer) → Event Call Answer → Prop) :
    List (Event Call Answer) → List (Event Call Answer) → Prop
  | _, [] => True
  | past, event :: rest => ok past event ∧ Follows ok (past ++ [event]) rest

@[simp] theorem follows_nil : Follows ok past [] := trivial

@[simp] theorem follows_cons :
    Follows ok past (event :: events) ↔ ok past event ∧ Follows ok (past ++ [event]) events := Iff.rfl

@[simp] theorem follows_append :
    Follows ok past (events ++ more) ↔ Follows ok past events ∧ Follows ok (past ++ events) more := by
  induction events generalizing past with
  | nil => simp
  | cons event rest ih => simp [ih, and_assoc]

theorem follows_of_forall (each : ∀ event ∈ events, ∀ before, past ⊆ before → ok before event) :
    Follows ok past events := by
  induction events generalizing past with
  | nil => trivial
  | cons event rest ih =>
    refine ⟨each event (List.mem_cons_self ..) past (List.Subset.refl past), ih ?_⟩
    intro later member before goesOn
    exact each later (List.mem_cons_of_mem _ member) before
      (List.Subset.trans (List.subset_append_left ..) goesOn)

theorem Follows.mono {wider : List (Event Call Answer) → Event Call Answer → Prop}
    (follows : Follows ok past events) (implied : ∀ before event, ok before event → wider before event) :
    Follows wider past events := by
  induction events generalizing past with
  | nil => trivial
  | cons event rest ih => exact ⟨implied _ _ follows.1, ih follows.2⟩

theorem Follows.split {before after : List (Event Call Answer)}
    (follows : Follows ok past (before ++ event :: after)) : ok (past ++ before) event := by
  rw [follows_append] at follows
  exact follows.2.1

end Follows

theorem invariant_of_chain {ι : Type} {starts ends : ι → State} {runs : List ι} (holds : State → Prop)
    (chained : runs.IsChain fun run next => ends run = starts next)
    (start : ∀ first ∈ runs.head?, holds (starts first))
    (each : ∀ run ∈ runs, holds (starts run) → holds (ends run)) :
    ∀ run ∈ runs, holds (starts run) ∧ holds (ends run) := by
  induction runs with
  | nil => exact fun _ absent => nomatch absent
  | cons run rest ih =>
    obtain ⟨link, links⟩ := List.isChain_cons.mp chained
    have now := start run rfl
    have after := each run (List.mem_cons_self ..) now
    have later := ih links (fun next first => link next first ▸ after)
      fun next member => each next (List.mem_cons_of_mem _ member)
    exact List.forall_mem_cons.mpr ⟨⟨now, after⟩, later⟩

def anything : World Call Answer State := fun _ _ _ _ => True

theorem executes_anything (program : Program Call Answer α)
    (handler : State → (request : Call) → Answer request × State) (start : State) :
    Executes anything start program (program.run handler start).1 (program.run handler start).2.1
      (program.run handler start).2.2 :=
  executes_run (fun _ _ => trivial) start

/-- The rule of a call: its answer, then the rest of the program on it. -/
theorem executes_call {call : Call} {rest : Answer call → Program Call Answer β} {result : β} :
    Executes world before (Program.request call >>= rest) events after result ↔
      ∃ answer middle remaining, events = ⟨call, answer⟩ :: remaining ∧
        world before call answer middle ∧
        Executes world middle (rest answer) remaining after result := by
  constructor
  · intro run
    cases run with
    | call step remaining => exact ⟨_, _, _, rfl, step, remaining⟩
  · rintro ⟨answer, middle, remaining, rfl, step, tail⟩
    exact .call step tail

section Fallible

/-- The rule of `?`: an error ends the run, a value goes on. -/
theorem executes_run_bind {program : ExceptT ε (Program Call Answer) α}
    {rest : α → ExceptT ε (Program Call Answer) β} {result : Except ε β} :
    Executes world before (program >>= rest).run events after result ↔
      (∃ e, result = .error e ∧ Executes world before program.run events after (.error e)) ∨
      ∃ first middle value second, events = first ++ second ∧
        Executes world before program.run first middle (.ok value) ∧
        Executes world middle (rest value).run second after result := by
  rw [ExceptT.run_bind, executes_bind]
  constructor
  · rintro ⟨first, middle, value, second, rfl, run, remaining⟩
    cases value with
    | error e =>
      obtain ⟨rfl, rfl, rfl⟩ := executes_pure.mp remaining
      exact .inl ⟨e, rfl, by simpa using run⟩
    | ok value => exact .inr ⟨first, middle, value, second, rfl, run, remaining⟩
  · rintro (⟨e, rfl, run⟩ | ⟨first, middle, value, second, rfl, run, remaining⟩)
    · exact ⟨events, after, .error e, [], by simp, run, executes_pure.mpr ⟨rfl, rfl, rfl⟩⟩
    · exact ⟨first, middle, .ok value, second, rfl, run, remaining⟩

theorem executes_run_bind_ok {program : ExceptT ε (Program Call Answer) α}
    {rest : α → ExceptT ε (Program Call Answer) β} {result : β}
    (run : Executes world before (program >>= rest).run events after (.ok result)) :
    ∃ first middle value second, events = first ++ second ∧
      Executes world before program.run first middle (.ok value) ∧
      Executes world middle (rest value).run second after (.ok result) := by
  rcases executes_run_bind.mp run with ⟨e, failed, -⟩ | found
  · cases failed
  · exact found

theorem executes_run_pure {value : α} {result : Except ε α} :
    Executes world before (pure value : ExceptT ε (Program Call Answer) α).run events after result ↔
      events = [] ∧ after = before ∧ result = Except.ok value := executes_pure

theorem executes_run_throw {e : ε} {result : Except ε α} :
    Executes world before (throw e : ExceptT ε (Program Call Answer) α).run events after result ↔
      events = [] ∧ after = before ∧ result = .error e := executes_pure

theorem executes_run_lift {program : Program Call Answer α} {result : Except ε α} :
    Executes world before (liftM program : ExceptT ε (Program Call Answer) α).run events after
        result ↔
      ∃ value, result = .ok value ∧ Executes world before program events after value := by
  change Executes world before (program >>= fun value => pure (Except.ok value)) events after result ↔ _
  rw [executes_bind]
  constructor
  · rintro ⟨first, middle, value, second, rfl, run, done⟩
    obtain ⟨rfl, rfl, rfl⟩ := executes_pure.mp done
    exact ⟨value, rfl, by simpa using run⟩
  · rintro ⟨value, rfl, run⟩
    exact ⟨events, after, value, [], by simp, run, executes_pure.mpr ⟨rfl, rfl, rfl⟩⟩

/-- The rule of a program that cannot fail among steps that may. -/
theorem executes_run_bind_lift {program : Program Call Answer α}
    {rest : α → ExceptT ε (Program Call Answer) β} {result : Except ε β} :
    Executes world before
        ((liftM program : ExceptT ε (Program Call Answer) α) >>= rest).run events after result ↔
      ∃ first middle value second, events = first ++ second ∧
        Executes world before program first middle value ∧
        Executes world middle (rest value).run second after result := by
  rw [executes_run_bind]
  constructor
  · rintro (⟨e, -, failing⟩ | ⟨first, middle, value, second, rfl, lifted, remaining⟩)
    · obtain ⟨value, failed, run⟩ := executes_run_lift.mp failing
      cases failed
    · obtain ⟨value, same, run⟩ := executes_run_lift.mp lifted
      obtain rfl := Except.ok.inj same
      exact ⟨first, middle, _, second, rfl, run, remaining⟩
  · rintro ⟨first, middle, value, second, rfl, run, remaining⟩
    exact .inr ⟨first, middle, value, second, rfl, executes_run_lift.mpr ⟨value, rfl, run⟩, remaining⟩

theorem executes_run_call {call : Call} {rest : Answer call → ExceptT ε (Program Call Answer) β}
    {result : Except ε β} :
    Executes world before
        ((liftM (Program.request call : Program Call Answer (Answer call)) :
          ExceptT ε (Program Call Answer) (Answer call)) >>= rest).run events after result ↔
      ∃ answer middle remaining, events = ⟨call, answer⟩ :: remaining ∧
        world before call answer middle ∧
        Executes world middle (rest answer).run remaining after result := by
  constructor
  · intro run
    cases run with
    | call step remaining => exact ⟨_, _, _, rfl, step, remaining⟩
  · rintro ⟨answer, middle, remaining, rfl, step, tail⟩
    exact .call step tail

theorem uses_run_bind {program : ExceptT ε (Program Call Answer) α}
    {rest : α → ExceptT ε (Program Call Answer) β} (first : program.run.Uses allowed)
    (second : ∀ value, (rest value).run.Uses allowed) : (program >>= rest).run.Uses allowed := by
  rw [ExceptT.run_bind]
  refine uses_bind first ?_
  rintro (e | value)
  · exact uses_pure _
  · exact second value

theorem uses_run_lift {program : Program Call Answer α} (uses : program.Uses allowed) :
    (liftM program : ExceptT ε (Program Call Answer) α).run.Uses allowed :=
  uses_bind uses fun value => uses_pure (Except.ok value)

theorem uses_run_foldlM {ι : Type} {body : β → ι → ExceptT ε (Program Call Answer) β}
    (items : List ι) (start : β) (each : ∀ value item, (body value item).run.Uses allowed) :
    (items.foldlM body start).run.Uses allowed := by
  induction items generalizing start with
  | nil => exact uses_pure (Except.ok start)
  | cons item rest ih =>
    rw [List.foldlM_cons]
    exact uses_run_bind (each start item) ih

inductive Succeeds {ι : Type} (world : World Call Answer State)
    (body : β → ι → ExceptT ε (Program Call Answer) β) :
    State → β → List ι → List (Event Call Answer) → State → β → Prop
  | nil (state : State) (value : β) : Succeeds world body state value [] [] state value
  | cons {before middle after : State} {value next result : β} {item : ι} {items : List ι}
      {events more : List (Event Call Answer)}
      (round : Executes world before (body value item).run events middle (.ok next))
      (rest : Succeeds world body middle next items more after result) :
      Succeeds world body before value (item :: items) (events ++ more) after result

/-- The rule of a loop that a failing iteration ends. -/
theorem succeeds_of_executes {ι : Type} {body : β → ι → ExceptT ε (Program Call Answer) β}
    {items : List ι} {start result : β}
    (run : Executes world before (items.foldlM body start).run events after (.ok result)) :
    Succeeds world body before start items events after result := by
  induction items generalizing before events start with
  | nil =>
    obtain ⟨rfl, rfl, same⟩ := executes_run_pure.mp run
    obtain rfl := Except.ok.inj same
    exact .nil _ _
  | cons item rest ih =>
    rw [List.foldlM_cons] at run
    obtain ⟨first, middle, value, second, rfl, round, remaining⟩ := executes_run_bind_ok run
    exact .cons round (ih remaining)

end Fallible

structure Recorded (Call : Type) (Answer : Call → Type) (State : Type) where
  state : State
  log : List (Event Call Answer × State)

def recorded (world : World Call Answer State) : World Call Answer (Recorded Call Answer State) :=
  fun before request answer after => world before.state request answer after.state ∧
    after.log = before.log ++ [(⟨request, answer⟩, after.state)]

theorem Executes.recorded {program : Program Call Answer α} {value : α}
    (run : Executes world before program events after value)
    (past : List (Event Call Answer × State)) :
    ∃ log, log.map Prod.fst = events ∧
      Executes (Calls.recorded world) ⟨before, past⟩ program events ⟨after, past ++ log⟩ value := by
  induction run generalizing past with
  | done =>
    refine ⟨[], rfl, ?_⟩
    rw [List.append_nil]
    exact .done _ _
  | @call before middle after request answer next events value step rest ih =>
    obtain ⟨log, same, run⟩ := ih (past ++ [(⟨request, answer⟩, middle)])
    refine ⟨(⟨request, answer⟩, middle) :: log, by simp [same], ?_⟩
    rw [List.append_assoc, List.singleton_append] at run
    exact .call ⟨step, rfl⟩ run

theorem Program.completes (total : ∀ s call, ∃ answer s', world s call answer s')
    (program : Program Call Answer α) (start : State) :
    ∃ events final value, Executes world start program events final value := by
  induction program generalizing start with
  | done value => exact ⟨[], start, value, .done _ _⟩
  | call request next ih =>
    obtain ⟨answer, middle, step⟩ := total start request
    obtain ⟨events, final, value, run⟩ := ih answer middle
    exact ⟨_, final, value, .call step run⟩

/-- There a run that was stopped can be carried to its end. -/
theorem Reaches.completes {program : Program Call Answer α}
    (total : ∀ s call, ∃ answer s', world s call answer s')
    (run : Reaches world before program events after) :
    ∃ more final value, Executes world before program (events ++ more) final value := by
  induction run with
  | here state program => exact program.completes total state
  | call step _ ih =>
    obtain ⟨more, final, value, run⟩ := ih
    exact ⟨more, final, value, .call step run⟩

theorem Reaches.recorded {program : Program Call Answer α}
    (total : ∀ s call, ∃ answer s', world s call answer s')
    (run : Reaches world before program events after)
    (past : List (Event Call Answer × State)) :
    ∃ log rest final more value, log.map Prod.fst = events ∧
      ((log = [] ∧ after = before) ∨ ∃ front event, log = front ++ [(event, after)]) ∧
      Executes (Calls.recorded world) ⟨before, past⟩ program (events ++ more)
        ⟨final, past ++ log ++ rest⟩ value := by
  induction run generalizing past with
  | here state program =>
    obtain ⟨more, final, value, run⟩ := program.completes total state
    obtain ⟨log, -, kept⟩ := run.recorded past
    exact ⟨[], log, final, more, value, rfl, .inl ⟨rfl, rfl⟩, by simpa using kept⟩
  | @call before middle after request answer next events step reached ih =>
    obtain ⟨log, rest, final, more, value, same, last, run⟩ :=
      ih (past ++ [(⟨request, answer⟩, middle)])
    refine ⟨(⟨request, answer⟩, middle) :: log, rest, final, more, value, by simp [same], .inr ?_, ?_⟩
    · rcases last with ⟨rfl, rfl⟩ | ⟨front, event, rfl⟩
      · exact ⟨[], _, rfl⟩
      · exact ⟨_ :: front, event, rfl⟩
    · rw [List.append_assoc, List.append_assoc, List.singleton_append] at run
      rw [List.append_assoc, List.cons_append]
      exact .call ⟨step, rfl⟩ run

namespace Recorded

def history (p : Recorded Call Answer State) : List (Event Call Answer) := p.log.map Prod.fst

/-- A fact of the calls made and the state they left, at every point of a record. -/
structure Always (holds : List (Event Call Answer) → State → Prop)
    (p : Recorded Call Answer State) : Prop where
  now : holds p.history p.state
  before : ∀ earlier event left later, p.log = earlier ++ (event, left) :: later →
    holds (earlier.map Prod.fst ++ [event]) left

variable {holds : List (Event Call Answer) → State → Prop} {p p' : Recorded Call Answer State}

theorem always_start (now : holds [] before) :
    Always holds (⟨before, []⟩ : Recorded Call Answer State) := by
  refine ⟨now, ?_⟩
  intro earlier event left later same
  have absent := congrArg List.length same
  simp at absent

theorem history_step {call : Call} {answer : Answer call}
    (step : recorded world p call answer p') : p'.history = p.history ++ [⟨call, answer⟩] := by
  simp only [history, step.2, List.map_append, List.map_cons, List.map_nil]

theorem Always.step {call : Call} {answer : Answer call} (always : Always holds p)
    (step : recorded world p call answer p') (now : holds (p.history ++ [⟨call, answer⟩]) p'.state) :
    Always holds p' := by
  refine ⟨?_, ?_⟩
  · rw [history_step step]
    exact now
  · intro earlier event left later same
    rw [step.2] at same
    rcases List.eq_nil_or_concat later with rfl | ⟨more, last, rfl⟩
    · obtain ⟨rfl, last⟩ := List.append_inj' same rfl
      obtain ⟨rfl, rfl⟩ := Prod.mk.inj (List.cons.inj last).1
      exact now
    · have ordered : p.log ++ [(⟨call, answer⟩, p'.state)] =
          (earlier ++ (event, left) :: more) ++ [last] := by simpa using same
      obtain ⟨split, -⟩ := List.append_inj' ordered rfl
      exact always.before earlier event left more split

theorem Always.mono {more : List (Event Call Answer) → State → Prop} (always : Always holds p)
    (implied : ∀ past s, holds past s → more past s) : Always more p := by
  refine ⟨implied _ _ always.now, ?_⟩
  intro earlier event left later same
  exact implied _ _ (always.before earlier event left later same)

/-- What every call of a kind keeps, a history of only such calls keeps throughout. -/
theorem Always.frame (always : Always holds p) (steps : Steps (recorded world) p events p')
    (only : Only allowed events)
    (kept : ∀ past s call answer s', allowed call → world s call answer s' → holds past s →
      holds (past ++ [⟨call, answer⟩]) s') : Always holds p' := by
  induction steps with
  | nil => exact always
  | cons step _ ih =>
    obtain ⟨first, rest⟩ := only_cons.mp only
    have now := kept _ _ _ _ _ first step.1 always.now
    exact ih (always.step step now) rest

theorem history_steps (steps : Steps (recorded world) p events p') :
    p'.history = p.history ++ events := by
  induction steps with
  | nil => simp
  | cons step _ ih => rw [ih, history_step step, List.append_assoc, List.singleton_append]

end Recorded

/-- What holds throughout the record of every completed run holds of a run stopped anywhere. -/
theorem Reaches.always {program : Program Call Answer α}
    {holds : List (Event Call Answer) → State → Prop}
    (total : ∀ s call, ∃ answer s', world s call answer s')
    (run : Reaches world before program events after) (start : holds [] before)
    (completed : ∀ history final value,
      Executes (Calls.recorded world) ⟨before, []⟩ program history final value →
      final.Always holds) : holds events after := by
  obtain ⟨log, rest, final, more, value, same, last, finished⟩ := run.recorded total []
  have always := completed _ _ _ finished
  rcases last with ⟨rfl, rfl⟩ | ⟨front, event, rfl⟩
  · rw [← same]
    exact start
  · have now := always.before front event after rest (by simp)
    rw [← same, List.map_append, List.map_cons, List.map_nil]
    exact now

end FreenetMigrate.Calls
