import FreenetMigrate.Probe.Driver

namespace FreenetMigrate.Probe

open PointerClient (ContractInstanceId Step)

inductive Reading (State : Type)
  | real (state : State)
  | miss
  | silence

abbrev Row : Type := ContractInstanceId × ProbeAnswer

/-- What a probe is started with, but for its candidates. -/
structure Rules (State : Type) where
  ops : ProbeStateOps State
  policy : SelectionPolicy
  continuing : Bool
  snapshot : State

/-- What a probe comes to: whom it hears, in order, and how it ends. -/
structure Course (State : Type) where
  heard : List Row
  outcome : Outcome State

section Reference

variable {State : Type}

def ProbeAnswer.read (ops : ProbeStateOps State) : ProbeAnswer → Reading State
  | .state bytes => match ops.decode bytes with
    | some found => if ops.isReal found then .real found else .miss
    | none => .miss
  | .absent => .miss
  | .unknown => .silence

def ProbeAnswer.deliver (id : ContractInstanceId) : ProbeAnswer → DriverCall
  | .state bytes => .onResponse id bytes
  | .absent => .onAbsent id
  | .unknown => .onUnknown id

def Course.behind (heard : List Row) (course : Course State) : Course State :=
  ⟨heard ++ course.heard, course.outcome⟩

@[simp] theorem Course.behind_nil (course : Course State) : course.behind [] = course := rfl

theorem Course.behind_append (first second : List Row) (course : Course State) :
    course.behind (first ++ second) = (course.behind second).behind first := by
  simp only [Course.behind, List.append_assoc]

namespace Rules

variable (rules : Rules State)

def halts : Bool := rules.policy.unknownTerminates && !rules.continuing

def exhausted (fold : Option (ContractInstanceId × State)) (unresolved left : List ContractInstanceId) :
    Outcome State :=
  let unresolved := left.foldl addUnresolved unresolved
  match fold with
  | some (source, folded) => .recovered
    (rules.ops.prepareForward (rules.ops.mergeWithLocal folded rules.snapshot)) source
    (!left.isEmpty) unresolved
  | none =>
    if unresolved.isEmpty then .seedLocal (rules.ops.prepareForward rules.snapshot)
    else .indeterminate (rules.ops.prepareForward rules.snapshot) unresolved

theorem exhausted_some (source : ContractInstanceId) (folded : State)
    (unresolved left : List ContractInstanceId) :
    rules.exhausted (some (source, folded)) unresolved left = .recovered
      (rules.ops.prepareForward (rules.ops.mergeWithLocal folded rules.snapshot)) source
      (!left.isEmpty) (left.foldl addUnresolved unresolved) := rfl

theorem exhausted_none (unresolved left : List ContractInstanceId) :
    rules.exhausted none unresolved left =
      if (left.foldl addUnresolved unresolved).isEmpty then
        .seedLocal (rules.ops.prepareForward rules.snapshot)
      else .indeterminate (rules.ops.prepareForward rules.snapshot)
        (left.foldl addUnresolved unresolved) := rfl

/-- An older real state joins the fold of the newer ones. -/
def foldIn (fold : Option (ContractInstanceId × State)) (id : ContractInstanceId) (state : State) :
    ContractInstanceId × State :=
  match fold with
  | none => (id, state)
  | some (source, folded) => (source, rules.ops.mergeGenerations folded state)

/-- The reference: the candidates in order, each with its answer, and no events. -/
def course : Nat → List Row → Option (ContractInstanceId × State) → List ContractInstanceId →
    Course State
  | _, [], fold, unresolved => ⟨[], rules.exhausted fold unresolved []⟩
  | 0, row :: rows, fold, unresolved =>
    ⟨[], rules.exhausted fold unresolved ((row :: rows).map Prod.fst)⟩
  | hops + 1, (id, answer) :: rows, fold, unresolved =>
    match answer.read rules.ops with
    | .real state =>
      match rules.policy with
      | .newestFirstWins => ⟨[(id, answer)], .recovered
          (rules.ops.prepareForward (rules.ops.mergeWithLocal state rules.snapshot)) id false unresolved⟩
      | .foldAll => (course hops rows (some (rules.foldIn fold id state)) unresolved).behind [(id, answer)]
    | .miss => (course hops rows fold unresolved).behind [(id, answer)]
    | .silence =>
      if rules.halts then ⟨[(id, answer)], .indeterminate (rules.ops.prepareForward rules.snapshot)
        ((rows.map Prod.fst).foldl addUnresolved (addUnresolved unresolved id))⟩
      else (course hops rows fold (addUnresolved unresolved id)).behind [(id, answer)]

variable {rules} {id : ContractInstanceId} {answer : ProbeAnswer} {state : State}

theorem course_newest (hops : Nat) (rows : List Row) (fold : Option (ContractInstanceId × State))
    (unresolved : List ContractInstanceId) (read : answer.read rules.ops = .real state)
    (policy : rules.policy = .newestFirstWins) :
    rules.course (hops + 1) ((id, answer) :: rows) fold unresolved = ⟨[(id, answer)], .recovered
      (rules.ops.prepareForward (rules.ops.mergeWithLocal state rules.snapshot)) id false unresolved⟩ := by
  rw [course]
  simp only [read, policy]

theorem course_fold (hops : Nat) (rows : List Row) (fold : Option (ContractInstanceId × State))
    (unresolved : List ContractInstanceId) (read : answer.read rules.ops = .real state)
    (policy : rules.policy = .foldAll) :
    rules.course (hops + 1) ((id, answer) :: rows) fold unresolved =
      (rules.course hops rows (some (rules.foldIn fold id state)) unresolved).behind [(id, answer)] := by
  rw [course]
  simp only [read, policy]

theorem course_miss (hops : Nat) (rows : List Row) (fold : Option (ContractInstanceId × State))
    (unresolved : List ContractInstanceId) (read : answer.read rules.ops = .miss) :
    rules.course (hops + 1) ((id, answer) :: rows) fold unresolved =
      (rules.course hops rows fold unresolved).behind [(id, answer)] := by
  rw [course]
  simp only [read]

theorem course_silence (hops : Nat) (rows : List Row) (fold : Option (ContractInstanceId × State))
    (unresolved : List ContractInstanceId) (read : answer.read rules.ops = .silence) :
    rules.course (hops + 1) ((id, answer) :: rows) fold unresolved =
      if rules.halts then ⟨[(id, answer)], .indeterminate (rules.ops.prepareForward rules.snapshot)
        ((rows.map Prod.fst).foldl addUnresolved (addUnresolved unresolved id))⟩
      else (rules.course hops rows fold (addUnresolved unresolved id)).behind [(id, answer)] := by
  rw [course]
  simp only [read]

end Rules

end Reference

def reference {State : Type} (ops : ProbeStateOps State) (snapshot : State) (policy : SelectionPolicy)
    (maxHops : Nat) (continuing : Bool) (rows : List Row) : Course State :=
  if rows.isEmpty then ⟨[], .noLegacy snapshot⟩
  else Rules.course ⟨ops, policy, continuing, snapshot⟩ maxHops rows none []

section Courses

variable {State : Type}

def hit (ops : ProbeStateOps State) (row : Row) : Option (ContractInstanceId × State) :=
  match row.2.read ops with
  | .real state => some (row.1, state)
  | _ => none

def silent (rows : List Row) : List ContractInstanceId :=
  (rows.filter fun row => row.2 = .unknown).map Prod.fst

theorem read_silence {ops : ProbeStateOps State} {answer : ProbeAnswer} :
    answer.read ops = .silence ↔ answer = .unknown := by
  cases answer with
  | state bytes =>
    simp only [ProbeAnswer.read, reduceCtorEq, iff_false]
    split
    · split <;> simp
    · simp
  | absent => simp [ProbeAnswer.read]
  | unknown => simp [ProbeAnswer.read]

/-- The ways a reference course can go: a real state is adopted, silence halts it, or everybody the
    hop cap allows is heard. -/
inductive Comes (rules : Rules State) (hops : Nat) (rows : List Row)
    (fold : Option (ContractInstanceId × State)) (unresolved : List ContractInstanceId) :
    Course State → Prop
  | adopted {missed later : List Row} {id : ContractInstanceId} {answer : ProbeAnswer} {state : State}
      (policy : rules.policy = .newestFirstWins) (split : rows = missed ++ (id, answer) :: later)
      (real : answer.read rules.ops = .real state) :
      Comes rules hops rows fold unresolved ⟨missed ++ [(id, answer)], .recovered
        (rules.ops.prepareForward (rules.ops.mergeWithLocal state rules.snapshot)) id false
        ((silent missed).foldl addUnresolved unresolved)⟩
  | halted {missed later : List Row} {id : ContractInstanceId} (halts : rules.halts = true)
      (split : rows = missed ++ (id, .unknown) :: later)
      (unfound : missed.filterMap (hit rules.ops) = []) :
      Comes rules hops rows fold unresolved ⟨missed ++ [(id, .unknown)], .indeterminate
        (rules.ops.prepareForward rules.snapshot)
        ((later.map Prod.fst).foldl addUnresolved
          ((silent (missed ++ [(id, .unknown)])).foldl addUnresolved unresolved))⟩
  | swept (missed : rules.policy = .newestFirstWins → (rows.take hops).filterMap (hit rules.ops) = []) :
      Comes rules hops rows fold unresolved ⟨rows.take hops, rules.exhausted
        (((rows.take hops).filterMap (hit rules.ops)).foldl
          (fun fold row => some (rules.foldIn fold row.1 row.2)) fold)
        ((silent (rows.take hops)).foldl addUnresolved unresolved) ((rows.drop hops).map Prod.fst)⟩

variable {rules : Rules State} {hops : Nat} {rows : List Row}
  {fold : Option (ContractInstanceId × State)} {unresolved : List ContractInstanceId}
  {course : Course State}

theorem Comes.behind (row : Row) (newest : rules.policy = .newestFirstWins → hit rules.ops row = none)
    (comes : Comes rules hops rows ([row].filterMap (hit rules.ops) |>.foldl
      (fun fold row => some (rules.foldIn fold row.1 row.2)) fold)
      ((silent [row]).foldl addUnresolved unresolved) course) :
    Comes rules (hops + 1) (row :: rows) fold unresolved (course.behind [row]) := by
  have joined : ∀ others : List Row, (silent others).foldl addUnresolved
      ((silent [row]).foldl addUnresolved unresolved) =
        (silent (row :: others)).foldl addUnresolved unresolved := by
    intro others
    rw [← List.foldl_append, silent, silent, ← List.map_append, ← List.filter_append]
    rfl
  cases comes with
  | @adopted missed later id answer state policy split real =>
    rw [joined]
    have longer : row :: rows = (row :: missed) ++ (id, answer) :: later := by
      rw [split, List.cons_append]
    exact .adopted policy longer real
  | @halted missed later id halts split unfound =>
    rw [joined]
    have policy := SelectionPolicy.newest_of_terminates halts
    have longer : row :: rows = (row :: missed) ++ (id, .unknown) :: later := by
      rw [split, List.cons_append]
    refine .halted halts longer ?_
    rw [List.filterMap_cons_none (newest policy), unfound]
  | swept missed =>
    rw [joined, ← List.foldl_append, ← List.filterMap_append]
    refine .swept ?_
    intro policy
    rw [List.take_succ_cons, List.filterMap_cons_none (newest policy)]
    exact missed policy

theorem comes (rules : Rules State) (hops : Nat) (rows : List Row)
    (fold : Option (ContractInstanceId × State)) (unresolved : List ContractInstanceId) :
    Comes rules hops rows fold unresolved (rules.course hops rows fold unresolved) := by
  induction rows generalizing hops fold unresolved with
  | nil =>
    cases hops <;> exact .swept fun _ => rfl
  | cons row rows ih =>
    cases hops with
    | zero => exact .swept fun _ => rfl
    | succ hops =>
      obtain ⟨id, answer⟩ := row
      cases read : answer.read rules.ops with
      | real state =>
        have told : answer ≠ .unknown := by
          rintro rfl
          cases read
        rcases rules.policy.newest_or_fold with policy | policy
        · rw [Rules.course_newest _ _ _ _ read policy]
          exact .adopted policy (List.nil_append _).symm read
        · rw [Rules.course_fold _ _ _ _ read policy]
          refine .behind (id, answer) ?_ ?_
          · intro newest
            rw [policy] at newest
            cases newest
          · simp only [hit, read, List.filterMap_cons, List.filterMap_nil, List.foldl_cons,
              List.foldl_nil, silent, told, List.filter_cons, decide_false, Bool.false_eq_true,
              if_false, List.filter_nil, List.map_nil]
            exact ih ..
      | miss =>
        have told : answer ≠ .unknown := by
          rintro rfl
          cases read
        rw [Rules.course_miss _ _ _ _ read]
        refine .behind (id, answer) (fun _ => by simp only [hit, read]) ?_
        simp only [hit, read, List.filterMap_cons, List.filterMap_nil, List.foldl_nil, silent, told,
          List.filter_cons, decide_false, Bool.false_eq_true, if_false, List.filter_nil, List.map_nil]
        exact ih ..
      | silence =>
        rw [Rules.course_silence _ _ _ _ read]
        obtain rfl := read_silence.mp read
        split
        · rename_i halts
          exact .halted halts (List.nil_append _).symm rfl
        · refine .behind (id, .unknown) (fun _ => by simp only [hit, read]) ?_
          simp only [hit, read, List.filterMap_cons, List.filterMap_nil, List.foldl_nil, silent,
            List.filter_cons, decide_true, if_true, List.filter_nil, List.map_cons, List.map_nil,
            List.foldl_cons]
          exact ih ..

end Courses

end FreenetMigrate.Probe
