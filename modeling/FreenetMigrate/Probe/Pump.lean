import FreenetMigrate.Probe.Recovery
import FreenetMigrate.Probe.Simulation

namespace FreenetMigrate.Probe

open PointerClient (ContractInstanceId Step)

/-- One GET, awaited. An error aborts the whole migration. -/
structure ProbeIo (Io Error : Type) where
  get : Io → ContractInstanceId → Except Error ProbeAnswer × Io

section Pump

variable {State Io Error : Type}

/-- The loop of `migrate_contract`. It fails where the code would panic, and where the fuel runs
    out. -/
def ProbeDriver.pump (io : ProbeIo Io Error) :
    Nat → ProbeDriver State → Io → Option (Except Error (Outcome State) × Io)
  | 0, _, _ => none
  | fuel + 1, driver, transport => do
    let (step, driver) ← driver.nextAction
    match step with
    | .get id =>
      match io.get transport id with
      | (.error error, transport) => return (.error error, transport)
      | (.ok answer, transport) =>
        let driver ← match answer with
          | .state bytes => driver.onResponse id bytes
          | .absent => driver.onAbsent id
          | .unknown => driver.onUnknown id
        driver.pump io fuel transport
    | .done =>
      let outcome ← driver.takeOutcome.1
      return (.ok outcome, transport)

/-- Every candidate is asked at most once, so the lineage's length is fuel enough. -/
def migrateContract (contractIdFromCodeHash : Fixed 32 → Parameters → ContractInstanceId)
    (ops : ProbeStateOps State) (io : ProbeIo Io Error) (transport : Io) (localSnapshot : State)
    (params : Parameters) (lineage : List ContractLineageEntry) (policy : SelectionPolicy) :
    Option (Except Error (Outcome State) × Io) :=
  (contractProbe contractIdFromCodeHash ops localSnapshot params lineage policy).pump io
    (lineage.length + 1) transport

variable {driver next : ProbeDriver State} {io : ProbeIo Io Error} {transport after : Io}
  {id : ContractInstanceId} {fuel : Nat}

theorem pump_done {outcome : Outcome State} (action : driver.nextAction = some (.done, next))
    (taken : next.takeOutcome.1 = some outcome) :
    driver.pump io (fuel + 1) transport = some (.ok outcome, transport) := by
  simp only [ProbeDriver.pump, action, Option.bind_eq_bind, Option.bind_some, taken]
  rfl

theorem pump_aborts {error : Error} (action : driver.nextAction = some (.get id, next))
    (aborts : io.get transport id = (.error error, after)) :
    driver.pump io (fuel + 1) transport = some (.error error, after) := by
  simp only [ProbeDriver.pump, action, Option.bind_eq_bind, Option.bind_some, aborts]
  rfl

theorem pump_answered {answer : ProbeAnswer} {told : ProbeDriver State}
    (action : driver.nextAction = some (.get id, next))
    (answered : io.get transport id = (.ok answer, after))
    (called : next.call (answer.deliver id) = some told) :
    driver.pump io (fuel + 1) transport = told.pump io fuel after := by
  simp only [ProbeDriver.pump, action, Option.bind_eq_bind, Option.bind_some, answered]
  cases answer with
  | state bytes =>
    have told : next.onResponse id bytes = some told := called
    simp only [told, Option.bind_some]
  | absent =>
    have told : next.onAbsent id = some told := called
    simp only [told, Option.bind_some]
  | unknown =>
    have told : next.onUnknown id = some told := called
    simp only [told, Option.bind_some]

def ProbeIo.Gives (io : ProbeIo Io Error) (assign : ContractInstanceId → ProbeAnswer) : Prop :=
  ∀ transport id, ∃ after, io.get transport id = (.ok (assign id), after)

variable {snapshot : State} {rows : List Row} {course : Course State}
  {assign : ContractInstanceId → ProbeAnswer}

/-- The loop comes to the outcome of the reference course. -/
theorem Heads.pump (heads : Heads snapshot rows course driver) (gives : io.Gives assign)
    (assigned : ∀ row ∈ rows, row.2 = assign row.1) (enough : rows.length < fuel) (transport : Io) :
    ∃ after, driver.pump io fuel transport = some (.ok course.outcome, after) := by
  induction fuel generalizing driver rows course transport with
  | zero => exact absurd enough (Nat.not_lt_zero _)
  | succ fuel ih =>
    rcases heads.asks with ⟨next, action, phase, -⟩ | ⟨id, next, action, outstanding, ahead, same⟩
    · refine ⟨transport, pump_done action ?_⟩
      rw [ProbeDriver.takeOutcome, phase]
    · have covered := ahead.rows
      rw [outstanding] at covered
      obtain ⟨⟨other, answer⟩, later, rfl, rfl, -⟩ := List.map_eq_cons_iff.mp covered
      obtain rfl : answer = assign other := assigned _ (List.mem_cons_self ..)
      obtain ⟨after, answered⟩ := gives transport other
      obtain ⟨told, rest, called, -, comes, onward⟩ := ahead.hears outstanding
      rw [pump_answered action answered called, ← same, comes]
      exact ih onward (fun row member => assigned row (List.mem_cons_of_mem _ member))
        (Nat.lt_of_succ_lt_succ enough) after

/-- Whatever its transport does, the loop returns: nothing panics, and the untaken outcome is there. -/
theorem Stands.pump {start : ProbeDriver State} {trace : ProbeTrace}
    (stands : Stands start snapshot trace driver) (enough : driver.waiting.length < fuel)
    (transport : Io) : ∃ result, driver.pump io fuel transport = some result := by
  induction fuel generalizing driver trace transport with
  | zero => exact absurd enough (Nat.not_lt_zero _)
  | succ fuel ih =>
    obtain ⟨next, called, onward⟩ := stands.call .nextAction
    obtain ⟨⟨step, same⟩, action, rfl⟩ := Option.map_eq_some_iff.mp called
    cases step with
    | done =>
      obtain ⟨outcome, taken⟩ := Option.isSome_iff_exists.mp (stands.has_outcome action)
      exact ⟨_, pump_done action taken⟩
    | get id =>
      have accepts : same.accepts id = true := accepts_iff.mpr (driver.nextAction_get action)
      rcases got : io.get transport id with ⟨error | answer, after⟩
      · exact ⟨_, pump_aborts action got⟩
      · obtain ⟨told, delivered, further⟩ := onward.call (answer.deliver id)
        rw [pump_answered action got delivered]
        refine ih further ?_ after
        have first := (moves_nextAction action).waiting.length_le
        have second := (moves_deliver delivered).waiting.length_le
        rw [log_accepted accepts] at second
        simp only [List.length_append, List.length_map, List.length_singleton] at first second
        omega

theorem length_fromLineage (contractIdFromCodeHash : Fixed 32 → Parameters → ContractInstanceId)
    (params : Parameters) (lineage : List ContractLineageEntry) :
    (NewestFirst.fromLineage contractIdFromCodeHash params lineage).candidates.length =
      lineage.length := by
  simp only [NewestFirst.fromLineage, NewestFirst.rows, List.length_map, List.length_insertionSort]

theorem migrateContract_returns (contractIdFromCodeHash : Fixed 32 → Parameters → ContractInstanceId)
    (ops : ProbeStateOps State) (localSnapshot : State) (params : Parameters)
    (lineage : List ContractLineageEntry) (policy : SelectionPolicy) (transport : Io) :
    ∃ result, migrateContract contractIdFromCodeHash ops io transport localSnapshot params lineage
      policy = some result := by
  have stands := stands_start ops localSnapshot
    (.fromLineage contractIdFromCodeHash params lineage) policy DEFAULT_MAX_PROBE_HOPS false
  apply stands.pump
  have waiting : ((ProbeDriver.new ops localSnapshot (.fromLineage contractIdFromCodeHash params lineage)
      policy).configured DEFAULT_MAX_PROBE_HOPS false).waiting =
        (NewestFirst.fromLineage contractIdFromCodeHash params lineage).candidates := rfl
  rw [waiting, length_fromLineage]
  exact Nat.lt_succ_self _

end Pump

end FreenetMigrate.Probe
