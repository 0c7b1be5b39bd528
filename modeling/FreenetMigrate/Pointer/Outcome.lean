import FreenetMigrate.Pointer.Floor

namespace FreenetMigrate.PointerClient

open Pointer

inductive Call
  | nextAction
  | onResponse (id : ContractInstanceId) (state : Bytes)
  | onAbsent (id : ContractInstanceId)
  | onUnreachable (id : ContractInstanceId)
  | takeOutcome
  deriving DecidableEq

inductive Reply
  | step (step : Step)
  | event (accepted : Bool)
  | outcome (taken : Option (Except PointerError PointerOutcome))

structure Exchange where
  call : Call
  reply : Reply

variable {VerifyingKey : Type} [Ed25519 VerifyingKey]

def perform (resolver : PointerResolver VerifyingKey) : Call → Reply × PointerResolver VerifyingKey
  | .nextAction => (.step resolver.nextAction.1, resolver.nextAction.2)
  | .onResponse id state => (.event (resolver.onResponse id state).1, (resolver.onResponse id state).2)
  | .onAbsent id => (.event (resolver.onAbsent id).1, (resolver.onAbsent id).2)
  | .onUnreachable id => (.event (resolver.onUnreachable id).1, (resolver.onUnreachable id).2)
  | .takeOutcome => (.outcome resolver.takeOutcome.1, resolver.takeOutcome.2)

def performNext (progress : List Exchange × PointerResolver VerifyingKey) (call : Call) :
    List Exchange × PointerResolver VerifyingKey :=
  (progress.1 ++ [⟨call, (perform progress.2 call).1⟩], (perform progress.2 call).2)

def performAll (resolver : PointerResolver VerifyingKey) (calls : List Call) :
    List Exchange × PointerResolver VerifyingKey :=
  calls.foldl performNext ([], resolver)

def Exchange.accepted : Exchange → Option Call
  | ⟨call, .event true⟩ => some call
  | _ => none

def Exchange.taken : Exchange → Option (Except PointerError PointerOutcome)
  | ⟨_, .outcome result⟩ => result
  | _ => none

def accepted (history : List Exchange) : List Call := history.filterMap Exchange.accepted

def taken (history : List Exchange) : List (Except PointerError PointerOutcome) :=
  history.filterMap Exchange.taken

def settles (resolver : PointerResolver VerifyingKey) :
    Call → Option (Except PointerError PointerOutcome)
  | .onResponse id state => if id = resolver.pointerId then some (verdict resolver (.state state)) else none
  | .onAbsent id => if id = resolver.pointerId then some (verdict resolver .absent) else none
  | .onUnreachable id => if id = resolver.pointerId then some (verdict resolver .unreachable) else none
  | _ => none

def getArmed (resolver : PointerResolver VerifyingKey) : Exchange :=
  ⟨.nextAction, .step (.get resolver.pointerId)⟩

/-- What the exchanges so far say about where a resolver that was `start` is now: still fetching
    with nothing accepted, or done with the result of the one accepted event, which is still
    there or was taken once. -/
inductive Explains (start : PointerResolver VerifyingKey) :
    PointerResolver VerifyingKey → List Exchange → Prop
  | fetching {outstanding : Bool} {history : List Exchange}
      (quiet : accepted history = []) (untaken : taken history = [])
      (asked : outstanding = true → getArmed start ∈ history) :
      Explains start { start with outstanding, phase := .fetching } history
  | done {before after : List Exchange} {call : Call} {left : Option (Except PointerError PointerOutcome)}
      {result : Except PointerError PointerOutcome}
      (asked : getArmed start ∈ before) (settled : settles start call = some result)
      (once : accepted before = [] ∧ accepted after = []) (untaken : taken before = [])
      (held : (left = some result ∧ taken after = []) ∨ (left = none ∧ taken after = [result])) :
      Explains start { start with outstanding := false, phase := .done left }
        (before ++ ⟨call, .event true⟩ :: after)

@[simp] theorem accepted_snoc (history : List Exchange) (exchange : Exchange) :
    accepted (history ++ [exchange]) = accepted history ++ exchange.accepted.toList := by
  cases found : exchange.accepted <;> simp [accepted, found]

@[simp] theorem taken_snoc (history : List Exchange) (exchange : Exchange) :
    taken (history ++ [exchange]) = taken history ++ exchange.taken.toList := by
  cases found : exchange.taken <;> simp [taken, found]

theorem perform_done (resolver : PointerResolver VerifyingKey)
    {left : Option (Except PointerError PointerOutcome)} (phase : resolver.phase = .done left)
    (call : Call) :
    (call = .takeOutcome ∧
      perform resolver call = (.outcome left, { resolver with phase := .done none })) ∨
    ((Exchange.mk call (perform resolver call).1).accepted = none ∧
      (Exchange.mk call (perform resolver call).1).taken = none ∧
      (perform resolver call).2 = resolver) := by
  cases call with
  | takeOutcome => exact .inl ⟨rfl, by simp only [perform, PointerResolver.takeOutcome, phase]⟩
  | nextAction =>
    refine .inr ⟨?_, ?_, ?_⟩ <;>
      simp [perform, PointerResolver.nextAction, phase, Exchange.accepted, Exchange.taken]
  | onResponse id state =>
    refine .inr ⟨?_, ?_, ?_⟩ <;>
      simp [perform, PointerResolver.onResponse, PointerResolver.accepts, phase, Exchange.accepted,
        Exchange.taken]
  | onAbsent id =>
    refine .inr ⟨?_, ?_, ?_⟩ <;>
      simp [perform, PointerResolver.onAbsent, PointerResolver.accepts, phase, Exchange.accepted,
        Exchange.taken]
  | onUnreachable id =>
    refine .inr ⟨?_, ?_, ?_⟩ <;>
      simp [perform, PointerResolver.onUnreachable, PointerResolver.accepts, phase,
        Exchange.accepted, Exchange.taken]

theorem perform_fetching (resolver : PointerResolver VerifyingKey) (phase : resolver.phase = .fetching)
    (call : Call) :
    (call = .nextAction ∧ perform resolver call =
      (.step (.get resolver.pointerId), { resolver with outstanding := true })) ∨
    (resolver.outstanding = true ∧ ∃ result, settles resolver call = some result ∧
      perform resolver call = (.event true, resolver.finish result)) ∨
    ((Exchange.mk call (perform resolver call).1).accepted = none ∧
      (Exchange.mk call (perform resolver call).1).taken = none ∧
      (perform resolver call).2 = resolver) := by
  cases call with
  | nextAction => exact .inl ⟨rfl, by simp only [perform, PointerResolver.nextAction, phase]⟩
  | takeOutcome =>
    refine .inr (.inr ⟨?_, ?_, ?_⟩) <;>
      simp [perform, PointerResolver.takeOutcome, phase, Exchange.accepted, Exchange.taken]
  | onResponse id state =>
    by_cases own : resolver.accepts id = true
    · have armed : resolver.outstanding = true ∧ id = resolver.pointerId := by
        simpa [PointerResolver.accepts, phase] using own
      exact .inr (.inl ⟨armed.1, _, if_pos armed.2, by
        simp only [perform, PointerResolver.onResponse, own, if_true, verdict]⟩)
    · refine .inr (.inr ⟨?_, ?_, ?_⟩) <;>
        simp [perform, PointerResolver.onResponse, own, Exchange.accepted, Exchange.taken]
  | onAbsent id =>
    by_cases own : resolver.accepts id = true
    · have armed : resolver.outstanding = true ∧ id = resolver.pointerId := by
        simpa [PointerResolver.accepts, phase] using own
      exact .inr (.inl ⟨armed.1, _, if_pos armed.2, by
        simp only [perform, PointerResolver.onAbsent, own, if_true, verdict]⟩)
    · refine .inr (.inr ⟨?_, ?_, ?_⟩) <;>
        simp [perform, PointerResolver.onAbsent, own, Exchange.accepted, Exchange.taken]
  | onUnreachable id =>
    by_cases own : resolver.accepts id = true
    · have armed : resolver.outstanding = true ∧ id = resolver.pointerId := by
        simpa [PointerResolver.accepts, phase] using own
      exact .inr (.inl ⟨armed.1, _, if_pos armed.2, by
        simp only [perform, PointerResolver.onUnreachable, own, if_true, verdict]⟩)
    · refine .inr (.inr ⟨?_, ?_, ?_⟩) <;>
        simp [perform, PointerResolver.onUnreachable, own, Exchange.accepted, Exchange.taken]

theorem explains_performNext {start resolver : PointerResolver VerifyingKey}
    {history : List Exchange} (explains : Explains start resolver history) (call : Call) :
    Explains start (performNext (history, resolver) call).2
      (performNext (history, resolver) call).1 := by
  cases explains with
  | @fetching outstanding _ quiet untaken asked =>
    simp only [performNext]
    rcases perform_fetching ({ start with outstanding, phase := .fetching }) rfl call
      with ⟨rfl, step⟩ | ⟨armed, result, settled, step⟩ | ⟨unaccepted, nothing, same⟩
    · rw [step]
      exact .fetching (by simp [quiet, Exchange.accepted]) (by simp [untaken, Exchange.taken])
        (fun _ => by simp [getArmed])
    · rw [step]
      have started : settles start call = some result := by
        rw [← settled]
        cases call <;> rfl
      exact .done (asked armed) started ⟨quiet, rfl⟩ untaken (.inl ⟨rfl, rfl⟩)
    · rw [same]
      exact .fetching (by simp [quiet, unaccepted]) (by simp [untaken, nothing])
        (fun set => List.mem_append_left _ (asked set))
  | @done before after event left result asked settled once untaken held =>
    simp only [performNext]
    rw [List.append_assoc, List.cons_append]
    rcases perform_done ({ start with outstanding := false, phase := .done left }) rfl call
      with ⟨rfl, step⟩ | ⟨unaccepted, nothing, same⟩
    · rw [step]
      refine .done asked settled ⟨once.1, by simp [once.2, Exchange.accepted]⟩ untaken (.inr ⟨rfl, ?_⟩)
      rcases held with ⟨rfl, empty⟩ | ⟨rfl, gone⟩
      · simp [empty, Exchange.taken]
      · simp [gone, Exchange.taken]
    · rw [same]
      exact .done asked settled ⟨once.1, by simp [once.2, unaccepted]⟩ untaken
        (by simpa [nothing] using held)

theorem explains_performAll {start : PointerResolver VerifyingKey} (calls : List Call)
    (fresh : start.outstanding = false) (phase : start.phase = .fetching) :
    Explains start (performAll start calls).2 (performAll start calls).1 := by
  have step (calls : List Call) : ∀ (resolver : PointerResolver VerifyingKey) (history : List Exchange),
      Explains start resolver history →
      Explains start (calls.foldl performNext (history, resolver)).2
        (calls.foldl performNext (history, resolver)).1 := by
    induction calls with
    | nil => intro resolver history explains; exact explains
    | cons call rest ih => intro resolver history explains; exact ih _ _ (explains_performNext explains call)
  refine step calls start [] ?_
  have same : start = { start with outstanding := false, phase := .fetching } := by
    cases start
    simp_all
  rw [same]
  exact .fetching rfl rfl (by simp)

omit [Ed25519 VerifyingKey] in
theorem order_published {resolver : PointerResolver VerifyingKey} {record : PointerRecord}
    {p : ResolvedPointer} (published : (resolver.order record).pointer = some p) :
    p = ⟨record.version, record.codeHash⟩ ∧ record.codeHash ≠ TOMBSTONE_CODE_HASH := by
  have kept (alive : ¬ record.isTombstone = true) : record.codeHash ≠ TOMBSTONE_CODE_HASH := by
    simpa [PointerRecord.isTombstone] using alive
  rcases order_cases resolver record with order | order | order | order <;> rw [order] at published
  · unfold PointerResolver.adopt at published
    split at published
    · cases published
    · rename_i alive
      exact ⟨(Option.some.inj published).symm, kept alive⟩
  · unfold PointerResolver.unchanged at published
    split at published
    · cases published
    · rename_i alive
      exact ⟨(Option.some.inj published).symm, kept alive⟩
  · cases published
  · cases published

omit [Ed25519 VerifyingKey] in
theorem order_withdrawn {resolver : PointerResolver VerifyingKey} {record : PointerRecord}
    {version : UInt32} (withdrawn : resolver.order record = .withdrawn version) :
    version = record.version ∧ record.codeHash = TOMBSTONE_CODE_HASH := by
  have gone (tombstone : record.isTombstone = true) : record.codeHash = TOMBSTONE_CODE_HASH := by
    simpa [PointerRecord.isTombstone] using tombstone
  rcases order_cases resolver record with order | order | order | order <;> rw [order] at withdrawn
  · unfold PointerResolver.adopt at withdrawn
    split at withdrawn
    · rename_i tombstone
      exact ⟨(PointerOutcome.withdrawn.inj withdrawn).symm, gone tombstone⟩
    · cases withdrawn
  · unfold PointerResolver.unchanged at withdrawn
    split at withdrawn
    · rename_i tombstone
      exact ⟨(PointerOutcome.withdrawn.inj withdrawn).symm, gone tombstone⟩
    · cases withdrawn
  · cases withdrawn
  · cases withdrawn

omit [Ed25519 VerifyingKey] in
theorem order_fallback (resolver : PointerResolver VerifyingKey) (record : PointerRecord) :
    (resolver.order record).mayUseBakedInFallback = false := by
  rcases order_cases resolver record with order | order | order | order <;> rw [order]
  · unfold PointerResolver.adopt
    split <;> rfl
  · unfold PointerResolver.unchanged
    split <;> rfl
  · rfl
  · rfl

/-- A response is judged unavailable, refused, or is a verified record's, which is ordered. -/
theorem judge_cases (resolver : PointerResolver VerifyingKey) (state : Bytes) :
    resolver.judge state = .ok .unavailable ∨ (∃ e, resolver.judge state = .error e) ∨
      ∃ record, decode state = .ok record ∧
        verify record resolver.params resolver.authorVk = .ok () ∧
        resolver.judge state = .ok (resolver.order record) := by
  cases found : certified resolver.params resolver.authorVk (.state state) with
  | none =>
    rcases judge_uncertified resolver found with judged | judged
    · exact .inl judged
    · exact .inr (.inl judged)
  | some record =>
    obtain ⟨same, verified⟩ := certified_eq_some.mp found
    obtain rfl := PointerFetch.state.inj same
    exact .inr (.inr ⟨record, decode_eq_ok.mpr rfl, verified, judge_certified verified⟩)

theorem verdict_ordered {resolver : PointerResolver VerifyingKey} {answer : PointerFetch}
    {outcome : PointerOutcome} (result : verdict resolver answer = .ok outcome) :
    outcome = .unavailable ∨ outcome = .neverPublished ∨ ∃ bytes record,
      answer = .state bytes ∧ decode bytes = .ok record ∧
      verify record resolver.params resolver.authorVk = .ok () ∧ outcome = resolver.order record := by
  cases answer with
  | unreachable => exact .inl (Except.ok.inj result).symm
  | absent =>
    simp only [verdict, Except.ok.injEq] at result
    rw [← result]
    split
    · exact .inl rfl
    · exact .inr (.inl rfl)
  | state bytes =>
    rw [verdict] at result
    rcases judge_cases resolver bytes with judged | ⟨e, judged⟩ | ⟨record, decoded, verified, judged⟩
    · exact .inl (Except.ok.inj (result.symm.trans judged))
    · cases result.symm.trans judged
    · exact .inr (.inr ⟨bytes, record, rfl, decoded, verified,
        Except.ok.inj (result.symm.trans judged)⟩)

def permitsFallback : Except PointerError PointerOutcome → Bool
  | .ok outcome => outcome.mayUseBakedInFallback
  | .error e => e.mayUseBakedInFallback

/-- Only an absent answer to a caller that never resolved anything unlocks the fallback. -/
theorem permitsFallback_verdict (resolver : PointerResolver VerifyingKey) (answer : PointerFetch) :
    permitsFallback (verdict resolver answer) = true ↔
      answer = .absent ∧ resolver.floor.version = 0 := by
  cases answer with
  | unreachable => simp [verdict, permitsFallback, PointerOutcome.mayUseBakedInFallback]
  | absent =>
    by_cases never : resolver.floor.version = 0
    · simp [verdict, permitsFallback, PointerFloor.hasEverResolved, never,
        PointerOutcome.mayUseBakedInFallback]
    · have resolved : 0 < resolver.floor.version := UInt32.pos_iff_ne_zero.mpr never
      simp [verdict, permitsFallback, PointerFloor.hasEverResolved, never, resolved,
        PointerOutcome.mayUseBakedInFallback]
  | state bytes =>
    simp only [reduceCtorEq, false_and, iff_false, Bool.not_eq_true, verdict]
    rcases judge_cases resolver bytes with judged | ⟨e, judged⟩ | ⟨record, -, -, judged⟩ <;>
      rw [judged]
    · rfl
    · rfl
    · exact order_fallback resolver record

structure Session where
  restarted : Bool
  calls : List Call

variable {contractId : Bytes → ContractInstanceId} {authorVk : VerifyingKey} {appId params : Bytes}

def exchanges (contractId : Bytes → ContractInstanceId) (authorVk : VerifyingKey) (appId : Bytes)
    (floor : PointerFloor) (session : Session) : Except PointerError (List Exchange) := do
  let floor ← floorBefore session.restarted floor
  let resolver ← PointerResolver.new contractId authorVk appId floor
  return (performAll resolver session.calls).1

def persistNext (contractId : Bytes → ContractInstanceId) (authorVk : VerifyingKey) (appId : Bytes)
    (floor : PointerFloor) (session : Session) : Except PointerError PointerFloor := do
  let history ← exchanges contractId authorVk appId floor session
  return persist floor (taken history).head?

def Resolved (floor : PointerFloor) : Prop :=
  ¬ (floor.version = 0 ∨ MAX_VERSION < floor.version) ∧ floor.codeHash.isSome

theorem resolved_nextFloor {outcome : PointerOutcome} {next : PointerFloor}
    (learned : outcome.nextFloor = some next) : Resolved next := by
  have published (r : ResolvedPointer)
      (built : (PointerFloor.atVersion r.version r.codeHash).toOption = some next) : Resolved next := by
    unfold PointerFloor.atVersion at built
    split at built
    · cases built
    · rename_i bound
      split at built
      · cases built
      · obtain rfl := Option.some.inj built
        exact ⟨bound, rfl⟩
  cases outcome with
  | resolved r => exact published r learned
  | unchanged r => exact published r learned
  | withdrawn version =>
    simp only [PointerOutcome.nextFloor, PointerFloor.withdrawnAt] at learned
    split at learned
    · cases learned
    · rename_i bound
      obtain rfl := Option.some.inj learned
      exact ⟨bound, rfl⟩
  | neverPublished => cases learned
  | stale => cases learned
  | competingRecord => cases learned
  | unavailable => cases learned

theorem floorBefore_resolved {floor : PointerFloor} (resolved : Resolved floor) (restarted : Bool) :
    floorBefore restarted floor = .ok floor := by
  obtain ⟨version, _ | codeHash⟩ := floor
  · cases resolved.2
  · cases restarted with
    | false => rfl
    | true =>
      have bound := resolved.1
      by_cases tombstone : codeHash = TOMBSTONE_CODE_HASH <;>
        simp_all [floorBefore, rebuild, PointerFloor.isWithdrawn, PointerFloor.withdrawnAt,
          PointerFloor.atVersion]

theorem resolved_persistNext {floor next : PointerFloor} {session : Session}
    (resolved : Resolved floor)
    (persisted : persistNext contractId authorVk appId floor session = .ok next) : Resolved next := by
  unfold persistNext at persisted
  cases ran : exchanges contractId authorVk appId floor session with
  | error e => simp [ran, Bind.bind, Except.bind] at persisted
  | ok history =>
    simp only [ran, Bind.bind, Except.bind, Pure.pure, Except.pure, Except.ok.injEq] at persisted
    rw [← persisted]
    unfold persist
    split
    · rename_i outcome _
      cases learned : outcome.nextFloor with
      | none => exact resolved
      | some next => exact resolved_nextFloor learned
    · exact resolved

theorem resolved_foldlM {floor last : PointerFloor} {sessions : List Session}
    (resolved : Resolved floor)
    (persisted : sessions.foldlM (persistNext contractId authorVk appId) floor = .ok last) :
    Resolved last := by
  induction sessions generalizing floor with
  | nil =>
    obtain rfl := Except.ok.inj persisted
    exact resolved
  | cons session rest ih =>
    rw [List.foldlM_cons] at persisted
    cases step : persistNext contractId authorVk appId floor session with
    | error e => simp [step, Bind.bind, Except.bind] at persisted
    | ok next =>
      rw [step] at persisted
      exact ih (resolved_persistNext resolved step) persisted

theorem new_eq (accepted : pointerParams authorVk appId = .ok params) (floor : PointerFloor) :
    PointerResolver.new contractId authorVk appId floor =
      .ok { params, authorVk, pointerId := contractId params, floor, outstanding := false,
            phase := .fetching } := by
  simp only [PointerResolver.new, accepted, Bind.bind, Except.bind, Pure.pure, Except.pure]

/-- Every result a caller takes is the verdict on the one event that was accepted, which came
    for the resolver's own id after a GET was armed. -/
theorem taken_verdict (start : PointerResolver VerifyingKey) (calls : List Call)
    (fresh : start.outstanding = false) (phase : start.phase = .fetching) :
    (accepted (performAll start calls).1).length ≤ 1 ∧ (taken (performAll start calls).1).length ≤ 1 ∧
    ∀ result ∈ taken (performAll start calls).1, ∃ before call after,
      (performAll start calls).1 = before ++ ⟨call, .event true⟩ :: after ∧
      getArmed start ∈ before ∧ settles start call = some result := by
  have explained := explains_performAll calls fresh phase
  generalize (performAll start calls).1 = history at explained
  generalize (performAll start calls).2 = resolver at explained
  cases explained with
  | fetching quiet untaken _ => simp [quiet, untaken]
  | @done before after call left result asked settled once untaken held =>
    have got : accepted (before ++ ⟨call, .event true⟩ :: after) = [call] := by
      simp only [accepted, List.filterMap_append, List.filterMap_cons, Exchange.accepted]
      rw [show before.filterMap Exchange.accepted = [] from once.1,
        show after.filterMap Exchange.accepted = [] from once.2]
      rfl
    have gave : taken (before ++ ⟨call, .event true⟩ :: after) = taken after := by
      simp only [taken, List.filterMap_append, List.filterMap_cons, Exchange.taken]
      rw [show before.filterMap Exchange.taken = [] from untaken]
      rfl
    rw [got, gave]
    refine ⟨le_rfl, ?_, ?_⟩
    · rcases held with ⟨-, empty⟩ | ⟨-, one⟩
      · simp [empty]
      · simp [one]
    · intro other member
      rcases held with ⟨-, empty⟩ | ⟨-, one⟩
      · simp [empty] at member
      · rw [one, List.mem_singleton] at member
        exact ⟨before, call, after, rfl, asked, member ▸ settled⟩

theorem settles_eq_some {start : PointerResolver VerifyingKey} {call : Call}
    {result : Except PointerError PointerOutcome} (settled : settles start call = some result) :
    ∃ answer, result = verdict start answer ∧
      call = match answer with
        | .state bytes => .onResponse start.pointerId bytes
        | .absent => .onAbsent start.pointerId
        | .unreachable => .onUnreachable start.pointerId := by
  cases call with
  | nextAction => cases settled
  | takeOutcome => cases settled
  | onResponse id bytes =>
    by_cases own : id = start.pointerId
    · simp only [settles, own, if_true, Option.some.injEq] at settled
      exact ⟨.state bytes, settled.symm, by rw [own]⟩
    · simp [settles, own] at settled
  | onAbsent id =>
    by_cases own : id = start.pointerId
    · simp only [settles, own, if_true, Option.some.injEq] at settled
      exact ⟨.absent, settled.symm, by rw [own]⟩
    · simp [settles, own] at settled
  | onUnreachable id =>
    by_cases own : id = start.pointerId
    · simp only [settles, own, if_true, Option.some.injEq] at settled
      exact ⟨.unreachable, settled.symm, by rw [own]⟩
    · simp [settles, own] at settled

def Vouched (contractId : Bytes → ContractInstanceId) (authorVk : VerifyingKey) (appId : Bytes)
    (call : Call) (record : PointerRecord) : Prop :=
  ∃ params bytes, pointerParams authorVk appId = .ok params ∧
    call = .onResponse (contractId params) bytes ∧ bytes.length = 100 ∧
    decode bytes = .ok record ∧ verify record params authorVk = .ok ()

theorem vouched_of_verdict (accepts : pointerParams authorVk appId = .ok params)
    {resolver : PointerResolver VerifyingKey} (ours : resolver.params = params)
    (author : resolver.authorVk = authorVk) (addressed : resolver.pointerId = contractId params)
    {answer : PointerFetch} {outcome : PointerOutcome} (result : verdict resolver answer = .ok outcome) :
    outcome = .unavailable ∨ outcome = .neverPublished ∨ ∃ bytes record, answer = .state bytes ∧
      Vouched contractId authorVk appId (.onResponse resolver.pointerId bytes) record ∧
      outcome = resolver.order record := by
  rcases verdict_ordered result with rfl | rfl | ⟨bytes, record, rfl, decoded, verified, ordered⟩
  · exact .inl rfl
  · exact .inr (.inl rfl)
  · have length : bytes.length = 100 := by
      rw [decode_eq_ok.mp decoded]
      exact record.encode_length
    rw [ours, author] at verified
    refine .inr (.inr ⟨bytes, record, rfl, ?_, ordered⟩)
    exact ⟨params, bytes, accepts, by rw [addressed], length, decoded, verified⟩

/-- From a floor that has resolved something, no run of a session permits a fallback. -/
theorem no_fallback_of_resolved (accepts : pointerParams authorVk appId = .ok params)
    {floor : PointerFloor} (resolved : Resolved floor) {session : Session}
    {history : List Exchange}
    (ran : exchanges contractId authorVk appId floor session = .ok history) :
    ∀ result ∈ taken history, permitsFallback result = false := by
  simp only [exchanges, floorBefore_resolved resolved, new_eq accepts, Bind.bind, Except.bind,
    Pure.pure, Except.pure, Except.ok.injEq] at ran
  subst ran
  intro result member
  obtain ⟨-, -, verdicts⟩ := taken_verdict ({
    params, authorVk, pointerId := contractId params, floor, outstanding := false,
    phase := .fetching }) session.calls rfl rfl
  obtain ⟨_, _, _, _, _, settled⟩ := verdicts result member
  obtain ⟨answer, rfl, -⟩ := settles_eq_some settled
  rw [Bool.eq_false_iff, ne_eq, permitsFallback_verdict]
  rintro ⟨-, never⟩
  exact resolved.1 (.inl never)

/-- What an outcome certifies, for every order of calls. -/
theorem outcome_certifies {floor : PointerFloor} {resolver : PointerResolver VerifyingKey}
    (created : PointerResolver.new contractId authorVk appId floor = .ok resolver)
    (calls : List Call) :
    (accepted (performAll resolver calls).1).length ≤ 1 ∧
    (taken (performAll resolver calls).1).length ≤ 1 ∧
    (∀ result ∈ taken (performAll resolver calls).1, ∃ before call after,
      (performAll resolver calls).1 = before ++ ⟨call, .event true⟩ :: after ∧
      getArmed resolver ∈ before ∧
      (∀ p, result = .ok (.resolved p) ∨ result = .ok (.unchanged p) →
        ∃ record, Vouched contractId authorVk appId call record ∧ p.version = record.version ∧
          p.codeHash = record.codeHash ∧ p.codeHash ≠ TOMBSTONE_CODE_HASH) ∧
      (∀ version, result = .ok (.withdrawn version) →
        ∃ record, Vouched contractId authorVk appId call record ∧ version = record.version ∧
          record.codeHash = TOMBSTONE_CODE_HASH) ∧
      (permitsFallback result = true ↔ (∃ id, call = .onAbsent id) ∧ floor.version = 0)) ∧
    ∀ outcome next, .ok outcome ∈ taken (performAll resolver calls).1 →
      outcome.nextFloor = some next → ∀ (sessions : List Session) last,
      sessions.foldlM (persistNext contractId authorVk appId) next = .ok last →
      ∀ session history, exchanges contractId authorVk appId last session = .ok history →
      ∀ result ∈ taken history, permitsFallback result = false := by
  cases accepts : pointerParams authorVk appId with
  | error e => simp [PointerResolver.new, accepts, Bind.bind, Except.bind] at created
  | ok params =>
    rw [new_eq accepts, Except.ok.injEq] at created
    subst created
    obtain ⟨once, single, verdicts⟩ := taken_verdict ({
      params, authorVk, pointerId := contractId params, floor, outstanding := false,
      phase := .fetching }) calls rfl rfl
    refine ⟨once, single, ?_, ?_⟩
    · intro result member
      obtain ⟨before, call, after, history, asked, settled⟩ := verdicts result member
      refine ⟨before, call, after, history, asked, ?_⟩
      obtain ⟨answer, rfl, rfl⟩ := settles_eq_some settled
      refine ⟨?_, ?_, ?_⟩
      · intro p vouched
        obtain ⟨outcome, result, published⟩ : ∃ outcome, verdict _ answer = .ok outcome ∧
            outcome.pointer = some p := by
          rcases vouched with same | same
          · exact ⟨_, same, rfl⟩
          · exact ⟨_, same, rfl⟩
        rcases vouched_of_verdict accepts rfl rfl rfl result with
          rfl | rfl | ⟨bytes, record, rfl, vouches, ordered⟩
        · cases published
        · cases published
        · rw [ordered] at published
          obtain ⟨rfl, alive⟩ := order_published published
          exact ⟨record, vouches, rfl, rfl, alive⟩
      · intro version withdrawn
        rcases vouched_of_verdict accepts rfl rfl rfl withdrawn with
          other | other | ⟨bytes, record, rfl, vouches, ordered⟩
        · cases other
        · cases other
        · exact ⟨record, vouches, order_withdrawn ordered.symm⟩
      · rw [permitsFallback_verdict]
        cases answer <;> simp
    · intro outcome next _ learned sessions last persisted session history ran
      have resolved := resolved_foldlM (resolved_nextFloor learned) persisted
      exact no_fallback_of_resolved accepts resolved ran

section

open PointerContract (VectorKey vectorAppId vectorParams vectorRecord)

def vectorResolver : PointerResolver VectorKey where
  params := vectorParams
  authorVk := .author
  pointerId := Fixed.zero 32
  floor := .neverResolved
  outstanding := false
  phase := .fetching

/-- A stale event before the GET, the published record, a late absence, and two takes. -/
theorem outcome_certifies_vector :
    ∃ before call after record,
      (performAll vectorResolver [.onAbsent (Fixed.zero 32), .nextAction,
        .onResponse (Fixed.zero 32) vectorRecord.encode, .onAbsent (Fixed.zero 32), .takeOutcome,
        .takeOutcome]).1 = before ++ ⟨call, .event true⟩ :: after ∧
      getArmed vectorResolver ∈ before ∧
      Vouched (fun _ => Fixed.zero 32) VectorKey.author vectorAppId call record ∧
      record.version = 7 := by
  have created : PointerResolver.new (fun _ => Fixed.zero 32) VectorKey.author vectorAppId
      .neverResolved = .ok vectorResolver := new_eq pointerParams_vector _
  obtain ⟨-, -, results, -⟩ := outcome_certifies created [.onAbsent (Fixed.zero 32), .nextAction,
    .onResponse (Fixed.zero 32) vectorRecord.encode, .onAbsent (Fixed.zero 32), .takeOutcome,
    .takeOutcome]
  obtain ⟨before, call, after, history, asked, published, -, -⟩ :=
    results (.ok (.resolved ⟨7, vectorRecord.codeHash⟩)) (by decide +kernel)
  obtain ⟨record, vouched, version, -, -⟩ := published _ (.inl rfl)
  exact ⟨before, call, after, record, history, asked, vouched, version.symm⟩

end

end FreenetMigrate.PointerClient
