import NodexProxy.Foundation.Sums
import NodexProxy.Metrics.PostProcessor

/-! The post-processors of concurrent requests over the shared cache of handles, and the equation
the counters keep: every request counted in total is counted once as a batch, as finished or as
failed. -/

namespace NodexProxy.Metrics

open NodexProxy.Foundation

/-! Which vector a call records to, and under which common labels. -/

def Recorder.vector : Recorder → Vector
  | .incrTotalJRPCRequest => .totalJRPCRequest
  | .incrCallsFinished => .callsFinished
  | .incrBatchCallsFinished => .batchCallsFinished
  | .obCallsTime _ => .callsTime
  | .obBatchCallsTime _ => .batchCallsTime
  | .obRequestPayloadSizes _ => .requestPayloadSizes
  | .obResponsePayloadSizes _ => .responsePayloadSizes
  | .incrHTTPStatusCode _ => .httpStatusCode

/-- `none` stands for the vector of failed calls, which has no handles. -/
def Recording.vector : Recording → Option Vector
  | .bound recorder => some recorder.vector
  | .failed _ => none

def Recording.labels (key : MethodMetricKey) : Recording → List Bytes
  | .bound recorder => (key.seriesOf recorder).labels
  | .failed labels => labels

theorem MethodMetricKey.vector_seriesOf (key : MethodMetricKey) (recorder : Recorder) :
    (key.seriesOf recorder).vector = recorder.vector := by
  cases recorder <;> rfl

theorem MethodMetricKey.common_seriesOf (key : MethodMetricKey) (recorder : Recorder) :
    (key.seriesOf recorder).labels.take 4 = key.common := by
  cases recorder <;> rfl

/-- The samples of a vector under given common labels, over all other labels. -/
def sumBy (exposition : Exposition) (vector : Vector) (common : List Bytes) : Nat :=
  Assoc.sumOver (fun series samples =>
    if series.vector = vector ∧ series.labels.take 4 = common then samples.length else 0) exposition

theorem sumBy_observe (exposition : Exposition) (series : Series) (sample : Int) (vector : Vector)
    (common : List Bytes) :
    sumBy (observe exposition series sample) vector common = sumBy exposition vector common +
      if series.vector = vector ∧ series.labels.take 4 = common then 1 else 0 := by
  have inserted := Assoc.sumOver_insert (fun series (samples : List Int) =>
    if series.vector = vector ∧ series.labels.take 4 = common then samples.length else 0)
    exposition series ((exposition.lookup series).getD [] ++ [sample])
  unfold sumBy observe
  cases found : exposition.lookup series with
  | none =>
    rw [found] at inserted
    simpa using inserted
  | some samples =>
    rw [found] at inserted
    simp only [Option.elim_some, Option.getD_some, List.length_append, List.length_singleton] at inserted ⊢
    split_ifs at inserted ⊢ <;> omega

/-! The requests that are being accounted for. -/

/-- A post-processor at work: what it has recorded, what is left, and whether it has panicked. -/
structure Worker where
  report : Report
  performed : List Recording
  rest : List Recording
  panicked : Bool
deriving DecidableEq, Repr

/-- The counters. `failed` counts the failed calls by all their labels; worker and caller of the
same index belong together. -/
structure Dashboard where
  registry : Registry
  failed : Assoc (List Bytes) Nat
  workers : List Worker

def Dashboard.new : Dashboard := ⟨.new, ∅, []⟩

inductive DashboardAction where
  | start (report : Report)
  | load (index : Nat)
  | readFull (index : Nat)
  | lock (index : Nat)
  | record (index : Nat)

section Machine

variable (valid : List Bytes → Bool) (limit : Int) (toLower : Bytes → Bytes)

def Dashboard.advance (state : Dashboard) (index : Nat) (worker : Worker) (recording : Recording)
    (rest : List Recording) : Dashboard :=
  { state with
    workers := state.workers.set index
      { worker with performed := worker.performed ++ [recording], rest } }

/-- A panic ends the processor; the call it happened in stays undone. -/
def Dashboard.panic (state : Dashboard) (index : Nat) (worker : Worker) : Dashboard :=
  { state with workers := state.workers.set index { worker with panicked := true } }

def Dashboard.perform (state : Dashboard) (index : Nat) (worker : Worker) (rest : List Recording) :
    Recording → Option Dashboard
  | .bound recorder => do
    let registry ← state.registry.step valid limit (.record index recorder)
    let state := { state with registry }
    return if registry.panics.getLast? = some true then state.panic index worker
      else state.advance index worker (.bound recorder) rest
  | .failed labels =>
    if valid labels then
      let failed := state.failed.insert labels ((state.failed.lookup labels).getD 0 + 1)
      some ({ state with failed }.advance index worker (.failed labels) rest)
    else some (state.panic index worker)

def Dashboard.step (state : Dashboard) : DashboardAction → Option Dashboard
  | .start report => do
    let registry ← state.registry.step valid limit (.call report.key)
    let worker := ⟨report, [], report.updatePostProcessorMetrics toLower, false⟩
    return { state with registry, workers := state.workers ++ [worker] }
  | .load index => do
    return { state with registry := ← state.registry.step valid limit (.load index) }
  | .readFull index => do
    return { state with registry := ← state.registry.step valid limit (.readFull index) }
  | .lock index => do
    return { state with registry := ← state.registry.step valid limit (.lock index) }
  | .record index => do
    let worker ← state.workers[index]?
    match worker.panicked, worker.rest with
    | false, recording :: rest => state.perform valid limit index worker rest recording
    | _, _ => none

end Machine

/-- What the counters of a vector add up to under common labels. -/
def Dashboard.count (state : Dashboard) (common : List Bytes) : Option Vector → Nat
  | some vector => sumBy state.registry.exposition vector common
  | none => Assoc.sumOver (fun labels (count : Nat) =>
    if labels.take 4 = common then count else 0) state.failed

def Worker.common (worker : Worker) : List Bytes := worker.report.key.common

def Worker.count (worker : Worker) (common : List Bytes) (vector : Option Vector) : Nat :=
  if worker.common = common then
    worker.performed.countP fun recording => recording.vector = vector
  else 0

/-! One recording call through the registry. -/

section Record

variable {valid : List Bytes → Bool} {limit : Int} {registry after : Registry}

theorem Registry.Sound.recorded (sound : registry.Sound valid limit) {caller : Caller}
    (member : caller ∈ registry.callers) (returned : caller.stage = .returned handles)
    (recorder : Recorder) :
    (registry.record valid caller.key handles recorder).panics =
        registry.panics ++ [!valid (caller.key.seriesOf recorder).labels] ∧
      (registry.record valid caller.key handles recorder).exposition =
        if valid (caller.key.seriesOf recorder).labels then
          observe registry.exposition (caller.key.seriesOf recorder) recorder.sample
        else registry.exposition := by
  have direct : (recordDirect valid registry.exposition caller.key recorder).isNone =
      (!valid (caller.key.seriesOf recorder).labels) ∧
      (recordDirect valid registry.exposition caller.key recorder).getD registry.exposition =
        if valid (caller.key.seriesOf recorder).labels then
          observe registry.exposition (caller.key.seriesOf recorder) recorder.sample
        else registry.exposition := by
    cases accepted : valid (caller.key.seriesOf recorder).labels <;>
      simp [recordDirect, accepted]
  cases handles with
  | none => exact ⟨congrArg (registry.panics ++ [·]) direct.1, direct.2⟩
  | some address =>
    have admitted := sound.answered caller member address returned
    obtain ⟨object, held, bound⟩ := sound.bound caller.key address admitted
    have result := bound.record_result registry.exposition recorder
    simp only [Registry.record, held]
    rw [result]
    exact ⟨congrArg (registry.panics ++ [·]) direct.1, direct.2⟩

/-- Only a call adds a caller, and none changes its key. -/
theorem Registry.keys_of_step {action : Action} (stepped : registry.step valid limit action = some after)
    (other : ∀ key, action ≠ .call key) :
    after.callers.map Caller.key = registry.callers.map Caller.key := by
  rcases Registry.step_cases stepped with ⟨key, same, rfl⟩ | ⟨index, caller, found, moves⟩
  · exact absurd same (other key)
  rcases moves with ⟨-, rfl⟩ | ⟨-, rfl⟩ | ⟨-, rfl⟩ | ⟨handles, recorder, -, rfl⟩
  · exact map_set_of_eq found _ rfl
  · exact map_set_of_eq found _ rfl
  · rw [Registry.setStage, Registry.callers_enter]
    exact map_set_of_eq found _ rfl
  · rw [(registry.record_frame caller.key handles recorder).2]

theorem Registry.exposition_enter (registry : Registry) (limit : Int) (key : MethodMetricKey) :
    (registry.enter limit key).1.exposition = registry.exposition := by
  rcases registry.enter_cases limit key with ⟨_, _, same⟩ | ⟨_, same⟩ | ⟨_, _, same⟩ <;> rw [same]

/-- Only a recording call shows. -/
theorem Registry.exposition_of_step {action : Action}
    (stepped : registry.step valid limit action = some after)
    (other : ∀ index recorder, action ≠ .record index recorder) :
    after.exposition = registry.exposition := by
  cases action with
  | call key =>
    cases stepped
    rfl
  | load index =>
    obtain ⟨caller, -, stepped⟩ := Option.bind_eq_some_iff.mp stepped
    split at stepped
    · split at stepped <;> cases stepped <;> rfl
    · cases stepped
  | readFull index =>
    obtain ⟨caller, -, stepped⟩ := Option.bind_eq_some_iff.mp stepped
    split at stepped
    · cases stepped
      rfl
    · cases stepped
  | lock index =>
    obtain ⟨caller, -, stepped⟩ := Option.bind_eq_some_iff.mp stepped
    split at stepped
    · cases stepped
      exact registry.exposition_enter limit caller.key
    · cases stepped
  | record index recorder => exact absurd rfl (other index recorder)

end Record

/-! The invariant. -/

section Kept

variable {valid : List Bytes → Bool} {limit : Int} {toLower : Bytes → Bytes}
  {state final : Dashboard}

theorem Report.common_failedLabels (report : Report) (error : Bytes) :
    (report.failedLabels toLower error).take 4 = report.key.common := by
  unfold Report.failedLabels
  split <;> rfl

theorem Report.common_of_mem {report : Report}
    (member : .failed labels ∈ report.updatePostProcessorMetrics toLower) :
    labels.take 4 = report.key.common := by
  have outcome : .failed labels = report.outcome toLower := by
    unfold Report.updatePostProcessorMetrics Report.sizes at member
    split_ifs at member
    · simp at member
    all_goals simpa using member
  unfold Report.outcome at outcome
  split at outcome
  · cases outcome
  · cases outcome
    exact report.common_failedLabels _

/-- The plan of a worker is done in order, up to a call whose labels are not accepted. -/
structure Worker.OnPlan (valid : List Bytes → Bool) (toLower : Bytes → Bytes) (worker : Worker) :
    Prop where
  planned : worker.performed ++ worker.rest = worker.report.updatePostProcessorMetrics toLower
  accepted : ∀ recording ∈ worker.performed, valid (recording.labels worker.report.key) = true
  stopped : worker.panicked = true → ∃ recording rest, worker.rest = recording :: rest ∧
    valid (recording.labels worker.report.key) = false

/-- Every sample was recorded by a worker. -/
structure Dashboard.Kept (valid : List Bytes → Bool) (limit : Int) (toLower : Bytes → Bytes)
    (state : Dashboard) : Prop where
  sound : state.registry.Sound valid limit
  paired : state.registry.callers.map Caller.key = state.workers.map fun worker => worker.report.key
  onPlan : ∀ worker ∈ state.workers, worker.OnPlan valid toLower
  counted : ∀ common vector, state.count common vector =
    (state.workers.map fun worker => worker.count common vector).sum

theorem Dashboard.Kept.new : Dashboard.new.Kept valid limit toLower where
  sound := .new
  paired := rfl
  onPlan := nofun
  counted := by
    intro common vector
    cases vector <;> rfl

/-- What a call to a metric does: it is recorded, or it panics and nothing is. -/
theorem Dashboard.Kept.perform (kept : state.Kept valid limit toLower) {worker : Worker}
    (found : state.workers[index]? = some worker) (planned : worker.rest = recording :: rest)
    (performed : state.perform valid limit index worker rest recording = some final) :
    final.registry.Sound valid limit ∧
    final.registry.callers.map Caller.key = state.registry.callers.map Caller.key ∧
    (valid (recording.labels worker.report.key) = true ∧
        final.workers = state.workers.set index
          { worker with performed := worker.performed ++ [recording], rest } ∧
        (∀ common vector, final.count common vector = state.count common vector +
          if worker.common = common ∧ recording.vector = vector then 1 else 0) ∨
      valid (recording.labels worker.report.key) = false ∧
        final.workers = state.workers.set index { worker with panicked := true } ∧
        ∀ common vector, final.count common vector = state.count common vector) := by
  cases recording with
  | bound recorder =>
    obtain ⟨registry, stepped, performed⟩ := Option.bind_eq_some_iff.mp performed
    obtain ⟨caller, called, recorded⟩ := Option.bind_eq_some_iff.mp stepped
    have own : caller.key = worker.report.key := by
      have same := congrArg (fun keys => keys[index]?) kept.paired
      simpa [called, found] using same
    have keys := Registry.keys_of_step stepped (by simp)
    have sound := kept.sound.step stepped
    cases stage : caller.stage with
    | returned handles =>
      rw [stage] at recorded
      cases recorded
      obtain ⟨panics, exposed⟩ :=
        kept.sound.recorded (List.mem_of_getElem? called) stage recorder
      rw [own] at panics exposed
      have last : (state.registry.record valid caller.key handles recorder).panics.getLast? =
          some (!valid (worker.report.key.seriesOf recorder).labels) := by
        rw [own, panics, List.getLast?_concat]
      rw [last] at performed
      cases accepted : valid (worker.report.key.seriesOf recorder).labels with
      | true =>
        rw [accepted] at performed exposed
        cases performed
        refine ⟨sound, keys, .inl ⟨accepted, rfl, fun common vector => ?_⟩⟩
        cases vector with
        | none => simp [Dashboard.count, Dashboard.advance, Recording.vector]
        | some vector =>
          show sumBy (state.registry.record valid caller.key handles recorder).exposition vector
            common = sumBy state.registry.exposition vector common + _
          rw [own, exposed, if_pos rfl, sumBy_observe, MethodMetricKey.vector_seriesOf,
            MethodMetricKey.common_seriesOf]
          simp only [Recording.vector, Option.some.injEq, and_comm, Worker.common]
      | false =>
        rw [accepted] at performed exposed
        cases performed
        refine ⟨sound, keys, .inr ⟨accepted, rfl, fun common vector => ?_⟩⟩
        cases vector with
        | none => rfl
        | some vector =>
          show sumBy (state.registry.record valid caller.key handles recorder).exposition vector
            common = sumBy state.registry.exposition vector common
          rw [own, exposed]
          rfl
    | looking => rw [stage] at recorded; cases recorded
    | missed => rw [stage] at recorded; cases recorded
    | locking => rw [stage] at recorded; cases recorded
  | failed labels =>
    have onPlan := kept.onPlan worker (List.mem_of_getElem? found)
    have member : .failed labels ∈ worker.report.updatePostProcessorMetrics toLower := by
      rw [← onPlan.planned, planned]
      simp
    have common := Report.common_of_mem member
    simp only [Dashboard.perform] at performed
    split_ifs at performed with accepted
    · cases performed
      refine ⟨kept.sound, rfl, .inl ⟨accepted, rfl, fun wanted vector => ?_⟩⟩
      cases vector with
      | some vector => simp [Dashboard.count, Dashboard.advance, Recording.vector]
      | none =>
        have inserted := Assoc.sumOver_insert (fun labels (count : Nat) =>
          if labels.take 4 = wanted then count else 0) state.failed labels
          ((state.failed.lookup labels).getD 0 + 1)
        simp only [Dashboard.count, Dashboard.advance, Recording.vector, and_true, Worker.common,
          ← common]
        cases old : state.failed.lookup labels with
        | none =>
          rw [old] at inserted
          simpa using inserted
        | some count =>
          rw [old] at inserted
          simp only [Option.elim_some, Option.getD_some] at inserted ⊢
          split_ifs at inserted ⊢ <;> omega
    · cases performed
      exact ⟨kept.sound, rfl, .inr ⟨Bool.eq_false_of_not_eq_true accepted, rfl, fun _ _ => rfl⟩⟩

/-- One worker is moved on. -/
theorem Dashboard.Kept.set (kept : state.Kept valid limit toLower) {worker moved : Worker}
    (found : state.workers[index]? = some worker) (sound : final.registry.Sound valid limit)
    (keys : final.registry.callers.map Caller.key = state.registry.callers.map Caller.key)
    (workers : final.workers = state.workers.set index moved)
    (same : moved.report = worker.report) (onPlan : moved.OnPlan valid toLower)
    (counted : ∀ common vector, final.count common vector + worker.count common vector =
      state.count common vector + moved.count common vector) :
    final.Kept valid limit toLower where
  sound := sound
  paired := by
    rw [keys, kept.paired, workers]
    exact (map_set_of_eq found moved (by rw [same])).symm
  onPlan := by
    intro other member
    rw [workers] at member
    rcases List.mem_or_eq_of_mem_set member with old | rfl
    · exact kept.onPlan other old
    · exact onPlan
  counted := by
    intro common vector
    have moved := sum_map_set found moved fun worker => worker.count common vector
    have balance := counted common vector
    rw [kept.counted] at balance
    rw [workers]
    omega

theorem Dashboard.Kept.record (kept : state.Kept valid limit toLower) {worker : Worker}
    (found : state.workers[index]? = some worker) (planned : worker.rest = recording :: rest)
    (running : worker.panicked = false)
    (performed : state.perform valid limit index worker rest recording = some final) :
    final.Kept valid limit toLower := by
  have plan := kept.onPlan worker (List.mem_of_getElem? found)
  obtain ⟨sound, keys, ⟨accepted, workers, counted⟩ | ⟨refused, workers, counted⟩⟩ :=
    kept.perform found planned performed
  · refine kept.set found sound keys workers rfl ⟨?_, ?_, ?_⟩ fun common vector => ?_
    · rw [← plan.planned, planned, List.append_assoc, List.singleton_append]
    · intro done member
      rcases List.mem_append.mp member with old | new
      · exact plan.accepted done old
      · rw [List.mem_singleton.mp new]
        exact accepted
    · intro panicked
      cases running.symm.trans panicked
    · rw [counted]
      simp only [Worker.count, Worker.common, List.countP_append, List.countP_singleton,
        decide_eq_true_eq]
      by_cases here : worker.report.key.common = common
      · by_cases kind : recording.vector = vector
        · simp only [here, kind, and_self, if_true]
          omega
        · simp [here, kind]
      · simp [here]
  · refine kept.set found sound keys workers rfl ⟨plan.planned, plan.accepted, fun _ => ?_⟩
      fun common vector => by rw [counted]; rfl
    exact ⟨recording, rest, planned, refused⟩

theorem Dashboard.Kept.unrecorded (kept : state.Kept valid limit toLower) {action : Action}
    {registry : Registry} (stepped : state.registry.step valid limit action = some registry)
    (uncalled : ∀ key, action ≠ .call key)
    (unrecorded : ∀ index recorder, action ≠ .record index recorder) :
    ({ state with registry } : Dashboard).Kept valid limit toLower where
  sound := kept.sound.step stepped
  paired := (Registry.keys_of_step stepped uncalled).trans kept.paired
  onPlan := kept.onPlan
  counted := by
    intro common vector
    rw [← kept.counted]
    cases vector with
    | none => rfl
    | some vector =>
      simp only [Dashboard.count, Registry.exposition_of_step stepped unrecorded]

theorem Dashboard.Kept.start (kept : state.Kept valid limit toLower) (report : Report)
    {registry : Registry}
    (stepped : state.registry.step valid limit (.call report.key) = some registry) :
    ({ state with
      registry
      workers := state.workers ++
        [⟨report, [], report.updatePostProcessorMetrics toLower, false⟩] } : Dashboard).Kept valid
      limit toLower where
  sound := kept.sound.step stepped
  paired := by
    cases stepped
    simp [kept.paired]
  onPlan := by
    intro worker member
    rcases List.mem_append.mp member with old | new
    · exact kept.onPlan worker old
    · rw [List.mem_singleton.mp new]
      exact ⟨rfl, nofun, nofun⟩
  counted := by
    intro common vector
    rw [List.map_append, List.sum_append, ← kept.counted]
    have exposed := Registry.exposition_of_step stepped (by simp)
    cases vector <;> simp [Dashboard.count, Worker.count, exposed]

theorem Dashboard.Kept.step {action : DashboardAction} (kept : state.Kept valid limit toLower)
    (stepped : state.step valid limit toLower action = some final) :
    final.Kept valid limit toLower := by
  cases action with
  | start report =>
    simp only [Dashboard.step] at stepped
    obtain ⟨registry, moved, same⟩ := Option.bind_eq_some_iff.mp stepped
    cases same
    exact kept.start report moved
  | load index =>
    obtain ⟨registry, moved, same⟩ := Option.bind_eq_some_iff.mp stepped
    cases same
    exact kept.unrecorded moved (by simp) (by simp)
  | readFull index =>
    obtain ⟨registry, moved, same⟩ := Option.bind_eq_some_iff.mp stepped
    cases same
    exact kept.unrecorded moved (by simp) (by simp)
  | lock index =>
    obtain ⟨registry, moved, same⟩ := Option.bind_eq_some_iff.mp stepped
    cases same
    exact kept.unrecorded moved (by simp) (by simp)
  | record index =>
    obtain ⟨worker, found, performed⟩ := Option.bind_eq_some_iff.mp stepped
    cases running : worker.panicked with
    | true =>
      rw [running] at performed
      cases performed
    | false =>
      cases planned : worker.rest with
      | nil =>
        rw [running, planned] at performed
        cases performed
      | cons recording rest =>
        rw [running, planned] at performed
        exact kept.record found planned running performed

theorem Dashboard.kept_of_run {schedule : List DashboardAction}
    (run : exec (Dashboard.step valid limit toLower) .new schedule = some state) :
    state.Kept valid limit toLower :=
  exec_invariant Dashboard.Kept.new (fun _ _ _ kept stepped => kept.step stepped) run

end Kept

/-! What one worker contributes. -/

def Recording.isTotal (recording : Recording) : Bool :=
  recording.vector = some .totalJRPCRequest

/-- The counters one of which a request ends in. -/
def Recording.isOutcome (recording : Recording) : Bool :=
  recording.vector = some .batchCallsFinished || recording.vector = some .callsFinished ||
    recording.vector = none

theorem countP_isOutcome (recordings : List Recording) :
    recordings.countP Recording.isOutcome =
      recordings.countP (fun recording => recording.vector = some .batchCallsFinished) +
        recordings.countP (fun recording => recording.vector = some .callsFinished) +
        recordings.countP (fun recording => recording.vector = none) := by
  induction recordings with
  | nil => rfl
  | cons recording rest inductionHypothesis =>
    simp only [List.countP_cons, inductionHypothesis, Recording.isOutcome]
    cases recording with
    | failed labels =>
      simp [Recording.vector]
      omega
    | bound recorder => cases recorder <;> simp [Recording.vector, Recorder.vector] <;> omega

section Share

variable {valid : List Bytes → Bool} {toLower : Bytes → Bytes} {report : Report}

theorem Report.vector_outcome (report : Report) (toLower : Bytes → Bytes) :
    (report.outcome toLower).isOutcome = true ∧ (report.outcome toLower).isTotal = false := by
  unfold Report.outcome
  split <;> exact ⟨rfl, rfl⟩

/-- A size is recorded under the labels the duration was recorded under. -/
theorem Report.of_mem_sizes {recording : Recording} (member : recording ∈ report.sizes) :
    recording.isOutcome = false ∧ recording.isTotal = false ∧
      recording.labels report.key =
        (Recording.bound (.obCallsTime report.duration)).labels report.key := by
  unfold Report.sizes at member
  rcases List.mem_append.mp member with request | response
  · split_ifs at request
    · rw [List.mem_singleton.mp request]
      exact ⟨rfl, rfl, rfl⟩
    · cases request
  · split_ifs at response
    · rw [List.mem_singleton.mp response]
      exact ⟨rfl, rfl, rfl⟩
    · cases response

/-- The plan after the first two calls. -/
def Report.body (report : Report) (toLower : Bytes → Bytes) : List Recording :=
  if report.isBatch then
    [.bound .incrBatchCallsFinished, .bound (.obBatchCallsTime report.duration)]
  else .bound (.obCallsTime report.duration) :: report.outcome toLower :: report.sizes

theorem Report.count_sizes (report : Report) :
    report.sizes.countP Recording.isOutcome = 0 ∧ report.sizes.countP Recording.isTotal = 0 := by
  constructor
  · exact List.countP_eq_zero.mpr fun recording member => by
      simp [(Report.of_mem_sizes member).1]
  · exact List.countP_eq_zero.mpr fun recording member => by
      simp [(Report.of_mem_sizes member).2.1]

theorem Report.count_body (report : Report) (toLower : Bytes → Bytes) :
    (report.body toLower).countP Recording.isOutcome = 1 ∧
      (report.body toLower).countP Recording.isTotal = 0 := by
  unfold Report.body
  split_ifs
  · exact ⟨rfl, rfl⟩
  · obtain ⟨outcome, total⟩ := report.vector_outcome toLower
    obtain ⟨outcomes, totals⟩ := report.count_sizes
    have duration : (Recording.bound (.obCallsTime report.duration)).isOutcome = false ∧
      (Recording.bound (.obCallsTime report.duration)).isTotal = false := ⟨rfl, rfl⟩
    simp [outcome, total, outcomes, totals, duration]

/-- A call that is refused comes before the outcome: all that follows has labels that were accepted
by then. -/
theorem Report.outcome_unreached {performed rest : List Recording} {refused : Recording}
    (planned : performed ++ refused :: rest = report.body toLower)
    (common : valid report.key.common = true)
    (accepted : ∀ recording ∈ performed, valid (recording.labels report.key) = true)
    (invalid : valid (refused.labels report.key) = false) :
    performed.countP Recording.isOutcome = 0 := by
  unfold Report.body at planned
  split_ifs at planned with batch
  · rcases performed with _ | ⟨first, _ | ⟨second, more⟩⟩
    · rfl
    · simp only [List.cons_append, List.nil_append, List.cons.injEq] at planned
      obtain ⟨-, rfl, -⟩ := planned
      cases common.symm.trans invalid
    · have long := congrArg List.length planned
      simp at long
  · rcases performed with _ | ⟨first, _ | ⟨second, more⟩⟩
    · rfl
    · simp only [List.cons_append, List.cons.injEq] at planned
      rw [planned.1]
      rfl
    · simp only [List.cons_append, List.cons.injEq] at planned
      obtain ⟨rfl, rfl, left⟩ := planned
      have member : refused ∈ report.sizes := by
        rw [← left]
        simp
      have size := Report.of_mem_sizes member
      have earlier := accepted _ (List.mem_cons_self ..)
      rw [← size.2.2, invalid] at earlier
      cases earlier

end Share

section Shares

variable {valid : List Bytes → Bool} {toLower : Bytes → Bytes} {worker : Worker}

/-- How far a worker on its plan is. -/
theorem Worker.OnPlan.cases (plan : worker.OnPlan valid toLower) :
    worker.performed = [] ∨ worker.performed = [.bound .incrTotalJRPCRequest] ∨
      ∃ done, worker.performed = .bound .incrTotalJRPCRequest ::
        .bound (.incrHTTPStatusCode worker.report.recordedStatus) :: done ∧
        done ++ worker.rest = worker.report.body toLower := by
  have planned := plan.planned
  rcases same : worker.performed with _ | ⟨first, _ | ⟨second, done⟩⟩
  · exact .inl rfl
  all_goals rw [same] at planned
  · simp only [List.cons_append, Report.updatePostProcessorMetrics, List.cons.injEq] at planned
    rw [planned.1]
    exact .inr (.inl rfl)
  · simp only [List.cons_append, Report.updatePostProcessorMetrics, List.cons.injEq] at planned
    obtain ⟨rfl, rfl, left⟩ := planned
    exact .inr (.inr ⟨done, rfl, left⟩)

/-- No outcome is counted before the request is. -/
theorem Worker.OnPlan.outcome_le_total (plan : worker.OnPlan valid toLower) :
    worker.performed.countP Recording.isOutcome ≤ worker.performed.countP Recording.isTotal := by
  rcases plan.cases with none | first | ⟨done, same, left⟩
  · simp [none]
  · rw [first]
    decide
  · have once := (worker.report.count_body toLower).1
    rw [← left, List.countP_append] at once
    have head : (Recording.bound .incrTotalJRPCRequest).isOutcome = false ∧
      (Recording.bound .incrTotalJRPCRequest).isTotal = true := ⟨rfl, rfl⟩
    have status : (Recording.bound
      (.incrHTTPStatusCode worker.report.recordedStatus)).isOutcome = false := rfl
    simp only [same, List.countP_cons, head, status, if_true, Bool.false_eq_true, if_false]
    omega

/-- A worker that has come to its end has counted its request once, and its outcome unless it
panicked. -/
theorem Worker.OnPlan.settled (plan : worker.OnPlan valid toLower)
    (common : valid worker.report.key.common = true)
    (ended : worker.panicked = true ∨ worker.rest = []) :
    worker.performed.countP Recording.isTotal = 1 ∧
      worker.performed.countP Recording.isOutcome = if worker.panicked then 0 else 1 := by
  have head : (Recording.bound .incrTotalJRPCRequest).isOutcome = false ∧
    (Recording.bound .incrTotalJRPCRequest).isTotal = true := ⟨rfl, rfl⟩
  have status : (Recording.bound
      (.incrHTTPStatusCode worker.report.recordedStatus)).isOutcome = false ∧
    (Recording.bound
      (.incrHTTPStatusCode worker.report.recordedStatus)).isTotal = false := ⟨rfl, rfl⟩
  obtain ⟨outcomes, totals⟩ := worker.report.count_body toLower
  cases panicked : worker.panicked with
  | false =>
    have finished : worker.rest = [] := by simpa [panicked] using ended
    have planned := plan.planned
    rw [finished, List.append_nil] at planned
    have all : worker.report.updatePostProcessorMetrics toLower =
        .bound .incrTotalJRPCRequest ::
          .bound (.incrHTTPStatusCode worker.report.recordedStatus) ::
            worker.report.body toLower := rfl
    simp [planned, all, head, status, outcomes, totals]
  | true =>
    obtain ⟨refused, rest, left, invalid⟩ := plan.stopped panicked
    rcases plan.cases with none | first | ⟨done, same, rest⟩
    · have planned := plan.planned
      rw [none, left] at planned
      simp only [List.nil_append, Report.updatePostProcessorMetrics, List.cons.injEq] at planned
      rw [planned.1] at invalid
      cases common.symm.trans invalid
    · rw [first]
      exact ⟨rfl, rfl⟩
    · rw [left] at rest
      have unreached := Report.outcome_unreached rest common
        (fun recording member => plan.accepted recording (by rw [same]; simp [member])) invalid
      have untold : done.countP Recording.isTotal = 0 := by
        rw [← rest, List.countP_append] at totals
        omega
      simp [same, head, status, unreached, untold]

end Shares

section Balance

variable {valid : List Bytes → Bool} {limit : Int} {toLower : Bytes → Bytes} {state : Dashboard}

/-- The sum of the three counters of outcomes. -/
def Dashboard.outcomes (state : Dashboard) (common : List Bytes) : Nat :=
  state.count common (some .batchCallsFinished) + state.count common (some .callsFinished) +
    state.count common none

theorem Dashboard.Kept.outcomes_eq (kept : state.Kept valid limit toLower) (common : List Bytes) :
    state.outcomes common = (state.workers.map fun worker =>
      if worker.common = common then worker.performed.countP Recording.isOutcome else 0).sum := by
  rw [Dashboard.outcomes, kept.counted, kept.counted, kept.counted, ← List.sum_map_add,
    ← List.sum_map_add]
  congr 1
  refine List.map_congr_left fun worker _ => ?_
  rw [countP_isOutcome]
  unfold Worker.count
  split_ifs <;> rfl

theorem Dashboard.Kept.total_eq (kept : state.Kept valid limit toLower) (common : List Bytes) :
    state.count common (some .totalJRPCRequest) = (state.workers.map fun worker =>
      if worker.common = common then worker.performed.countP Recording.isTotal else 0).sum :=
  kept.counted common _

/-- Over any interleaving of requests, and whatever the cache of handles holds: no request is
counted as a batch, as finished or as failed before it is counted, and once the requests of a chain
are through, the three counters add up to the total, but for the requests whose own labels made the
recording panic. -/
theorem requests_balance (valid : List Bytes → Bool) (limit : Int) (toLower : Bytes → Bytes)
    (schedule : List DashboardAction) (state : Dashboard)
    (run : exec (Dashboard.step valid limit toLower) .new schedule = some state)
    (common : List Bytes) :
    state.outcomes common ≤ state.count common (some .totalJRPCRequest) ∧
    (valid common = true →
      (∀ worker ∈ state.workers, worker.common = common →
        worker.panicked = true ∨ worker.rest = []) →
      state.count common (some .totalJRPCRequest) =
          state.workers.countP (fun worker => worker.common = common) ∧
        state.count common (some .totalJRPCRequest) = state.outcomes common +
          state.workers.countP fun worker => worker.common = common && worker.panicked) := by
  have kept := Dashboard.kept_of_run run
  rw [kept.outcomes_eq, kept.total_eq]
  refine ⟨List.sum_le_sum fun worker member => ?_, fun accepted ended => ?_⟩
  · split_ifs
    · exact (kept.onPlan worker member).outcome_le_total
    · exact Nat.le_refl 0
  · have shares (worker : Worker) (member : worker ∈ state.workers) :
        (if worker.common = common then worker.performed.countP Recording.isTotal else 0) =
          (if decide (worker.common = common) = true then 1 else 0) ∧
        (if worker.common = common then worker.performed.countP Recording.isOutcome else 0) =
          if worker.common = common && !worker.panicked then 1 else 0 := by
      by_cases here : worker.common = common
      · have settled := (kept.onPlan worker member).settled
          (by rw [show worker.report.key.common = common from here]; exact accepted)
          (ended worker member here)
        rw [if_pos here, if_pos here, settled.1, settled.2]
        cases worker.panicked <;> simp [here]
      · simp [here]
    rw [List.map_congr_left fun worker member => (shares worker member).1,
      List.map_congr_left fun worker member => (shares worker member).2,
      sum_map_ite_eq_countP, sum_map_ite_eq_countP]
    refine ⟨rfl, ?_⟩
    rw [List.countP_eq_countP_filter_add state.workers _ Worker.panicked, List.countP_filter,
      List.countP_filter, Nat.add_comm]

/-- Two requests at once; the method of the second is not UTF-8. -/
def sampleReport (method : Bytes) : Report where
  host := ascii "h"
  target := ascii "t"
  baseChainId := ascii "1"
  chainUUID := []
  chainId := ascii "1"
  method
  isBatch := false
  statusCode := 200
  duration := 0
  error := none
  responseError := none
  upstreamRelated := true
  targetNodeAddr := ascii "10.0.0.1:8545"
  requestBodySize := 40
  responseBodySize := 40

def sampleSchedule : List DashboardAction :=
  [.start (sampleReport (ascii "eth_call")), .start (sampleReport [255]), .load 0, .load 1,
    .readFull 1, .readFull 0, .lock 0, .lock 1, .record 0, .record 1, .record 1, .record 0,
    .record 0, .record 0, .record 0, .record 0]

theorem requests_balance_sample :
    ∃ state, exec (Dashboard.step (fun labels => !labels.contains [255]) 1 id) .new sampleSchedule =
        some state ∧
      state.count (sampleKey "").common (some .totalJRPCRequest) = 2 ∧
      state.outcomes (sampleKey "").common = 1 := by
  have reached : (exec (Dashboard.step (fun labels => !labels.contains [255]) 1 id) .new
      sampleSchedule).map (fun state => (state.workers.map fun worker =>
        (worker.common, worker.panicked, worker.rest))) =
      some [((sampleKey "").common, false, []), ((sampleKey "").common, true,
        [.bound (.incrHTTPStatusCode 200), .bound (.obCallsTime 0), .bound .incrCallsFinished,
          .bound (.obRequestPayloadSizes 40), .bound (.obResponsePayloadSizes 40)])] := by
    decide +kernel
  obtain ⟨state, run, workers⟩ := Option.map_eq_some_iff.mp reached
  obtain ⟨-, settled⟩ := requests_balance (fun labels => !labels.contains [255]) 1 id sampleSchedule
    state run (sampleKey "").common
  have ended : ∀ worker ∈ state.workers, worker.common = (sampleKey "").common →
      worker.panicked = true ∨ worker.rest = [] := by
    intro worker member _
    have listed := List.mem_map_of_mem (f := fun worker : Worker =>
      (worker.common, worker.panicked, worker.rest)) member
    rw [workers] at listed
    simp only [List.mem_cons, List.not_mem_nil, or_false, Prod.mk.injEq] at listed
    rcases listed with ⟨-, -, rest⟩ | ⟨-, panicked, -⟩
    · exact .inr rest
    · exact .inl panicked
  obtain ⟨total, balance⟩ := settled (by decide) ended
  have two : state.workers.countP (fun worker => worker.common = (sampleKey "").common) = 2 := by
    have mapped := congrArg (List.countP fun entry => entry.1 = (sampleKey "").common) workers
    rw [List.countP_map] at mapped
    exact mapped
  have one : state.workers.countP (fun worker =>
      worker.common = (sampleKey "").common && worker.panicked) = 1 := by
    have mapped := congrArg
      (List.countP fun entry => entry.1 = (sampleKey "").common && entry.2.1) workers
    rw [List.countP_map] at mapped
    exact mapped
  exact ⟨state, run, by omega, by omega⟩

end Balance

end NodexProxy.Metrics
