import NodexProxy.Foundation.Sums
import NodexProxy.Lb.Namespaces
import NodexProxy.Lb.PoolContents

/-! The health checks in detail. Each started check is a goroutine in `CheckNodeHealth`: it builds
the node, probes it, and sleeps between the probes until one is answered or the time is up. -/

namespace NodexProxy.Lb

open NodexProxy.Foundation NodexProxy.Discovery

/-- How a probe ends: no request is made of the URL, it gets no response, or it gets one, the body
of which may break off. -/
inductive ProbeReply where
  | malformed
  | unanswered
  | response (statusCode : Int) (body : Option Bytes)
deriving DecidableEq, Repr

/-- What `processHealthCheck` reads of a body. -/
structure HealthResponse where
  result : Bytes
  error : Option (Int × Bytes)
deriving DecidableEq, Repr

structure HealthRequest where
  url : Bytes
  body : Bytes
deriving DecidableEq, Repr

def healthMethod (node : Node) : Bytes :=
  if node.source = sourceNative then ascii "eth_blockNumber" else ascii "getLatestBlock"

/-- The request of a probe. `json.Marshal` writes the keys of a map in order. -/
def healthRequest (node : Node) : HealthRequest where
  url := ascii "http://" ++ node.addr
  body := ascii "\x7b\"id\":1,\"jsonrpc\":\"2.0\",\"method\":\"" ++ healthMethod node ++
    ascii "\",\"params\":[]\x7d"

/-- `maxWaitTime` is in nanoseconds, and `unmarshal` is `json.Unmarshal` into the response. -/
structure NodeHealthChecker where
  maxWaitTime : Int
  unmarshal : Bytes → Option HealthResponse

def NodeHealthChecker.processHealthCheck (checker : NodeHealthChecker) : ProbeReply → Bool
  | .malformed => false
  | .unanswered => false
  | .response statusCode body =>
    if statusCode ≠ 200 then false
    else
      match body.bind checker.unmarshal with
      | none => false
      | some response => response.error.isNone && response.result ≠ []

/-- The status a check is counted under. -/
inductive HealthStatus where
  | createFailed
  | success
  | timeout
  | retry
deriving DecidableEq, Repr

def HealthStatus.label : HealthStatus → Bytes
  | .createFailed => ascii "create_failed"
  | .success => ascii "success"
  | .timeout => ascii "timeout"
  | .retry => ascii "retry"

/-- One count of `IncrNodeHealthCheckTotal`, with the duration observed beside it. -/
structure HealthRecord where
  chainId : Bytes
  nodeKey : Bytes
  status : HealthStatus
  duration : Option Nat
deriving DecidableEq, Repr

def retryInterval : Nat := 5000000000

/-- Where a goroutine stands in `CheckNodeHealth`. -/
inductive CheckStage where
  | starting
  | building (startTime : Nat)
  | probing (targetNode : Node) (startTime startCheckTime attemptCount : Nat)
  | sleeping (targetNode : Node) (startTime startCheckTime attemptCount wakeAt : Nat)
  | passed (targetNode : Node) (attemptCount : Nat)
  | failed (attemptCount : Nat)
deriving DecidableEq, Repr

inductive CheckInput where
  | start
  | build
  | reply (reply : ProbeReply)
  | wake
deriving DecidableEq, Repr

section Advance

variable (checker : NodeHealthChecker) (proxied : Bytes → Bool) (event : TargetNode) (now : Nat)

def recordOf (event : TargetNode) (status : HealthStatus) (duration : Option Nat) : HealthRecord :=
  ⟨event.chainId, event.nodeKey, status, duration⟩

/-- `CheckNodeHealth`, from one point where it waits to the next. -/
def NodeHealthChecker.advance : CheckStage → CheckInput → Option (CheckStage × List HealthRecord)
  | .starting, .start => some (.building now, [])
  | .building startTime, .build =>
    match eventNode proxied event with
    | none => some (.failed 0, [recordOf event .createFailed (some (now - startTime))])
    | some targetNode => some (.probing targetNode startTime now 1, [])
  | .probing targetNode startTime startCheckTime attemptCount, .reply reply =>
    if checker.processHealthCheck reply then
      some (.passed targetNode attemptCount, [recordOf event .success (some (now - startTime))])
    else if checker.maxWaitTime ≤ (now - startCheckTime : Nat) then
      some (.failed attemptCount, [recordOf event .timeout (some (now - startTime))])
    else
      some (.sleeping targetNode startTime startCheckTime attemptCount (now + retryInterval),
        [recordOf event .retry none])
  | .sleeping targetNode startTime startCheckTime attemptCount wakeAt, .wake =>
    if wakeAt ≤ now then
      some (.probing targetNode startTime startCheckTime (attemptCount + 1), [])
    else none
  | _, _ => none

end Advance

structure Goroutine where
  check : HealthCheck
  stage : CheckStage

/-- A probe that was sent, for the PUT at a position of the log. -/
structure Probe where
  origin : Nat
  request : HealthRequest
  reply : ProbeReply
deriving DecidableEq, Repr

/-- The probe that a reply answers. -/
def probeOf (goroutine : Goroutine) : CheckInput → List Probe
  | .reply reply =>
    match goroutine.stage with
    | .probing targetNode _ _ _ => [⟨goroutine.check.origin, healthRequest targetNode, reply⟩]
    | _ => []
  | _ => []

/-- The loop and its checks, with a clock. `probes` and `spawned` are history. -/
structure Probing where
  refresh : Refresh
  goroutines : List Goroutine
  clock : Nat
  records : List HealthRecord
  probes : List Probe
  spawned : List TargetNode

def Probing.init : Probing := ⟨.init, [], 0, [], [], []⟩

/-- A goroutine for each new check. -/
def Probing.spawn (state : Probing) (refresh : Refresh) : Probing :=
  let started := refresh.checks.drop state.goroutines.length
  { state with
    refresh
    goroutines := state.goroutines ++ started.map fun check => ⟨check, .starting⟩
    spawned := state.spawned ++ started.map HealthCheck.node }

def Probing.move (state : Probing) (index : Nat) (goroutine : Goroutine) (input : CheckInput)
    (stage : CheckStage) (records : List HealthRecord) : Probing :=
  { state with
    goroutines := state.goroutines.set index { goroutine with stage }
    records := state.records ++ records
    probes := state.probes ++ probeOf goroutine input }

/-- What a goroutine does after `CheckNodeHealth`: publish the node it returned, if it is still
wanted, or give up. -/
def Probing.finish (state : Probing) (index : Nat) : Option Probing :=
  match state.goroutines[index]? with
  | some ⟨check, .passed targetNode _⟩ =>
    some { state with
      refresh := state.refresh.complete index check targetNode
      goroutines := state.goroutines.eraseIdx index }
  | some ⟨_, .failed _⟩ =>
    some { state with
      refresh := { state.refresh with checks := state.refresh.checks.eraseIdx index }
      goroutines := state.goroutines.eraseIdx index }
  | _ => none

inductive ProbingAction where
  | tick (elapsed : Nat)
  | loop (action : RefreshAction)
  | advance (index : Nat) (input : CheckInput)
  | finish (index : Nat)

section Step

variable (checker : NodeHealthChecker) (proxied : Bytes → Bool)

def Probing.step (state : Probing) : ProbingAction → Option Probing
  | .tick elapsed => some { state with clock := state.clock + elapsed }
  | .loop (.fail _) => none
  | .loop (.complete _) => none
  | .loop action => (state.refresh.step proxied action).map state.spawn
  | .advance index input => do
    let goroutine ← state.goroutines[index]?
    let (stage, records) ←
      checker.advance proxied goroutine.check.node state.clock goroutine.stage input
    return state.move index goroutine input stage records
  | .finish index => state.finish index

end Step

variable {checker : NodeHealthChecker} {proxied : Bytes → Bool} {event : TargetNode} {now : Nat}

/-- Everything a goroutine can do. -/
theorem NodeHealthChecker.advance_cases {stage next : CheckStage} {input : CheckInput}
    {records : List HealthRecord}
    (advanced : checker.advance proxied event now stage input = some (next, records)) :
    (stage = .starting ∧ input = .start ∧ next = .building now ∧ records = []) ∨
    (∃ startTime, stage = .building startTime ∧ input = .build ∧ eventNode proxied event = none ∧
      next = .failed 0 ∧ records = [recordOf event .createFailed (some (now - startTime))]) ∨
    (∃ startTime targetNode, stage = .building startTime ∧ input = .build ∧
      eventNode proxied event = some targetNode ∧ next = .probing targetNode startTime now 1 ∧
      records = []) ∨
    (∃ targetNode startTime startCheckTime attemptCount reply,
      stage = .probing targetNode startTime startCheckTime attemptCount ∧ input = .reply reply ∧
      checker.processHealthCheck reply = true ∧ next = .passed targetNode attemptCount ∧
      records = [recordOf event .success (some (now - startTime))]) ∨
    (∃ targetNode startTime startCheckTime attemptCount reply,
      stage = .probing targetNode startTime startCheckTime attemptCount ∧ input = .reply reply ∧
      checker.maxWaitTime ≤ (now - startCheckTime : Nat) ∧ next = .failed attemptCount ∧
      records = [recordOf event .timeout (some (now - startTime))]) ∨
    (∃ targetNode startTime startCheckTime attemptCount reply,
      stage = .probing targetNode startTime startCheckTime attemptCount ∧ input = .reply reply ∧
      (now - startCheckTime : Nat) < checker.maxWaitTime ∧
      next = .sleeping targetNode startTime startCheckTime attemptCount (now + retryInterval) ∧
      records = [recordOf event .retry none]) ∨
    ∃ targetNode startTime startCheckTime attemptCount wakeAt,
      stage = .sleeping targetNode startTime startCheckTime attemptCount wakeAt ∧ input = .wake ∧
      wakeAt ≤ now ∧ next = .probing targetNode startTime startCheckTime (attemptCount + 1) ∧
      records = [] := by
  unfold NodeHealthChecker.advance at advanced
  split at advanced
  · cases advanced
    exact .inl ⟨rfl, rfl, rfl, rfl⟩
  · rename_i startTime
    split at advanced
    · rename_i unbuilt
      cases advanced
      exact .inr (.inl ⟨startTime, rfl, rfl, unbuilt, rfl, rfl⟩)
    · rename_i targetNode built
      cases advanced
      exact .inr (.inr (.inl ⟨startTime, targetNode, rfl, rfl, built, rfl, rfl⟩))
  · rename_i targetNode startTime startCheckTime attemptCount reply
    split_ifs at advanced with healthy late
    · cases advanced
      exact .inr (.inr (.inr (.inl ⟨_, _, _, _, reply, rfl, rfl, healthy, rfl, rfl⟩)))
    · cases advanced
      exact .inr (.inr (.inr (.inr (.inl ⟨_, _, _, _, reply, rfl, rfl, late, rfl, rfl⟩))))
    · cases advanced
      exact .inr (.inr (.inr (.inr (.inr (.inl
        ⟨_, _, _, _, reply, rfl, rfl, not_le.mp late, rfl, rfl⟩)))))
  · rename_i targetNode startTime startCheckTime attemptCount wakeAt
    split_ifs at advanced with awake
    cases advanced
    exact .inr (.inr (.inr (.inr (.inr (.inr ⟨_, _, _, _, wakeAt, rfl, rfl, awake, rfl, rfl⟩)))))
  · cases advanced

/-- Everything a step can do. -/
theorem Probing.step_cases {state final : Probing} {action : ProbingAction}
    (stepped : state.step checker proxied action = some final) :
    (∃ elapsed, action = .tick elapsed ∧
      final = { state with clock := state.clock + elapsed }) ∨
    (∃ loopAction refresh, action = .loop loopAction ∧ (∀ index, loopAction ≠ .fail index) ∧
      (∀ index, loopAction ≠ .complete index) ∧
      state.refresh.step proxied loopAction = some refresh ∧ final = state.spawn refresh) ∨
    (∃ index input goroutine stage records, action = .advance index input ∧
      state.goroutines[index]? = some goroutine ∧
      checker.advance proxied goroutine.check.node state.clock goroutine.stage input =
        some (stage, records) ∧
      final = state.move index goroutine input stage records) ∨
    (∃ index check targetNode attemptCount, action = .finish index ∧
      state.goroutines[index]? = some ⟨check, .passed targetNode attemptCount⟩ ∧
      final = { state with
        refresh := state.refresh.complete index check targetNode
        goroutines := state.goroutines.eraseIdx index }) ∨
    ∃ index check attemptCount, action = .finish index ∧
      state.goroutines[index]? = some ⟨check, .failed attemptCount⟩ ∧
      final = { state with
        refresh := { state.refresh with checks := state.refresh.checks.eraseIdx index }
        goroutines := state.goroutines.eraseIdx index } := by
  unfold Probing.step at stepped
  split at stepped
  · cases stepped
    exact .inl ⟨_, rfl, rfl⟩
  · cases stepped
  · cases stepped
  · rename_i loopAction notFail notComplete
    obtain ⟨refresh, moved, rfl⟩ := Option.map_eq_some_iff.mp stepped
    exact .inr (.inl ⟨loopAction, refresh, rfl, notFail, notComplete, moved, rfl⟩)
  · rename_i index input
    obtain ⟨goroutine, found, stepped⟩ := Option.bind_eq_some_iff.mp stepped
    obtain ⟨⟨stage, records⟩, advanced, stepped⟩ := Option.bind_eq_some_iff.mp stepped
    cases stepped
    exact .inr (.inr (.inl ⟨index, input, goroutine, stage, records, rfl, found, advanced, rfl⟩))
  · rename_i index
    unfold Probing.finish at stepped
    split at stepped
    · rename_i check targetNode attemptCount found
      cases stepped
      exact .inr (.inr (.inr (.inl ⟨index, check, targetNode, attemptCount, rfl, found, rfl⟩)))
    · rename_i check attemptCount found
      cases stepped
      exact .inr (.inr (.inr (.inr ⟨index, check, attemptCount, rfl, found, rfl⟩)))
    · cases stepped

/-! The goroutines do what the coarse checks do: each step of theirs is one of the loop's model, or
does not show there. -/

/-- The node a goroutine has built. -/
def CheckStage.targetNode : CheckStage → Option Node
  | .probing targetNode _ _ _ => some targetNode
  | .sleeping targetNode _ _ _ _ => some targetNode
  | .passed targetNode _ => some targetNode
  | _ => none

structure Probing.Faithful (proxied : Bytes → Bool) (state : Probing) : Prop where
  checks : state.refresh.checks = state.goroutines.map Goroutine.check
  built : ∀ goroutine ∈ state.goroutines, ∀ node, goroutine.stage.targetNode = some node →
    eventNode proxied goroutine.check.node = some node

theorem NodeHealthChecker.advance_built {stage next : CheckStage} {input : CheckInput}
    {records : List HealthRecord} {node : Node}
    (advanced : checker.advance proxied event now stage input = some (next, records))
    (before : ∀ node, stage.targetNode = some node → eventNode proxied event = some node)
    (held : next.targetNode = some node) : eventNode proxied event = some node := by
  rcases checker.advance_cases advanced with ⟨-, -, rfl, -⟩ | ⟨_, -, -, -, rfl, -⟩ |
    ⟨_, _, -, -, built, rfl, -⟩ | ⟨_, _, _, _, _, rfl, -, -, rfl, -⟩ |
    ⟨_, _, _, _, _, rfl, -, -, rfl, -⟩ | ⟨_, _, _, _, _, rfl, -, -, rfl, -⟩ |
    ⟨_, _, _, _, _, rfl, -, -, rfl, -⟩
  · cases held
  · cases held
  · cases held
    exact built
  · exact before node held
  · cases held
  · exact before node held
  · exact before node held

section Loop

variable {state final : Refresh} {action : RefreshAction}

/-- The loop starts checks and ends none. -/
theorem Refresh.checks_of_loop (stepped : state.step proxied action = some final)
    (notFail : ∀ index, action ≠ .fail index) (notComplete : ∀ index, action ≠ .complete index) :
    final.checks = state.checks ∨
      ∃ event gen, state.phase = .bumped event gen ∧ final.phase = .idle ∧ final.log = state.log ∧
        final.checks =
          state.checks ++ [⟨nodeIdentity event, event, gen, state.log.length - 1⟩] := by
  rcases Refresh.step_cases stepped with ⟨event, -, -, rfl⟩ | ⟨event, gen, -, bumped, rfl⟩ |
    ⟨_, -, -, rfl⟩ | ⟨_, -, -, rfl⟩ | ⟨index, same, -⟩ | ⟨index, _, _, same, -⟩
  · exact .inl (Refresh.consume_checks state event)
  · unfold Refresh.inspect
    split
    · exact .inl rfl
    · exact .inr ⟨event, gen, bumped, rfl, rfl, rfl⟩
  · exact .inl rfl
  · exact .inl rfl
  · exact absurd same (notFail index)
  · exact absurd same (notComplete index)

theorem Refresh.published_of_loop (stepped : state.step proxied action = some final)
    (notComplete : ∀ index, action ≠ .complete index) : final.published = state.published := by
  rcases Refresh.step_cases stepped with ⟨event, -, -, rfl⟩ | ⟨event, gen, -, -, rfl⟩ |
    ⟨_, -, -, rfl⟩ | ⟨_, -, -, rfl⟩ | ⟨_, -, rfl⟩ | ⟨index, _, _, same, -⟩
  · exact Refresh.consume_published state event
  · exact Refresh.inspect_published state event gen
  · rfl
  · rfl
  · rfl
  · exact absurd same (notComplete index)

end Loop

section Faithful

variable {state final : Probing} {action : ProbingAction} {refresh : Refresh}

theorem Probing.Faithful.spawn (faithful : state.Faithful proxied)
    (grown : state.refresh.checks <+: refresh.checks) :
    (state.spawn refresh).Faithful proxied := by
  obtain ⟨fresh, grown⟩ := grown
  have started : refresh.checks.drop state.goroutines.length = fresh := by
    rw [← grown, faithful.checks]
    exact List.drop_left' (by simp)
  refine ⟨?_, fun goroutine member node held => ?_⟩
  · simp only [Probing.spawn, started, List.map_append, List.map_map]
    rw [← grown, faithful.checks]
    simp [Function.comp_def]
  · rcases List.mem_append.mp member with old | new
    · exact faithful.built goroutine old node held
    · obtain ⟨check, -, rfl⟩ := List.mem_map.mp new
      cases held

theorem Probing.checks_move {index : Nat} {goroutine : Goroutine}
    (found : state.goroutines[index]? = some goroutine) (input : CheckInput) (stage : CheckStage)
    (records : List HealthRecord) :
    (state.move index goroutine input stage records).goroutines.map Goroutine.check =
      state.goroutines.map Goroutine.check :=
  map_set_of_eq found { goroutine with stage } rfl

/-- The coarse step behind a step, if it has one. -/
theorem Probing.Faithful.refresh_step (faithful : state.Faithful proxied)
    (stepped : state.step checker proxied action = some final) :
    final.refresh = state.refresh ∨
      ∃ refreshAction, state.refresh.step proxied refreshAction = some final.refresh := by
  have check_of {index : Nat} {check : HealthCheck} {stage : CheckStage}
      (found : state.goroutines[index]? = some ⟨check, stage⟩) :
      state.refresh.checks[index]? = some check := by
    rw [faithful.checks, List.getElem?_map, found]
    rfl
  rcases Probing.step_cases stepped with ⟨_, -, rfl⟩ | ⟨loopAction, _, -, -, -, moved, rfl⟩ |
    ⟨_, _, _, _, _, -, -, -, rfl⟩ | ⟨index, check, targetNode, _, -, found, rfl⟩ |
    ⟨index, check, _, -, found, rfl⟩
  · exact .inl rfl
  · exact .inr ⟨loopAction, moved⟩
  · exact .inl rfl
  · have built := faithful.built _ (List.mem_of_getElem? found) targetNode rfl
    refine .inr ⟨.complete index, ?_⟩
    simp only [Refresh.step, check_of found]
    rw [built, Option.map_some]
  · have inside := (List.getElem?_eq_some_iff.mp (check_of found)).1
    exact .inr ⟨.fail index, if_pos inside⟩

theorem Probing.Faithful.step (faithful : state.Faithful proxied)
    (stepped : state.step checker proxied action = some final) : final.Faithful proxied := by
  rcases Probing.step_cases stepped with ⟨_, -, rfl⟩ | ⟨_, _, -, notFail, notComplete, moved, rfl⟩ |
    ⟨_, _, goroutine, _, _, -, found, advanced, rfl⟩ | ⟨index, check, targetNode, _, -, found, rfl⟩ |
    ⟨index, check, _, -, found, rfl⟩
  · exact ⟨faithful.checks, faithful.built⟩
  · refine faithful.spawn ?_
    rcases Refresh.checks_of_loop moved notFail notComplete with same | ⟨_, _, -, -, -, grown⟩
    · rw [same]
    · rw [grown]
      exact List.prefix_append _ _
  · refine ⟨faithful.checks.trans (Probing.checks_move found _ _ _).symm,
      fun other member node held => ?_⟩
    rcases List.mem_or_eq_of_mem_set member with old | rfl
    · exact faithful.built other old node held
    · exact checker.advance_built advanced
        (faithful.built goroutine (List.mem_of_getElem? found)) held
  · refine ⟨?_, fun other member => faithful.built other (List.mem_of_mem_eraseIdx member)⟩
    show state.refresh.checks.eraseIdx index = _
    rw [faithful.checks, List.eraseIdx_map]
  · refine ⟨?_, fun other member => faithful.built other (List.mem_of_mem_eraseIdx member)⟩
    show state.refresh.checks.eraseIdx index = _
    rw [faithful.checks, List.eraseIdx_map]

end Faithful

/-- A run with its goroutines is a run of the loop and its coarse checks. -/
theorem Probing.faithful_of_run {schedule : List ProbingAction} {state : Probing}
    (run : exec (Probing.step checker proxied) .init schedule = some state) :
    state.Faithful proxied ∧
      ∃ actions, exec (Refresh.step proxied) .init actions = some state.refresh := by
  refine exec_invariant (motive := fun state => state.Faithful proxied ∧
    ∃ actions, exec (Refresh.step proxied) .init actions = some state.refresh)
    ⟨⟨rfl, fun _ member => absurd member List.not_mem_nil⟩, [], rfl⟩ ?_ run
  rintro state action final ⟨faithful, actions, ran⟩ stepped
  refine ⟨faithful.step stepped, ?_⟩
  rcases faithful.refresh_step stepped with same | ⟨refreshAction, moved⟩
  · exact ⟨actions, same ▸ ran⟩
  · exact ⟨actions ++ [refreshAction], exec_extend ran moved⟩

/-! The time a check takes, and what it is counted as. -/

/-- A check may send this many probes: the one before the last is followed by a wait, and no wait
begins after the time is up. -/
def NodeHealthChecker.Within (checker : NodeHealthChecker) (attempts : Nat) : Prop :=
  attempts ≤ 1 ∨ ((attempts - 2) * retryInterval : Nat) < checker.maxWaitTime

theorem NodeHealthChecker.within_of_le (checker : NodeHealthChecker) {attempts : Nat}
    (few : attempts ≤ 1) : checker.Within attempts := .inl few

theorem NodeHealthChecker.within_of_waited (checker : NodeHealthChecker) {attempts : Nat}
    (waited : ((attempts - 1) * retryInterval : Nat) < checker.maxWaitTime) :
    checker.Within attempts := by
  have fewer : (attempts - 2) * retryInterval ≤ (attempts - 1) * retryInterval :=
    Nat.mul_le_mul_right _ (by omega)
  exact .inr (by omega)

theorem NodeHealthChecker.Within.mono {attempts fewer : Nat} (within : checker.Within attempts)
    (less : fewer ≤ attempts) : checker.Within fewer := by
  rcases within with few | waited
  · exact .inl (less.trans few)
  · have fewer : (fewer - 2) * retryInterval ≤ (attempts - 2) * retryInterval :=
      Nat.mul_le_mul_right _ (by omega)
    exact .inr (by omega)

def CheckStage.OnTime (checker : NodeHealthChecker) (now : Nat) : CheckStage → Prop
  | .starting => True
  | .building startTime => startTime ≤ now
  | .probing _ startTime startCheckTime attemptCount =>
    startTime ≤ startCheckTime ∧ 1 ≤ attemptCount ∧
      startCheckTime + (attemptCount - 1) * retryInterval ≤ now ∧ checker.Within attemptCount
  | .sleeping _ startTime startCheckTime attemptCount wakeAt =>
    startTime ≤ startCheckTime ∧ 1 ≤ attemptCount ∧
      startCheckTime + attemptCount * retryInterval ≤ wakeAt ∧
      ((attemptCount - 1) * retryInterval : Nat) < checker.maxWaitTime
  | .passed _ attemptCount => checker.Within attemptCount
  | .failed attemptCount => checker.Within attemptCount

/-- The probes that were answered or given up. -/
def CheckStage.sent : CheckStage → Nat
  | .starting => 0
  | .building _ => 0
  | .probing _ _ _ attemptCount => attemptCount - 1
  | .sleeping _ _ _ attemptCount _ => attemptCount
  | .passed _ attemptCount => attemptCount
  | .failed attemptCount => attemptCount

/-- The goroutine is in `CheckNodeHealth`. -/
def CheckStage.running : CheckStage → Bool
  | .passed _ _ => false
  | .failed _ => false
  | _ => true

theorem CheckStage.OnTime.later {stage : CheckStage} (onTime : stage.OnTime checker now)
    (elapsed : Nat) : stage.OnTime checker (now + elapsed) := by
  cases stage with
  | building startTime => exact Nat.le_trans onTime (Nat.le_add_right _ _)
  | probing targetNode startTime startCheckTime attemptCount =>
    obtain ⟨ordered, positive, past, within⟩ := onTime
    exact ⟨ordered, positive, Nat.le_trans past (Nat.le_add_right _ _), within⟩
  | _ => exact onTime

theorem CheckStage.OnTime.within {stage : CheckStage} (onTime : stage.OnTime checker now) :
    checker.Within stage.sent := by
  cases stage with
  | starting => exact checker.within_of_le (Nat.zero_le 1)
  | building startTime => exact checker.within_of_le (Nat.zero_le 1)
  | probing targetNode startTime startCheckTime attemptCount =>
    exact onTime.2.2.2.mono (Nat.sub_le _ _)
  | sleeping targetNode startTime startCheckTime attemptCount wakeAt =>
    exact checker.within_of_waited onTime.2.2.2
  | passed targetNode attemptCount => exact onTime
  | failed attemptCount => exact onTime

section Advanced

variable {stage next : CheckStage} {input : CheckInput} {records : List HealthRecord}

theorem NodeHealthChecker.advance_onTime
    (advanced : checker.advance proxied event now stage input = some (next, records))
    (onTime : stage.OnTime checker now) : next.OnTime checker now := by
  rcases checker.advance_cases advanced with ⟨rfl, -, rfl, -⟩ | ⟨_, rfl, -, -, rfl, -⟩ |
    ⟨_, _, rfl, -, -, rfl, -⟩ | ⟨_, _, _, _, _, rfl, -, -, rfl, -⟩ |
    ⟨_, _, _, _, _, rfl, -, -, rfl, -⟩ | ⟨_, _, _, _, _, rfl, -, early, rfl, -⟩ |
    ⟨_, _, _, _, _, rfl, -, awake, rfl, -⟩
  · exact Nat.le_refl now
  · exact checker.within_of_le (Nat.zero_le 1)
  · exact ⟨onTime, Nat.le_refl 1, by simp, checker.within_of_le (Nat.le_refl 1)⟩
  · exact onTime.2.2.2
  · exact onTime.2.2.2
  · rename_i attemptCount _
    obtain ⟨ordered, positive, past, -⟩ := onTime
    have next : attemptCount * retryInterval = (attemptCount - 1) * retryInterval + retryInterval := by
      rw [← Nat.succ_mul, Nat.succ_eq_add_one, Nat.sub_add_cancel positive]
    exact ⟨ordered, positive, by omega, by omega⟩
  · rename_i attemptCount _
    obtain ⟨ordered, positive, planned, waited⟩ := onTime
    refine ⟨ordered, Nat.le_add_left 1 _, ?_, .inr ?_⟩
    · rw [Nat.add_sub_cancel]
      exact planned.trans awake
    · rwa [show attemptCount + 1 - 2 = attemptCount - 1 by omega]

/-- A reply is one more probe, and nothing else is. -/
theorem NodeHealthChecker.advance_sent {check : HealthCheck}
    (advanced : checker.advance proxied event now stage input = some (next, records))
    (onTime : stage.OnTime checker now) :
    next.sent = stage.sent + (probeOf ⟨check, stage⟩ input).length := by
  rcases checker.advance_cases advanced with ⟨rfl, rfl, rfl, -⟩ | ⟨_, rfl, rfl, -, rfl, -⟩ |
    ⟨_, _, rfl, rfl, -, rfl, -⟩ | ⟨_, _, _, _, _, rfl, rfl, -, rfl, -⟩ |
    ⟨_, _, _, _, _, rfl, rfl, -, rfl, -⟩ | ⟨_, _, _, _, _, rfl, rfl, -, rfl, -⟩ |
    ⟨_, _, _, _, _, rfl, rfl, -, rfl, -⟩
  · rfl
  · rfl
  · rfl
  · exact (Nat.sub_add_cancel onTime.2.1).symm
  · exact (Nat.sub_add_cancel onTime.2.1).symm
  · exact (Nat.sub_add_cancel onTime.2.1).symm
  · rfl

/-- A check is counted once, as it ends; a timeout is not counted before its time. -/
theorem NodeHealthChecker.advance_records
    (advanced : checker.advance proxied event now stage input = some (next, records))
    (onTime : stage.OnTime checker now) :
    stage.running = true ∧
    (∀ record ∈ records, record.chainId = event.chainId ∧ record.nodeKey = event.nodeKey) ∧
    (records.countP (fun record => record.status ≠ .retry) = if next.running then 0 else 1) ∧
    ∀ record ∈ records, record.status = .timeout →
      ∃ duration : Nat, record.duration = some duration ∧ checker.maxWaitTime ≤ duration := by
  rcases checker.advance_cases advanced with ⟨rfl, -, rfl, rfl⟩ | ⟨_, rfl, -, -, rfl, rfl⟩ |
    ⟨_, _, rfl, -, -, rfl, rfl⟩ | ⟨_, _, _, _, _, rfl, -, -, rfl, rfl⟩ |
    ⟨_, startTime, startCheckTime, _, _, rfl, -, late, rfl, rfl⟩ |
    ⟨_, _, _, _, _, rfl, -, -, rfl, rfl⟩ | ⟨_, _, _, _, _, rfl, -, -, rfl, rfl⟩
  case inr.inr.inr.inr.inl =>
    obtain ⟨ordered, -, -, -⟩ := onTime
    refine ⟨rfl, List.forall_mem_singleton.mpr ⟨rfl, rfl⟩, rfl, List.forall_mem_singleton.mpr ?_⟩
    exact fun _ => ⟨now - startTime, rfl, late.trans (by omega)⟩
  case inr.inl | inr.inr.inr.inl | inr.inr.inr.inr.inr.inl =>
    exact ⟨rfl, List.forall_mem_singleton.mpr ⟨rfl, rfl⟩, rfl, List.forall_mem_singleton.mpr nofun⟩
  all_goals exact ⟨rfl, nofun, rfl, nofun⟩

end Advanced

/-- The positions of the log for which a check may have been started. -/
def Refresh.claimed (state : Refresh) : Nat :=
  match state.phase with
  | .bumped _ _ => state.log.length - 1
  | _ => state.log.length

theorem Refresh.claimed_le_length (state : Refresh) : state.claimed ≤ state.log.length := by
  unfold Refresh.claimed
  split
  · exact Nat.sub_le _ _
  · exact Nat.le_refl _

theorem Refresh.claimed_of_step {state final : Refresh} {action : RefreshAction}
    (stepped : state.step proxied action = some final) : state.claimed ≤ final.claimed := by
  rcases Refresh.step_cases stepped with ⟨event, -, -, rfl⟩ | ⟨event, gen, -, -, rfl⟩ |
    ⟨_, -, -, rfl⟩ | ⟨_, -, -, rfl⟩ | ⟨_, -, rfl⟩ | ⟨_, _, _, -, -, -, rfl⟩
  · refine state.claimed_le_length.trans ?_
    simp only [Refresh.claimed, Refresh.consume_log, List.length_append, List.length_singleton]
    split <;> omega
  · refine state.claimed_le_length.trans ?_
    unfold Refresh.inspect
    split <;> exact Nat.le_refl _
  · exact state.claimed_le_length
  · exact state.claimed_le_length
  · exact Nat.le_refl _
  · exact Nat.le_refl _

def Probing.sentFor (state : Probing) (origin : Nat) : Nat :=
  state.probes.countP fun probe => probe.origin = origin

/-- The labels of the metrics. -/
def labelled (chainId nodeKey : Bytes) (event : TargetNode) : Bool :=
  event.chainId = chainId && event.nodeKey = nodeKey

/-- The checks of a node that are in `CheckNodeHealth`. -/
def Probing.inFlight (state : Probing) (chainId nodeKey : Bytes) : Nat :=
  state.goroutines.countP fun goroutine =>
    labelled chainId nodeKey goroutine.check.node && goroutine.stage.running

/-- The checks of a node that were counted as failed to build, passed or timed out. -/
def Probing.outcomes (state : Probing) (chainId nodeKey : Bytes) : Nat :=
  state.records.countP fun record =>
    record.chainId = chainId && record.nodeKey = nodeKey && record.status ≠ .retry

structure Probing.Metered (checker : NodeHealthChecker) (state : Probing) : Prop where
  distinct : (state.goroutines.map fun goroutine => goroutine.check.origin).Nodup
  claimed : ∀ goroutine ∈ state.goroutines, goroutine.check.origin < state.refresh.claimed
  probed : ∀ probe ∈ state.probes, probe.origin < state.refresh.claimed
  onTime : ∀ goroutine ∈ state.goroutines, goroutine.stage.OnTime checker state.clock
  sent : ∀ goroutine ∈ state.goroutines,
    state.sentFor goroutine.check.origin = goroutine.stage.sent
  within : ∀ origin, checker.Within (state.sentFor origin)
  settled : ∀ chainId nodeKey, state.spawned.countP (labelled chainId nodeKey) =
    state.inFlight chainId nodeKey + state.outcomes chainId nodeKey
  timeouts : ∀ record ∈ state.records, record.status = .timeout →
    ∃ duration : Nat, record.duration = some duration ∧ checker.maxWaitTime ≤ duration

section Metered

variable {state : Probing} {refresh : Refresh} {goroutine : Goroutine} {index : Nat}

theorem Probing.Metered.tick (metered : state.Metered checker) (elapsed : Nat) :
    Probing.Metered checker { state with clock := state.clock + elapsed } where
  distinct := metered.distinct
  claimed := metered.claimed
  probed := metered.probed
  onTime := fun goroutine member => (metered.onTime goroutine member).later elapsed
  sent := metered.sent
  within := metered.within
  settled := metered.settled
  timeouts := metered.timeouts

/-- Of a PUT that was not claimed no probe was sent. -/
theorem Probing.Metered.sentFor_eq_zero (metered : state.Metered checker) {origin : Nat}
    (fresh : state.refresh.claimed ≤ origin) : state.sentFor origin = 0 := by
  refine List.countP_eq_zero.mpr fun probe member => ?_
  have older := metered.probed probe member
  simp only [decide_eq_true_eq]
  omega

/-- The loop went on without a new check. -/
theorem Probing.Metered.spawn_none (metered : state.Metered checker)
    (same : refresh.checks.length = state.goroutines.length)
    (grown : state.refresh.claimed ≤ refresh.claimed) : (state.spawn refresh).Metered checker := by
  have nothing : refresh.checks.drop state.goroutines.length = [] :=
    List.drop_eq_nil_of_le (Nat.le_of_eq same)
  have spawned : state.spawn refresh = { state with refresh } := by
    simp [Probing.spawn, nothing]
  rw [spawned]
  exact ⟨metered.distinct, fun other member => (metered.claimed other member).trans_le grown,
    fun probe member => (metered.probed probe member).trans_le grown, metered.onTime, metered.sent,
    metered.within, metered.settled, metered.timeouts⟩

theorem Probing.Metered.spawn_one (metered : state.Metered checker) {check : HealthCheck}
    (one : refresh.checks.drop state.goroutines.length = [check])
    (unclaimed : check.origin = state.refresh.claimed)
    (claimed : check.origin < refresh.claimed) : (state.spawn refresh).Metered checker := by
  have spawned : state.spawn refresh = { state with
      refresh
      goroutines := state.goroutines ++ [⟨check, .starting⟩]
      spawned := state.spawned ++ [check.node] } := by
    simp [Probing.spawn, one]
  rw [spawned]
  have older (origin : Nat) (before : origin < state.refresh.claimed) : origin < refresh.claimed := by
    omega
  refine ⟨?_, ?_, fun probe member => older _ (metered.probed probe member), ?_, ?_, metered.within,
    ?_, metered.timeouts⟩
  · rw [List.map_append, List.nodup_append]
    refine ⟨metered.distinct, List.nodup_singleton _, ?_⟩
    intro origin listed other last
    obtain ⟨goroutine, member, rfl⟩ := List.mem_map.mp listed
    have before := metered.claimed goroutine member
    have last : other = check.origin := List.mem_singleton.mp last
    omega
  · intro goroutine member
    rcases List.mem_append.mp member with old | new
    · exact older _ (metered.claimed goroutine old)
    · rw [List.mem_singleton.mp new]
      exact claimed
  · intro goroutine member
    rcases List.mem_append.mp member with old | new
    · exact metered.onTime goroutine old
    · rw [List.mem_singleton.mp new]
      trivial
  · intro goroutine member
    rcases List.mem_append.mp member with old | new
    · exact metered.sent goroutine old
    · rw [List.mem_singleton.mp new]
      exact metered.sentFor_eq_zero (Nat.le_of_eq unclaimed.symm)
  · intro chainId nodeKey
    have before := metered.settled chainId nodeKey
    simp only [Probing.inFlight, Probing.outcomes, List.countP_append, List.countP_singleton,
      CheckStage.running, Bool.and_true] at before ⊢
    omega

theorem countP_probeOf (goroutine : Goroutine) (input : CheckInput) (origin : Nat) :
    (probeOf goroutine input).countP (fun probe => probe.origin = origin) =
      if origin = goroutine.check.origin then (probeOf goroutine input).length else 0 := by
  unfold probeOf
  split
  · split
    · simp [List.countP_singleton, eq_comm]
    · simp
  · simp

theorem Probing.sentFor_move (state : Probing) (index : Nat) (goroutine : Goroutine)
    (input : CheckInput) (stage : CheckStage) (records : List HealthRecord) (origin : Nat) :
    (state.move index goroutine input stage records).sentFor origin = state.sentFor origin +
      if origin = goroutine.check.origin then (probeOf goroutine input).length else 0 := by
  rw [← countP_probeOf]
  exact List.countP_append

theorem origin_of_probeOf {input : CheckInput} {probe : Probe} (member : probe ∈ probeOf goroutine input) :
    probe.origin = goroutine.check.origin := by
  unfold probeOf at member
  split at member
  · split at member
    · rw [List.mem_singleton.mp member]
    · cases member
  · cases member

/-- What one step adds to the outcomes. -/
theorem countP_outcomes {records : List HealthRecord} {event : TargetNode}
    (labels : ∀ record ∈ records, record.chainId = event.chainId ∧ record.nodeKey = event.nodeKey)
    (chainId nodeKey : Bytes) :
    records.countP (fun record =>
        record.chainId = chainId && record.nodeKey = nodeKey && record.status ≠ .retry) =
      if labelled chainId nodeKey event then records.countP (fun record => record.status ≠ .retry)
      else 0 := by
  split_ifs with own
  · refine List.countP_congr fun record member => ?_
    obtain ⟨chain, key⟩ := labels record member
    simp only [labelled, ← chain, ← key] at own
    simp only [own, Bool.true_and]
  · refine List.countP_eq_zero.mpr fun record member counted => own ?_
    obtain ⟨chain, key⟩ := labels record member
    rw [Bool.and_eq_true] at counted
    simpa only [labelled, ← chain, ← key] using counted.1

theorem Probing.Metered.move (metered : state.Metered checker) {input : CheckInput}
    {stage : CheckStage} {records : List HealthRecord}
    (found : state.goroutines[index]? = some goroutine)
    (advanced : checker.advance proxied goroutine.check.node state.clock goroutine.stage input =
      some (stage, records)) :
    (state.move index goroutine input stage records).Metered checker := by
  have member := List.mem_of_getElem? found
  have before := metered.onTime goroutine member
  have onTime := checker.advance_onTime advanced before
  have sent : (state.move index goroutine input stage records).sentFor goroutine.check.origin =
      stage.sent := by
    rw [Probing.sentFor_move, if_pos rfl, metered.sent goroutine member]
    exact (checker.advance_sent advanced before).symm
  have others (origin : Nat) (apart : origin ≠ goroutine.check.origin) :
      (state.move index goroutine input stage records).sentFor origin = state.sentFor origin := by
    rw [Probing.sentFor_move, if_neg apart, Nat.add_zero]
  obtain ⟨running, labels, ended, timeouts⟩ := checker.advance_records advanced before
  have distinct : ((state.goroutines.set index { goroutine with stage }).map
      fun goroutine => goroutine.check.origin).Nodup := by
    rw [map_set_of_eq found { goroutine with stage } rfl]
    exact metered.distinct
  have moved : { goroutine with stage } ∈ state.goroutines.set index { goroutine with stage } :=
    List.mem_set (List.getElem?_eq_some_iff.mp found).1 _
  refine ⟨distinct, ?_, ?_, ?_, ?_, ?_, ?_, ?_⟩
  · intro other listed
    rcases List.mem_or_eq_of_mem_set listed with old | rfl
    · exact metered.claimed other old
    · exact metered.claimed goroutine member
  · intro probe listed
    rcases List.mem_append.mp listed with old | new
    · exact metered.probed probe old
    · rw [origin_of_probeOf new]
      exact metered.claimed goroutine member
  · intro other listed
    rcases List.mem_or_eq_of_mem_set listed with old | rfl
    · exact metered.onTime other old
    · exact onTime
  · intro other listed
    by_cases own : other.check.origin = goroutine.check.origin
    · rw [List.inj_on_of_nodup_map distinct listed moved own]
      exact sent
    · rw [others _ own]
      rcases List.mem_or_eq_of_mem_set listed with old | rfl
      · exact metered.sent other old
      · exact absurd rfl own
  · intro origin
    by_cases own : origin = goroutine.check.origin
    · rw [own, sent]
      exact onTime.within
    · rw [others origin own]
      exact metered.within origin
  · intro chainId nodeKey
    have balance := metered.settled chainId nodeKey
    have counted := countP_set_add found { goroutine with stage } fun goroutine =>
      labelled chainId nodeKey goroutine.check.node && goroutine.stage.running
    have added := countP_outcomes labels chainId nodeKey
    rw [ended] at added
    simp only [running, Bool.and_true] at counted
    simp only [Probing.inFlight, Probing.outcomes, Probing.move, List.countP_append] at balance ⊢
    rw [added]
    cases own : labelled chainId nodeKey goroutine.check.node
    · simp only [own, Bool.false_and, Bool.false_eq_true, if_false] at counted ⊢
      omega
    · cases runs : stage.running <;>
        simp only [own, runs, Bool.true_and, Bool.false_eq_true, if_true, if_false] at counted ⊢ <;>
        omega
  · intro record listed
    rcases List.mem_append.mp listed with old | new
    · exact metered.timeouts record old
    · exact timeouts record new

/-- A goroutine leaves after it has been counted. -/
theorem Probing.Metered.finish (metered : state.Metered checker)
    (found : state.goroutines[index]? = some goroutine) (ended : goroutine.stage.running = false)
    (same : refresh.claimed = state.refresh.claimed) :
    Probing.Metered checker { state with
      refresh, goroutines := state.goroutines.eraseIdx index } where
  distinct := metered.distinct.sublist ((List.eraseIdx_sublist _ _).map _)
  claimed := fun other member => same ▸ metered.claimed other (List.mem_of_mem_eraseIdx member)
  probed := fun probe member => same ▸ metered.probed probe member
  onTime := fun other member => metered.onTime other (List.mem_of_mem_eraseIdx member)
  sent := fun other member => metered.sent other (List.mem_of_mem_eraseIdx member)
  within := metered.within
  settled := by
    intro chainId nodeKey
    rw [metered.settled]
    congr 1
    exact (countP_eraseIdx_of_not found (by simp [ended])).symm
  timeouts := metered.timeouts

theorem Probing.Metered.step {final : Probing} {action : ProbingAction}
    (metered : state.Metered checker) (faithful : state.Faithful proxied)
    (anchored : state.refresh.Anchored)
    (stepped : state.step checker proxied action = some final) : final.Metered checker := by
  rcases Probing.step_cases stepped with ⟨elapsed, -, rfl⟩ |
    ⟨loopAction, refresh, -, notFail, notComplete, moved, rfl⟩ |
    ⟨_, _, _, _, _, -, found, advanced, rfl⟩ | ⟨_, _, _, _, -, found, rfl⟩ | ⟨_, _, _, -, found, rfl⟩
  · exact metered.tick elapsed
  · have aligned : state.refresh.checks.length = state.goroutines.length := by
      rw [faithful.checks, List.length_map]
    rcases Refresh.checks_of_loop moved notFail notComplete with
      same | ⟨event, gen, bumped, idle, log, grown⟩
    · exact metered.spawn_none (by rw [same, aligned]) (Refresh.claimed_of_step moved)
    · have handled := anchored.phase event (by rw [bumped]; rfl)
      have inside := (List.getElem?_eq_some_iff.mp handled).1
      refine metered.spawn_one (by rw [grown, ← aligned, List.drop_left]) ?_ ?_
      · simp only [Refresh.claimed, bumped]
      · simp only [Refresh.claimed, idle, log]
        exact inside
  · exact metered.move found advanced
  · exact metered.finish found rfl rfl
  · exact metered.finish found rfl rfl

end Metered

theorem Probing.metered_init : Probing.init.Metered checker where
  distinct := List.nodup_nil
  claimed := fun _ member => absurd member List.not_mem_nil
  probed := fun _ member => absurd member List.not_mem_nil
  onTime := fun _ member => absurd member List.not_mem_nil
  sent := fun _ member => absurd member List.not_mem_nil
  within := fun _ => checker.within_of_le (Nat.zero_le 1)
  settled := fun _ _ => rfl
  timeouts := fun _ member => absurd member List.not_mem_nil

theorem Probing.metered_of_run {schedule : List ProbingAction} {state : Probing}
    (run : exec (Probing.step checker proxied) .init schedule = some state) :
    state.Metered checker := by
  refine exec_induction (motive := fun _ state => state.Metered checker) Probing.metered_init ?_ run
  intro schedule state action final before metered stepped
  obtain ⟨faithful, actions, ran⟩ := Probing.faithful_of_run before
  exact metered.step faithful (Refresh.anchored_of_run ran) stepped

/-- In every run, each check that was started is still in `CheckNodeHealth` or was counted once as
failed to build, passed or timed out; a timeout is counted with at least the maximal wait; and for
one PUT no more probes are sent than fit into the maximal wait at five seconds apart, and one. -/
theorem health_checks_settle (checker : NodeHealthChecker) (proxied : Bytes → Bool)
    (schedule : List ProbingAction) (state : Probing)
    (run : exec (Probing.step checker proxied) .init schedule = some state) :
    (∀ chainId nodeKey, state.spawned.countP (labelled chainId nodeKey) =
      state.inFlight chainId nodeKey + state.outcomes chainId nodeKey) ∧
    (∀ record ∈ state.records, record.status = .timeout →
      ∃ duration : Nat, record.duration = some duration ∧ checker.maxWaitTime ≤ duration) ∧
    ∀ origin, state.sentFor origin ≤ 1 ∨
      ((state.sentFor origin - 2) * retryInterval : Nat) < checker.maxWaitTime := by
  have metered := Probing.metered_of_run run
  exact ⟨metered.settled, metered.timeouts, metered.within⟩

/-- Two tries of a node that answers the second one. -/
def retriedSchedule : List ProbingAction :=
  [.loop (.consume (movedEvent "10.0.0.1")), .loop .inspect, .advance 0 .start, .advance 0 .build,
    .tick 10, .advance 0 (.reply .unanswered), .tick retryInterval, .advance 0 .wake,
    .advance 0 (.reply (.response 200 (some (ascii "ok")))), .finish 0]

/-- A checker that waits a minute and takes every body for a result. -/
def lenientChecker : NodeHealthChecker := ⟨60000000000, fun body => some ⟨body, none⟩⟩

theorem health_checks_settle_retried :
    ∃ state, exec (Probing.step lenientChecker fun _ => true) .init retriedSchedule = some state ∧
      state.outcomes (ascii "1") (ascii "n1") = 1 ∧ state.sentFor 0 = 2 ∧
      (state.sentFor 0 ≤ 1 ∨
        ((state.sentFor 0 - 2) * retryInterval : Nat) < lenientChecker.maxWaitTime) := by
  have facts : (exec (Probing.step lenientChecker fun _ => true) .init retriedSchedule).map
      (fun state => (state.outcomes (ascii "1") (ascii "n1"), state.sentFor 0)) = some (1, 2) := by
    decide +kernel
  obtain ⟨state, run, same⟩ := Option.map_eq_some_iff.mp facts
  obtain ⟨outcome, sent⟩ := Prod.mk.inj same
  exact ⟨state, run, outcome, sent, (health_checks_settle _ _ _ _ run).2.2 0⟩

end NodexProxy.Lb
