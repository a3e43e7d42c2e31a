import NodexProxy.Lb.GatewaySwitch
import NodexProxy.Lb.HealthCheck

/-! Requests and health checks. A node that is available came into the pools through a check that
it passed, and requests go to nodes that are not available only where no other is left. -/

namespace NodexProxy.Lb

open NodexProxy.Foundation NodexProxy.Discovery

/-- An available entry was published by a check of the PUT it shows. -/
structure Refresh.Vetted (proxied : Bytes → Bool) (state : Refresh) : Prop where
  entries : ∀ place, ∀ entry ∈ state.selector.at place, entry.available = true →
    ∃ position ∈ state.published, Shown proxied state.log place entry position
  downgrade : ∀ event, state.phase = .downgrading event → event.stateType ≠ stateAvailable

section Vetted

variable {proxied : Bytes → Bool} {state final : Refresh} {event : TargetNode}

theorem Shown.append {log : List TargetNode} {place : Place} {entry : Node} {position : Nat}
    (shown : Shown proxied log place entry position) (event : TargetNode) :
    Shown proxied (log ++ [event]) place entry position := by
  obtain ⟨put, node, found, rest⟩ := shown
  exact ⟨put, node, getElem?_concat_of_some found event, rest⟩

theorem Refresh.Vetted.consume (vetted : state.Vetted proxied) (event : TargetNode) :
    (state.consume event).Vetted proxied := by
  refine ⟨fun place entry member available => ?_, fun other downgrading => ?_⟩
  · rw [Refresh.consume_selector] at member
    obtain ⟨position, listed, shown⟩ := vetted.entries place entry member available
    rw [Refresh.consume_published, Refresh.consume_log]
    exact ⟨position, listed, shown.append event⟩
  · unfold Refresh.consume at downgrading
    split at downgrading <;> cases downgrading

theorem Refresh.Vetted.inspect (vetted : state.Vetted proxied) (gen : UInt64) :
    (state.inspect event gen).Vetted proxied := by
  refine ⟨?_, fun other downgrading => ?_⟩
  · rw [Refresh.inspect_selector, Refresh.inspect_published, Refresh.inspect_log]
    exact vetted.entries
  · unfold Refresh.inspect at downgrading
    split at downgrading
    · rename_i lowered
      cases downgrading
      exact lowered.1
    · cases downgrading

theorem Node.Publishes.available {entry node : Node} (publishes : entry.Publishes node) :
    entry.available = node.available := by
  unfold Node.available
  rw [publishes.2.2.2.2.2]

/-- A downgrade makes no entry available. -/
theorem Refresh.Vetted.applyNodeState (vetted : state.Vetted proxied)
    (pools : state.selector.WellFormed) (downgrading : state.phase = .downgrading event) :
    Refresh.Vetted proxied { state with
      selector := applyNodeState proxied event state.selector, phase := .idle } := by
  refine ⟨fun place entry member available => ?_, nofun⟩
  unfold Lb.applyNodeState at member
  split at member
  · exact vetted.entries place entry member available
  · rename_i target built
    obtain ⟨written, publishes, at_place⟩ := pools.at_upsert built
    simp only [at_place] at member
    split at member
    · rw [List.mem_singleton.mp member, publishes.available, Node.available,
        (eventNode_some built).2.2.2] at available
      exact absurd (eq_of_beq available) (vetted.downgrade event downgrading)
    · exact vetted.entries place entry member available

theorem Refresh.Vetted.remove (vetted : state.Vetted proxied) (pools : state.selector.WellFormed)
    (event : TargetNode) :
    Refresh.Vetted proxied { state with
      selector := removeEventNode proxied event state.selector, phase := .idle } := by
  refine ⟨fun place entry member available => ?_, nofun⟩
  rcases pools.at_remove event place with same | ⟨-, empty⟩
  · exact vetted.entries place entry (same ▸ member) available
  · rw [show (removeEventNode proxied event state.selector).at place = [] from empty] at member
    cases member

theorem Refresh.Vetted.complete (vetted : state.Vetted proxied) (pools : state.selector.WellFormed)
    {index : Nat} {check : HealthCheck} {target : Node}
    (found : state.log[check.origin]? = some check.node) (put : check.node.changeType = .put)
    (built : eventNode proxied check.node = some target) :
    (state.complete index check target).Vetted proxied := by
  refine ⟨fun place entry member available => ?_, vetted.downgrade⟩
  rw [Refresh.complete_selector] at member
  by_cases current : (state.nodeGens.gens.lookup check.nodeId).getD 0 = check.gen
  · have published : (state.complete index check target).published =
        state.published ++ [check.origin] := by
      simp [Refresh.complete, NodeGenerations.applyIfCurrent, current]
    rw [published]
    obtain ⟨written, publishes, at_place⟩ := pools.at_upsert built
    rw [if_pos current, at_place] at member
    split at member
    · rename_i here
      rw [List.mem_singleton.mp member]
      exact ⟨check.origin, by simp, check.node, target, found, put, here.symm, built, publishes⟩
    · obtain ⟨position, listed, shown⟩ := vetted.entries place entry member available
      exact ⟨position, List.mem_append_left _ listed, shown⟩
  · have published : (state.complete index check target).published = state.published := by
      simp [Refresh.complete, NodeGenerations.applyIfCurrent, current]
    rw [published]
    rw [if_neg current] at member
    exact vetted.entries place entry member available

theorem Refresh.Vetted.step {action : RefreshAction} (vetted : state.Vetted proxied)
    (regular : state.Regular) (traced : state.Traced)
    (stepped : state.step proxied action = some final) : final.Vetted proxied := by
  rcases Refresh.step_cases stepped with ⟨event, -, -, rfl⟩ | ⟨event, gen, -, -, rfl⟩ |
    ⟨event, -, downgrading, rfl⟩ | ⟨event, -, -, rfl⟩ | ⟨_, -, rfl⟩ |
    ⟨_, check, _, -, pending, built, rfl⟩
  · exact vetted.consume event
  · exact vetted.inspect gen
  · exact vetted.applyNodeState regular.pools downgrading
  · exact vetted.remove regular.pools event
  · exact ⟨vetted.entries, vetted.downgrade⟩
  · obtain ⟨found, put, -, -⟩ := traced.checks check (List.mem_of_getElem? pending)
    exact vetted.complete regular.pools found (by simpa [isPut] using put) built

theorem Refresh.vetted_init : Refresh.init.Vetted proxied := by
  refine ⟨fun place entry member => ?_, nofun⟩
  have shows : Refresh.init.Shows proxied := Refresh.shows_init
  obtain ⟨_, ⟨_, _, found, -⟩, -⟩ := shows.entries place entry member
  cases found

theorem Refresh.vetted_of_run {schedule : List RefreshAction}
    (run : exec (Refresh.step proxied) Refresh.init schedule = some state)
    (bound : state.log.countP isPut < 2 ^ 64) : state.Vetted proxied := by
  refine exec_induction (motive := fun _ state => state.log.countP isPut < 2 ^ 64 →
    state.Vetted proxied) (fun _ => Refresh.vetted_init) ?_ run bound
  intro schedule middle action final before holds last bound
  have grown := (Refresh.step_log_prefix last).sublist.countP_le (p := isPut)
  exact (holds (by omega)).step (Refresh.regular_of_run before (by omega))
    (Refresh.traced_of_run before (by omega)) last

end Vetted

/-- A probe for the PUT was sent to the node, and the node answered it. -/
def Answered (checker : NodeHealthChecker) (probes : List Probe) (origin : Nat) (node : Node) :
    Prop :=
  ∃ probe ∈ probes, probe.origin = origin ∧ probe.request = healthRequest node ∧
    checker.processHealthCheck probe.reply = true

structure Probing.Answers (checker : NodeHealthChecker) (proxied : Bytes → Bool) (state : Probing) :
    Prop where
  passed : ∀ check targetNode attemptCount,
    ⟨check, .passed targetNode attemptCount⟩ ∈ state.goroutines →
      Answered checker state.probes check.origin targetNode
  published : ∀ origin ∈ state.refresh.published, ∀ event, state.refresh.log[origin]? = some event →
    ∃ node, eventNode proxied event = some node ∧ Answered checker state.probes origin node

section Answers

variable {checker : NodeHealthChecker} {proxied : Bytes → Bool} {state final : Probing}

theorem Answered.append {probes : List Probe} {origin : Nat} {node : Node}
    (answered : Answered checker probes origin node) (more : List Probe) :
    Answered checker (probes ++ more) origin node := by
  obtain ⟨probe, member, rest⟩ := answered
  exact ⟨probe, List.mem_append_left more member, rest⟩

theorem Probing.Answers.spawn {refresh : Refresh} {action : RefreshAction}
    (answers : state.Answers checker proxied) (regular : state.refresh.Regular)
    (stepped : state.refresh.step proxied action = some refresh)
    (notComplete : ∀ index, action ≠ .complete index) :
    (state.spawn refresh).Answers checker proxied := by
  refine ⟨fun check targetNode attemptCount member => ?_, fun origin listed event found => ?_⟩
  · rcases List.mem_append.mp member with old | new
    · exact answers.passed check targetNode attemptCount old
    · obtain ⟨_, -, same⟩ := List.mem_map.mp new
      cases same
  · have listed : origin ∈ state.refresh.published :=
      Refresh.published_of_loop stepped notComplete ▸ listed
    obtain ⟨more, grown⟩ := Refresh.step_log_prefix stepped
    have found : refresh.log[origin]? = some event := found
    rw [← grown, List.getElem?_append_left (regular.published origin listed)] at found
    exact answers.published origin listed event found

theorem Probing.Answers.move {index : Nat} {goroutine : Goroutine} {input : CheckInput}
    {stage : CheckStage} {records : List HealthRecord} (answers : state.Answers checker proxied)
    (advanced : checker.advance proxied goroutine.check.node state.clock goroutine.stage input =
      some (stage, records)) :
    (state.move index goroutine input stage records).Answers checker proxied := by
  refine ⟨fun check targetNode attemptCount member => ?_, fun origin listed event found => ?_⟩
  · rcases List.mem_or_eq_of_mem_set member with old | new
    · exact (answers.passed check targetNode attemptCount old).append _
    · obtain ⟨rfl, rfl⟩ := Goroutine.mk.inj new
      rcases checker.advance_cases advanced with ⟨-, -, other, -⟩ | ⟨_, -, -, -, other, -⟩ |
        ⟨_, _, -, -, -, other, -⟩ | ⟨_, _, _, _, reply, probing, rfl, healthy, same, -⟩ |
        ⟨_, _, _, _, _, -, -, -, other, -⟩ | ⟨_, _, _, _, _, -, -, -, other, -⟩ |
        ⟨_, _, _, _, _, -, -, -, other, -⟩
      · cases other
      · cases other
      · cases other
      · cases same
        refine ⟨⟨goroutine.check.origin, healthRequest targetNode, reply⟩,
          List.mem_append_right _ ?_, rfl, rfl, healthy⟩
        simp [probeOf, probing]
      · cases other
      · cases other
      · cases other
  · obtain ⟨node, built, answered⟩ := answers.published origin listed event found
    exact ⟨node, built, answered.append _⟩

theorem Probing.Answers.step {action : ProbingAction} (answers : state.Answers checker proxied)
    (faithful : state.Faithful proxied) (regular : state.refresh.Regular)
    (anchored : state.refresh.Anchored)
    (stepped : state.step checker proxied action = some final) :
    final.Answers checker proxied := by
  have erased (index : Nat) (check : HealthCheck) (targetNode : Node) (attemptCount : Nat)
      (member : ⟨check, .passed targetNode attemptCount⟩ ∈ state.goroutines.eraseIdx index) :
      Answered checker state.probes check.origin targetNode :=
    answers.passed check targetNode attemptCount (List.mem_of_mem_eraseIdx member)
  rcases Probing.step_cases stepped with ⟨_, -, rfl⟩ | ⟨_, _, -, -, notComplete, moved, rfl⟩ |
    ⟨_, _, _, _, _, -, -, advanced, rfl⟩ | ⟨index, check, targetNode, _, -, found, rfl⟩ |
    ⟨index, _, _, -, -, rfl⟩
  · exact ⟨answers.passed, answers.published⟩
  · exact answers.spawn regular moved notComplete
  · exact answers.move advanced
  · have member := List.mem_of_getElem? found
    refine ⟨erased index, fun origin listed event held => ?_⟩
    have listed : origin ∈ state.refresh.published ∨ origin = check.origin := by
      simp only [Refresh.complete] at listed
      split_ifs at listed
      · simpa using listed
      · exact .inl listed
    rcases listed with old | rfl
    · exact answers.published origin old event held
    · have pending : check ∈ state.refresh.checks := by
        rw [faithful.checks]
        exact List.mem_map_of_mem (f := Goroutine.check) member
      have own : state.refresh.log[check.origin]? = some event := held
      rw [(anchored.checks check pending).1] at own
      cases own
      exact ⟨targetNode, faithful.built _ member targetNode rfl, answers.passed _ _ _ member⟩
  · exact ⟨erased index, answers.published⟩

theorem Probing.answers_of_run {schedule : List ProbingAction}
    (run : exec (Probing.step checker proxied) .init schedule = some state)
    (bound : state.refresh.log.countP isPut < 2 ^ 64) : state.Answers checker proxied := by
  refine exec_induction (motive := fun _ state => state.refresh.log.countP isPut < 2 ^ 64 →
    state.Answers checker proxied) (fun _ => ⟨fun _ _ _ member => absurd member List.not_mem_nil,
      fun _ member => absurd member List.not_mem_nil⟩) ?_ run bound
  intro schedule middle action final before holds stepped bound
  obtain ⟨faithful, actions, ran⟩ := Probing.faithful_of_run before
  have grown : middle.refresh.log.countP isPut ≤ final.refresh.log.countP isPut := by
    rcases faithful.refresh_step stepped with same | ⟨_, moved⟩
    · rw [same]
    · exact (Refresh.step_log_prefix moved).sublist.countP_le
  exact (holds (by omega)).step faithful (Refresh.regular_of_run ran (by omega))
    (Refresh.anchored_of_run ran) stepped

end Answers

/-! The choice of a node. -/

theorem mem_preferAvailableNodes {nodes : List Node} {node : Node}
    (preferred : node ∈ preferAvailableNodes nodes) :
    node ∈ nodes ∧ (node.available = true ∨ ∀ other ∈ nodes, other.available = false) := by
  refine ⟨preferAvailableNodes_subset nodes preferred, ?_⟩
  unfold preferAvailableNodes at preferred
  dsimp only at preferred
  split_ifs at preferred with every none_left
  · exact .inl (List.all_eq_true.mp every node preferred)
  · refine .inr fun other member => Bool.eq_false_of_not_eq_true fun available => ?_
    exact List.filter_eq_nil_iff.mp none_left other member available
  · exact .inl (List.mem_filter.mp preferred).2

/-- `PickNodes` picks one of the three lists. -/
theorem pickNodes_eq_prefer (blockContext : Option BlockContext) (blockHeight : Option Int)
    (lists : Slot → List Node) (forceArchive forceNative : Bool) :
    ∃ slot, pickNodes blockContext blockHeight (lists .archive) (lists .state) (lists .native)
      forceArchive forceNative = preferAvailableNodes (lists slot) := by
  unfold pickNodes
  dsimp only
  split_ifs
  · exact ⟨.native, rfl⟩
  · exact ⟨.archive, rfl⟩
  · exact ⟨.archive, rfl⟩
  · exact ⟨.state, rfl⟩
  · unfold pickByBlock
    repeat' split
    all_goals first
      | exact ⟨.state, rfl⟩
      | exact ⟨.archive, rfl⟩

/-- `GetNode` takes an available node of the list it looks at, if there is one. -/
theorem getNode_prefers {selector : Selector} {node : Node}
    (chosen : getNode selector chainId method batch archive blockContext requestKey =
      .ok (some node)) :
    ∃ slot, node ∈ selector.random.nodes slot chainId ∧ (node.available = true ∨
      ∀ other ∈ selector.random.nodes slot chainId, other.available = false) := by
  have candidate := drawNode_mem chosen
  unfold candidates at candidate
  obtain ⟨slot, picked⟩ := pickNodes_eq_prefer blockContext
    ((selector.random.chainHeight.lookup chainId).join)
    (fun slot => selector.random.nodes slot chainId) archive (requestKey == ascii "native")
  dsimp only at candidate picked
  rw [picked] at candidate
  refine ⟨slot, mem_preferAvailableNodes ?_⟩
  split_ifs at candidate
  · exact candidate
  · exact filterNodesByMethod_subset _ _ _ _ candidate

theorem Node.Publishes.healthRequest {entry node : Node} (publishes : entry.Publishes node) :
    Lb.healthRequest entry = Lb.healthRequest node := by
  obtain ⟨-, addr, source, -, -, -⟩ := publishes
  simp only [Lb.healthRequest, healthMethod, addr, source]

/-- In every run, whatever events, checks and probes interleave: the node that `GetNode` gives to a
request has answered a health check, sent to its own address for the PUT it shows, unless no node
of the list it was picked from is available. -/
theorem served_nodes_answered (checker : NodeHealthChecker) (proxied : Bytes → Bool)
    (schedule : List ProbingAction) (state : Probing)
    (run : exec (Probing.step checker proxied) .init schedule = some state)
    (bound : state.refresh.log.countP isPut < 2 ^ 64) (selector : Selector)
    (same : ∀ slot chainId,
      selector.random.nodes slot chainId = state.refresh.selector.nodes slot chainId)
    (chainId method : Bytes) (batch archive : Bool) (blockContext : Option BlockContext)
    (requestKey : Bytes) (node : Node)
    (chosen : getNode selector chainId method batch archive blockContext requestKey =
      .ok (some node)) :
    (∃ slot, node ∈ selector.random.nodes slot chainId ∧
      ∀ other ∈ selector.random.nodes slot chainId, other.available = false) ∨
    ∃ origin event, state.refresh.log[origin]? = some event ∧ event.changeType = .put ∧
      event.chainId = chainId ∧ event.nodeKey = node.key ∧
      Answered checker state.probes origin node := by
  obtain ⟨slot, member, available | exhausted⟩ := getNode_prefers chosen
  · obtain ⟨-, actions, ran⟩ := Probing.faithful_of_run run
    have here : node ∈ state.refresh.selector.at ⟨slot, chainId, node.key⟩ := by
      rw [same] at member
      exact List.mem_filter.mpr ⟨member, by simp⟩
    obtain ⟨origin, published, event, target, found, put, place, built, publishes⟩ :=
      (Refresh.vetted_of_run ran bound).entries _ node here available
    obtain ⟨-, chain, key⟩ := Place.mk.inj place
    obtain ⟨other, twin, answered⟩ :=
      (Probing.answers_of_run run bound).published origin published event found
    rw [built] at twin
    cases twin
    obtain ⟨probe, sent, own, request, healthy⟩ := answered
    exact .inr ⟨origin, event, found, put, chain, key, probe, sent, own,
      request.trans publishes.healthRequest.symm, healthy⟩
  · exact .inl ⟨slot, member, exhausted⟩

/-- The node of `retriedSchedule` as the pools show it. -/
def retriedNode : Node where
  key := ascii "n1"
  ip := ascii "10.0.0.1"
  port := 8545
  addr := ascii "10.0.0.1:8545"
  source := ascii "official"
  weight := 100
  stateType := 1
  nodeType := nodeTypeState

theorem served_nodes_answered_retried :
    ∃ state, exec (Probing.step lenientChecker fun _ => true) .init retriedSchedule = some state ∧
      getNode ⟨state.refresh.selector, .new, 0⟩ (ascii "1") (ascii "eth_call") false false none [] =
        .ok (some retriedNode) ∧
      ∃ origin, Answered lenientChecker state.probes origin retriedNode := by
  have facts : (exec (Probing.step lenientChecker fun _ => true) .init retriedSchedule).map
      (fun state => (state.refresh.log.countP isPut,
        getNode ⟨state.refresh.selector, .new, 0⟩ (ascii "1") (ascii "eth_call") false false none []))
      = some (1, .ok (some retriedNode)) := by
    decide +kernel
  obtain ⟨state, run, same⟩ := Option.map_eq_some_iff.mp facts
  obtain ⟨puts, chosen⟩ := Prod.mk.inj same
  refine ⟨state, run, chosen, ?_⟩
  rcases served_nodes_answered _ _ _ state run (by rw [puts]; decide) _ (fun _ _ => rfl) _ _ _ _ _ _ _
    chosen with ⟨slot, member, exhausted⟩ | ⟨origin, _, -, -, -, -, answered⟩
  · cases exhausted retriedNode member
  · exact ⟨origin, answered⟩

end NodexProxy.Lb
