import NodexProxy.Foundation.Execution
import NodexProxy.Lb.Selector

/-! The node branch of `BackgroundRefreshNode`. One loop consumes discovery events;
every started health check runs beside it and may finish at any later moment. The
loop's own critical sections (generation bump or forget, pool lookup, pool write) are
separate steps, so finishing checks interleave between them as well. -/

namespace NodexProxy.Lb

open NodexProxy.Foundation NodexProxy.Discovery

structure NodeIdentity where
  chainId : Bytes
  nodeKey : Bytes
  native : Bool
deriving DecidableEq, Repr

def nodeIdentity (event : TargetNode) : NodeIdentity :=
  ⟨event.chainId, event.nodeKey, event.source == sourceNative⟩

structure NodeGenerations where
  seq : UInt64
  gens : Assoc NodeIdentity UInt64

def NodeGenerations.empty : NodeGenerations := ⟨0, ∅⟩

def NodeGenerations.bump (generations : NodeGenerations) (id : NodeIdentity) :
    NodeGenerations × UInt64 :=
  let seq := generations.seq + 1
  (⟨seq, generations.gens.insert id seq⟩, seq)

def NodeGenerations.forget (generations : NodeGenerations) (id : NodeIdentity) : NodeGenerations :=
  { generations with gens := generations.gens.erase id }

/-- `apply` runs only when the captured generation is still the node's; a missing
entry reads as zero. The flag is whether it ran. -/
def NodeGenerations.applyIfCurrent (generations : NodeGenerations) (id : NodeIdentity) (gen : UInt64)
    (apply : Random → Random) (selector : Random) : Random × Bool :=
  if (generations.gens.lookup id).getD 0 ≠ gen then (selector, false)
  else (apply selector, true)

/-- A health check in flight: what its goroutine captured, and the position in the
event log of the PUT that started it. -/
structure HealthCheck where
  nodeId : NodeIdentity
  node : TargetNode
  gen : UInt64
  origin : Nat

/-- Where the loop stands inside the handling of one event. -/
inductive Phase where
  | idle
  | bumped (event : TargetNode) (gen : UInt64)
  | downgrading (event : TargetNode)
  | forgotten (event : TargetNode)

/-- `log` (the events consumed so far, oldest first) and `published` (the origins of the
checks that reached the pools) are history; no step reads them. -/
structure Refresh where
  selector : Random
  nodeGens : NodeGenerations
  phase : Phase
  checks : List HealthCheck
  log : List TargetNode
  published : List Nat

def Refresh.init : Refresh := ⟨.empty, .empty, .idle, [], [], []⟩

/-- `nodeInPool`. -/
def Random.nodeInPool (selector : Random) (id : NodeIdentity) : Bool :=
  (selector.getAllNodes id.chainId).any fun node => node.key == id.nodeKey && node.native == id.native

/-- The node a discovery event describes. `CheckNodeHealth` returns it once the node
answers, and `applyNodeState` publishes it without asking. -/
def eventNode (proxied : Bytes → Bool) (event : TargetNode) : Option Node :=
  (Node.new proxied event.nodeKey event.address event.port event.weight event.nodeType
    event.source).map fun node => node.setState event.stateType

def applyNodeState (proxied : Bytes → Bool) (event : TargetNode) (selector : Random) : Random :=
  match eventNode proxied event with
  | none => selector
  | some node => selector.upsertNode event.chainId event.nodeType node

/-- The removal half of a DELETE. When no node can be built the event is dropped here,
after the generation is already forgotten. -/
def removeEventNode (proxied : Bytes → Bool) (event : TargetNode) (selector : Random) : Random :=
  match Node.new proxied event.nodeKey event.address event.port defaultWeight event.nodeType
      event.source with
  | none => selector
  | some node => selector.removeNode event.chainId event.nodeType (node.setState event.stateType)

inductive RefreshAction where
  | consume (event : TargetNode)
  | inspect
  | downgrade
  | remove
  | fail (index : Nat)
  | complete (index : Nat)

def Refresh.consume (state : Refresh) (event : TargetNode) : Refresh :=
  match event.changeType with
  | .put =>
    let (nodeGens, gen) := state.nodeGens.bump (nodeIdentity event)
    { state with nodeGens, phase := .bumped event gen, log := state.log ++ [event] }
  | .delete =>
    { state with
      nodeGens := state.nodeGens.forget (nodeIdentity event)
      phase := .forgotten event
      log := state.log ++ [event] }

/-- After a bump: a downgrade of a pooled node is applied next, anything else starts a
health check. -/
def Refresh.inspect (state : Refresh) (event : TargetNode) (gen : UInt64) : Refresh :=
  if event.stateType ≠ stateAvailable ∧ state.selector.nodeInPool (nodeIdentity event) then
    { state with phase := .downgrading event }
  else
    { state with
      phase := .idle
      checks := state.checks ++ [⟨nodeIdentity event, event, gen, state.log.length - 1⟩] }

def Refresh.complete (state : Refresh) (index : Nat) (check : HealthCheck) (target : Node) : Refresh :=
  let (selector, added) := state.nodeGens.applyIfCurrent check.nodeId check.gen
    (fun selector => selector.upsertNode check.node.chainId check.node.nodeType target) state.selector
  { state with
    selector
    checks := state.checks.eraseIdx index
    published := if added then state.published ++ [check.origin] else state.published }

def Refresh.step (proxied : Bytes → Bool) (state : Refresh) : RefreshAction → Option Refresh
  | .consume event =>
    match state.phase with
    | .idle => some (state.consume event)
    | _ => none
  | .inspect =>
    match state.phase with
    | .bumped event gen => some (state.inspect event gen)
    | _ => none
  | .downgrade =>
    match state.phase with
    | .downgrading event =>
      some { state with selector := applyNodeState proxied event state.selector, phase := .idle }
    | _ => none
  | .remove =>
    match state.phase with
    | .forgotten event =>
      some { state with selector := removeEventNode proxied event state.selector, phase := .idle }
    | _ => none
  | .fail index =>
    if index < state.checks.length then some { state with checks := state.checks.eraseIdx index }
    else none
  | .complete index =>
    match state.checks[index]? with
    | none => none
    | some check => (eventNode proxied check.node).map (state.complete index check)

theorem eventNode_some (built : eventNode proxied event = some node) :
    node.key = event.nodeKey ∧ node.native = (nodeIdentity event).native ∧
      node.nodeType = event.nodeType ∧ node.stateType = event.stateType := by
  obtain ⟨base, new, rfl⟩ := Option.map_eq_some_iff.mp built
  obtain ⟨key, nodeType, _⟩ := Node.new_some new
  exact ⟨key, (Node.setState_native base).trans (Node.new_native new), nodeType, rfl⟩

theorem Random.nodeInPool_iff (selector : Random) (id : NodeIdentity) :
    selector.nodeInPool id = true ↔
      ∃ slot, ∃ node ∈ selector.nodes slot id.chainId, node.key = id.nodeKey ∧
        node.native = id.native := by
  simp only [Random.nodeInPool, List.any_eq_true, Random.mem_getAllNodes, Bool.and_eq_true,
    beq_iff_eq]
  constructor
  · rintro ⟨node, ⟨slot, member⟩, same⟩
    exact ⟨slot, node, member, same⟩
  · rintro ⟨slot, node, member, same⟩
    exact ⟨node, ⟨slot, member⟩, same⟩

@[simp] theorem Refresh.consume_log (state : Refresh) (event : TargetNode) :
    (state.consume event).log = state.log ++ [event] := by
  unfold Refresh.consume
  cases event.changeType <;> rfl

@[simp] theorem Refresh.inspect_log (state : Refresh) (event : TargetNode) (gen : UInt64) :
    (state.inspect event gen).log = state.log := by
  unfold Refresh.inspect
  split <;> rfl

@[simp] theorem Refresh.consume_selector (state : Refresh) (event : TargetNode) :
    (state.consume event).selector = state.selector := by
  unfold Refresh.consume
  cases event.changeType <;> rfl

@[simp] theorem Refresh.consume_published (state : Refresh) (event : TargetNode) :
    (state.consume event).published = state.published := by
  unfold Refresh.consume
  cases event.changeType <;> rfl

@[simp] theorem Refresh.inspect_selector (state : Refresh) (event : TargetNode) (gen : UInt64) :
    (state.inspect event gen).selector = state.selector := by
  unfold Refresh.inspect
  split <;> rfl

@[simp] theorem Refresh.inspect_published (state : Refresh) (event : TargetNode) (gen : UInt64) :
    (state.inspect event gen).published = state.published := by
  unfold Refresh.inspect
  split <;> rfl

/-- What each action may do, with its guard. -/
theorem Refresh.step_cases {state final : Refresh} {action : RefreshAction}
    (last : state.step proxied action = some final) :
    (∃ event, action = .consume event ∧ state.phase = .idle ∧ final = state.consume event) ∨
    (∃ event gen, action = .inspect ∧ state.phase = .bumped event gen ∧
      final = state.inspect event gen) ∨
    (∃ event, action = .downgrade ∧ state.phase = .downgrading event ∧
      final = { state with
        selector := applyNodeState proxied event state.selector, phase := .idle }) ∨
    (∃ event, action = .remove ∧ state.phase = .forgotten event ∧
      final = { state with
        selector := removeEventNode proxied event state.selector, phase := .idle }) ∨
    (∃ index, action = .fail index ∧
      final = { state with checks := state.checks.eraseIdx index }) ∨
    (∃ index check target, action = .complete index ∧ state.checks[index]? = some check ∧
      eventNode proxied check.node = some target ∧ final = state.complete index check target) := by
  cases action with
  | consume event =>
    simp only [Refresh.step] at last
    split at last
    · rename_i idle
      exact .inl ⟨event, rfl, idle, (Option.some.inj last).symm⟩
    · cases last
  | inspect =>
    simp only [Refresh.step] at last
    split at last
    · rename_i event gen bumped
      exact .inr (.inl ⟨event, gen, rfl, bumped, (Option.some.inj last).symm⟩)
    · cases last
  | downgrade =>
    simp only [Refresh.step] at last
    split at last
    · rename_i event downgrading
      exact .inr (.inr (.inl ⟨event, rfl, downgrading, (Option.some.inj last).symm⟩))
    · cases last
  | remove =>
    simp only [Refresh.step] at last
    split at last
    · rename_i event forgotten
      exact .inr (.inr (.inr (.inl ⟨event, rfl, forgotten, (Option.some.inj last).symm⟩)))
    · cases last
  | fail index =>
    simp only [Refresh.step] at last
    split at last
    · exact .inr (.inr (.inr (.inr (.inl ⟨index, rfl, (Option.some.inj last).symm⟩))))
    · cases last
  | complete index =>
    simp only [Refresh.step] at last
    split at last
    · cases last
    · rename_i check pending
      obtain ⟨target, built, same⟩ := Option.map_eq_some_iff.mp last
      exact .inr (.inr (.inr (.inr (.inr ⟨index, check, target, rfl, pending, built, same.symm⟩))))

theorem Refresh.step_log_prefix {state final : Refresh} {action : RefreshAction}
    (last : state.step proxied action = some final) : state.log <+: final.log := by
  rcases Refresh.step_cases last with ⟨event, _, _, rfl⟩ | ⟨event, gen, _, _, rfl⟩ | ⟨_, _, _, rfl⟩ |
    ⟨_, _, _, rfl⟩ | ⟨_, _, rfl⟩ | ⟨_, _, _, _, _, _, rfl⟩
  · rw [Refresh.consume_log]
    exact List.prefix_append _ _
  · rw [Refresh.inspect_log]
  all_goals exact List.prefix_refl _

end NodexProxy.Lb
