import NodexProxy.Foundation.Execution
import NodexProxy.Lb.Pick

/-! One `GetNode` call against gateway updates. Routes and weights are published together,
but the call reads them in two critical sections. -/

namespace NodexProxy.Lb

open NodexProxy.Foundation NodexProxy.Discovery

def GatewayStrategy.new : GatewayStrategy := ⟨∅, ∅⟩

/-- A later entry for a node key overwrites an earlier one. -/
def weightTable (weights : List WeightInfo) : Assoc Bytes Int :=
  weights.foldl (fun table info => table.insert info.nodeKey info.weight) ∅

def GatewayStrategy.updateGateway (strategy : GatewayStrategy) (chainId : Bytes)
    (gateway : GatewayBody) : GatewayStrategy where
  weightMap := strategy.weightMap.insert chainId (weightTable gateway.weights)
  methodRouteMap := strategy.methodRouteMap.insert chainId (gateway.methodRoutes.getD ∅)

def GatewayStrategy.deleteGateway (strategy : GatewayStrategy) (chainId : Bytes) :
    GatewayStrategy where
  weightMap := strategy.weightMap.erase chainId
  methodRouteMap := strategy.methodRouteMap.erase chainId

structure NoAvailableNodeError where
  chainId : Bytes
  reason : Bytes
deriving DecidableEq, Repr

/-- A node, one of the errors of `GetNode`, or a panic of the random source. -/
abbrev Outcome := Checked (Except NoAvailableNodeError Node)

/-- What a `GetNode` call has once it holds the pool lock: the nodes `PickNodes` gave and
the number its random source will yield. -/
structure GetNodeCall where
  chainId : Bytes
  method : Bytes
  isBatch : Bool
  picked : List Node
  draw : Nat

def GetNodeCall.fail (call : GetNodeCall) (reason : Bytes) : Outcome :=
  .ok (.error ⟨call.chainId, reason⟩)

def GetNodeCall.noNodes (call : GetNodeCall) : Outcome :=
  call.fail (ascii "no nodes available after picking")

def GetNodeCall.noNodesAfterFilter (call : GetNodeCall) : Outcome :=
  call.fail (ascii "no nodes available after method filter for method " ++ call.method)

def GetNodeCall.zeroWeight (call : GetNodeCall) : Outcome :=
  call.fail (ascii "weight sum is zero, all nodes have zero weight")

def GetNodeCall.notSelected (call : GetNodeCall) : Outcome :=
  call.fail (ascii "failed to select node after weight calculation")

/-- The first section: the nodes a strategy leaves, or the outcome if there are none. A
batch is not filtered. -/
def GetNodeCall.filter (call : GetNodeCall) (strategy : GatewayStrategy) : List Node ⊕ Outcome :=
  if call.picked = [] then .inr call.noNodes
  else if call.isBatch then .inl call.picked
  else
    let nodes := strategy.filterNodesByMethod call.chainId call.method call.picked
    if nodes = [] then .inr call.noNodesAfterFilter else .inl nodes

/-- The rest of the call, with the weight of each node. -/
def GetNodeCall.weigh (call : GetNodeCall) (weight : Node → Int) (nodes : List Node) : Outcome :=
  let weightSum := (nodes.map weight).sum
  if weightSum = 0 then call.zeroWeight
  else do
    let target ← int63n call.draw weightSum
    match selectByWeight weight target 0 nodes with
    | some node => .ok (.ok node)
    | none => call.notSelected

/-- The outcome under one configuration. -/
def GetNodeCall.under (call : GetNodeCall) (strategy : GatewayStrategy) : Outcome :=
  match call.filter strategy with
  | .inr outcome => outcome
  | .inl nodes => call.weigh (strategy.nodeWeight call.chainId) nodes

/-- How far the call is. -/
inductive Progress where
  | started
  | filtered (nodes : List Node)
  | done (outcome : Outcome)
deriving DecidableEq

/-- The gateway strategy, the call, and every configuration there has been. -/
structure Selecting where
  strategy : GatewayStrategy
  progress : Progress
  published : List GatewayStrategy

def Selecting.new : Selecting := ⟨.new, .started, [.new]⟩

inductive SelectAction where
  | updateGateway (gateway : GatewayBody)
  | deleteGateway
  | filterNodesByMethod
  | chainWeights

def Selecting.publish (state : Selecting) (strategy : GatewayStrategy) : Selecting :=
  { state with strategy, published := state.published ++ [strategy] }

def Selecting.step (call : GetNodeCall) (state : Selecting) : SelectAction → Option Selecting
  | .updateGateway gateway => some (state.publish (state.strategy.updateGateway call.chainId gateway))
  | .deleteGateway => some (state.publish (state.strategy.deleteGateway call.chainId))
  | .filterNodesByMethod =>
    match state.progress with
    | .started =>
      match call.filter state.strategy with
      | .inr outcome => some { state with progress := .done outcome }
      | .inl nodes => some { state with progress := .filtered nodes }
    | _ => none
  | .chainWeights =>
    match state.progress with
    | .filtered nodes =>
      some { state with
        progress := .done (call.weigh (state.strategy.nodeWeight call.chainId) nodes) }
    | _ => none

/-- The call of a request on given pools. -/
def getNodeCall (selector : Selector) (chainId method : Bytes) (batch archive : Bool)
    (blockContext : Option BlockContext) (requestKey : Bytes) : GetNodeCall where
  chainId
  method
  isBatch := batch
  picked := pickNodes blockContext ((selector.random.chainHeight.lookup chainId).join)
    (selector.random.nodes .archive chainId) (selector.random.nodes .state chainId)
    (selector.random.nodes .native chainId) archive (requestKey == ascii "native")
  draw := selector.draw

theorem GetNodeCall.weigh_toOption (call : GetNodeCall) (weight : Node → Int) {nodes : List Node}
    (some : nodes ≠ []) :
    (call.weigh weight nodes).map Except.toOption = drawNode weight call.draw nodes := by
  unfold GetNodeCall.weigh drawNode
  by_cases zero : (nodes.map weight).sum = 0
  · simp only [zero, if_true, or_true]
    rfl
  · simp only [zero, some, or_self, if_false]
    cases int63n call.draw (nodes.map weight).sum with
    | error fault => rfl
    | ok target =>
      rw [Checked.ok_bind, Checked.ok_bind]
      cases selectByWeight weight target 0 nodes <;> rfl

/-- The outcome under one configuration, without its errors told apart. -/
theorem GetNodeCall.under_toOption (call : GetNodeCall) (strategy : GatewayStrategy) :
    (call.under strategy).map Except.toOption =
      drawNode (strategy.nodeWeight call.chainId) call.draw
        (if call.isBatch then call.picked
          else strategy.filterNodesByMethod call.chainId call.method call.picked) := by
  unfold GetNodeCall.under GetNodeCall.filter
  by_cases empty : call.picked = []
  · have left : strategy.filterNodesByMethod call.chainId call.method [] = [] :=
      List.subset_nil.mp (filterNodesByMethod_subset _ _ _ _)
    simp only [empty, left, ite_self, if_true]
    rfl
  · cases batch : call.isBatch with
    | true => simp [empty, call.weigh_toOption _ empty]
    | false =>
      by_cases none : strategy.filterNodesByMethod call.chainId call.method call.picked = []
      · simp only [empty, none, Bool.false_eq_true, if_false, if_true]
        rfl
      · simp [empty, none, call.weigh_toOption _ none]

/-- `getNode` is the call under the strategy in force. -/
theorem getNode_eq_under (selector : Selector) (chainId method : Bytes) (batch archive : Bool)
    (blockContext : Option BlockContext) (requestKey : Bytes) :
    getNode selector chainId method batch archive blockContext requestKey =
      ((getNodeCall selector chainId method batch archive blockContext requestKey).under
        selector.gatewayStrategy).map Except.toOption := by
  rw [GetNodeCall.under_toOption]
  rfl

/-- Weights that agree on the nodes give the same outcome. -/
theorem selectByWeight_congr {weight other : Node → Int} {nodes : List Node}
    (agree : ∀ node ∈ nodes, weight node = other node) (target current : Int) :
    selectByWeight weight target current nodes = selectByWeight other target current nodes := by
  induction nodes generalizing current with
  | nil => rfl
  | cons head rest inductionHypothesis =>
    simp only [selectByWeight, agree head (by simp)]
    rw [inductionHypothesis fun node member => agree node (List.mem_cons_of_mem _ member)]

theorem GetNodeCall.weigh_congr (call : GetNodeCall) {weight other : Node → Int}
    {nodes : List Node} (agree : ∀ node ∈ nodes, weight node = other node) :
    call.weigh weight nodes = call.weigh other nodes := by
  simp only [GetNodeCall.weigh, List.map_congr_left agree, selectByWeight_congr agree]

/-- What an action makes of the configuration. -/
def SelectAction.effect (chainId : Bytes) (strategy : GatewayStrategy) : SelectAction → GatewayStrategy
  | .updateGateway gateway => strategy.updateGateway chainId gateway
  | .deleteGateway => strategy.deleteGateway chainId
  | .filterNodesByMethod | .chainWeights => strategy

/-- The configuration of a chain after the updates in a schedule. -/
def configuration (chainId : Bytes) (schedule : List SelectAction) : GatewayStrategy :=
  schedule.foldl (SelectAction.effect chainId) .new

theorem configuration_snoc (chainId : Bytes) (schedule : List SelectAction) (action : SelectAction) :
    configuration chainId (schedule ++ [action]) =
      action.effect chainId (configuration chainId schedule) :=
  List.foldl_concat ..

theorem configuration_read (chainId : Bytes) (first between : List SelectAction) :
    configuration chainId (first ++ .filterNodesByMethod :: between) =
      configuration chainId (first ++ between) := by
  simp only [configuration, List.foldl_append, List.foldl_cons, SelectAction.effect]

def GatewayStrategy.methodRoute (strategy : GatewayStrategy) (chainId method : Bytes) :
    Option MethodRoute :=
  (strategy.methodRouteMap.lookup chainId).bind fun routes => routes.lookup method

/-- What is published between the two reads of the schedule leaves the route of the method as it
was, or the weights of all nodes. A batch needs neither. -/
def GetNodeCall.Steady (call : GetNodeCall) (schedule : List SelectAction) : Prop :=
  call.isBatch = true ∨ ∀ first between,
    first ++ .filterNodesByMethod :: (between ++ [.chainWeights]) <+: schedule →
      (configuration call.chainId first).methodRoute call.chainId call.method =
          (configuration call.chainId (first ++ between)).methodRoute call.chainId call.method ∨
        ∀ node, (configuration call.chainId first).nodeWeight call.chainId node =
          (configuration call.chainId (first ++ between)).nodeWeight call.chainId node

theorem GetNodeCall.filter_batch {call : GetNodeCall} (batch : call.isBatch = true)
    (strategy other : GatewayStrategy) : call.filter strategy = call.filter other := by
  simp only [GetNodeCall.filter, batch, if_true]

theorem GetNodeCall.filter_congr {call : GetNodeCall} {strategy other : GatewayStrategy}
    (same : strategy.methodRoute call.chainId call.method =
      other.methodRoute call.chainId call.method) : call.filter strategy = call.filter other := by
  have nodes : strategy.filterNodesByMethod call.chainId call.method call.picked =
      other.filterNodesByMethod call.chainId call.method call.picked := by
    unfold GatewayStrategy.methodRoute at same
    unfold GatewayStrategy.filterNodesByMethod
    rw [same]
  simp only [GetNodeCall.filter, nodes]

/-- The call is explained by the configurations of the schedule so far: nodes it has filtered are
those of the configuration at that read, and its outcome is that of one of them. -/
structure Selecting.Traced (call : GetNodeCall) (schedule : List SelectAction) (state : Selecting) :
    Prop where
  current : state.strategy = configuration call.chainId schedule
  published : ∀ first, first <+: schedule → configuration call.chainId first ∈ state.published
  filtered : ∀ nodes, state.progress = .filtered nodes → ∃ first between,
    schedule = first ++ .filterNodesByMethod :: between ∧
      call.filter (configuration call.chainId first) = .inl nodes
  done : ∀ outcome, state.progress = .done outcome → ∃ first, first <+: schedule ∧
    call.under (configuration call.chainId first) = outcome

namespace Selecting.Traced

variable {call : GetNodeCall} {schedule : List SelectAction} {state final : Selecting}

theorem published_snoc (traced : state.Traced call schedule) (action : SelectAction)
    (kept : state.published ⊆ final.published)
    (added : action.effect call.chainId state.strategy ∈ final.published) (first : List SelectAction)
    (inside : first <+: schedule ++ [action]) :
    configuration call.chainId first ∈ final.published := by
  rcases List.prefix_concat_iff.mp inside with rfl | inside
  · rwa [configuration_snoc, ← traced.current]
  · exact kept (traced.published first inside)

/-- A step that publishes nothing. -/
theorem unpublished (traced : state.Traced call schedule) (action : SelectAction)
    (reads : ∀ strategy, action.effect call.chainId strategy = strategy) :
    state.strategy = configuration call.chainId (schedule ++ [action]) ∧
      ∀ first, first <+: schedule ++ [action] →
        configuration call.chainId first ∈ state.published := by
  refine ⟨?_, traced.published_snoc action (List.Subset.refl _) ?_⟩
  · rw [configuration_snoc, reads, traced.current]
  · rw [reads, traced.current]
    exact traced.published schedule (List.prefix_refl _)

/-- An update of the chain. -/
theorem publish (traced : state.Traced call schedule) (action : SelectAction) :
    (state.publish (action.effect call.chainId state.strategy)).Traced call (schedule ++ [action]) where
  current := by rw [configuration_snoc, ← traced.current]; rfl
  published := traced.published_snoc action (List.subset_append_left _ _) (by simp [Selecting.publish])
  filtered nodes progress := by
    obtain ⟨first, between, split, read⟩ := traced.filtered nodes progress
    exact ⟨first, between ++ [action], by simp [split], read⟩
  done outcome progress := by
    obtain ⟨first, inside, same⟩ := traced.done outcome progress
    exact ⟨first, inside.trans (List.prefix_append _ _), same⟩

/-- The weights are read after an update that kept the route or the weights. -/
theorem under_of_steady (traced : state.Traced call schedule) {nodes : List Node}
    (progress : state.progress = .filtered nodes) (steady : call.Steady (schedule ++ [.chainWeights])) :
    ∃ first, first <+: schedule ∧ call.under (configuration call.chainId first) =
      call.weigh (state.strategy.nodeWeight call.chainId) nodes := by
  obtain ⟨first, between, rfl, read⟩ := traced.filtered nodes progress
  have current := traced.current
  rw [configuration_read] at current
  -- the outcome of the configuration in force, if it filters to the same nodes
  have later (same : call.filter (configuration call.chainId first) = call.filter state.strategy) :
      ∃ front, front <+: first ++ .filterNodesByMethod :: between ∧
        call.under (configuration call.chainId front) =
          call.weigh (state.strategy.nodeWeight call.chainId) nodes := by
    refine ⟨_, List.prefix_refl _, ?_⟩
    rw [← traced.current, GetNodeCall.under, ← same, read]
  rcases steady with batch | steady
  · exact later (GetNodeCall.filter_batch batch _ _)
  · rcases steady first between (by simp) with route | weights
    · exact later (GetNodeCall.filter_congr (current ▸ route))
    · refine ⟨first, List.prefix_append _ _, ?_⟩
      rw [GetNodeCall.under, read, current]
      exact call.weigh_congr fun node _ => weights node

theorem step (traced : state.Traced call schedule) {action : SelectAction}
    (steady : call.Steady (schedule ++ [action])) (step : state.step call action = some final) :
    final.Traced call (schedule ++ [action]) := by
  cases action with
  | updateGateway gateway =>
    cases step
    exact traced.publish (.updateGateway gateway)
  | deleteGateway =>
    cases step
    exact traced.publish .deleteGateway
  | filterNodesByMethod =>
    obtain ⟨current, published⟩ := traced.unpublished .filterNodesByMethod fun _ => rfl
    cases progress : state.progress <;> simp only [Selecting.step, progress, reduceCtorEq] at step
    cases filtered : call.filter state.strategy with
    | inl nodes =>
      rw [filtered] at step
      cases step
      refine ⟨current, published, fun _ same => ?_, fun _ other => Progress.noConfusion other⟩
      cases same
      exact ⟨schedule, [], rfl, traced.current ▸ filtered⟩
    | inr outcome =>
      rw [filtered] at step
      cases step
      refine ⟨current, published, fun _ other => Progress.noConfusion other, fun _ same => ?_⟩
      cases same
      refine ⟨schedule, List.prefix_append _ _, ?_⟩
      rw [← traced.current, GetNodeCall.under, filtered]
  | chainWeights =>
    obtain ⟨current, published⟩ := traced.unpublished .chainWeights fun _ => rfl
    cases progress : state.progress <;>
      simp only [Selecting.step, progress, reduceCtorEq, Option.some.injEq] at step
    rename_i nodes
    subst final
    refine ⟨current, published, fun _ other => Progress.noConfusion other, fun _ same => ?_⟩
    cases same
    obtain ⟨first, inside, outcome⟩ := traced.under_of_steady progress steady
    exact ⟨first, inside.trans (List.prefix_append _ _), outcome⟩

end Selecting.Traced

theorem GetNodeCall.Steady.front {call : GetNodeCall} {schedule first : List SelectAction}
    (steady : call.Steady schedule) (inside : first <+: schedule) : call.Steady first :=
  steady.imp_right fun steady start between early => steady start between (early.trans inside)

theorem Selecting.traced_of_run {call : GetNodeCall} {schedule : List SelectAction} {final : Selecting}
    (run : exec (Selecting.step call) .new schedule = some final) (steady : call.Steady schedule) :
    final.Traced call schedule := by
  refine exec_induction (motive := fun before state => before <+: schedule →
    state.Traced call before) ?_ ?_ run (List.prefix_refl _)
  · intro _
    refine ⟨rfl, fun first inside => ?_, fun _ other => Progress.noConfusion other,
      fun _ other => Progress.noConfusion other⟩
    rw [List.prefix_nil.mp inside]
    exact List.mem_singleton_self _
  · intro before middle action next _ inductionHypothesis step inside
    exact (inductionHypothesis ((List.prefix_append _ _).trans inside)).step
      (steady.front inside) step

/-- In every interleaving in which the updates between the two reads keep the method's route or
the weights, a finished call has the outcome of one configuration. -/
theorem getNode_sees_one_configuration (call : GetNodeCall) {schedule : List SelectAction}
    {final : Selecting} (run : exec (Selecting.step call) .new schedule = some final)
    (steady : call.Steady schedule) :
    ∀ outcome, final.progress = .done outcome →
      ∃ config ∈ final.published, call.under config = outcome := by
  have traced := Selecting.traced_of_run run steady
  intro outcome finished
  obtain ⟨first, inside, same⟩ := traced.done outcome finished
  exact ⟨_, traced.published first inside, same⟩

/-! A switch from node a to node b that moves both the route of a method and the weights. -/

def switchNode (key : String) : Node :=
  { key := ascii key, ip := [], port := 1, addr := ascii key, source := ascii "official"
    weight := 1, stateType := 1, nodeType := nodeTypeState }

def switchCall : GetNodeCall where
  chainId := ascii "1"
  method := ascii "eth_call"
  isBatch := false
  picked := [switchNode "a", switchNode "b"]
  draw := 0

/-- All traffic and the method's route to one node. -/
def switchTo (key other : String) : GatewayBody where
  weights := [⟨ascii key, 100⟩, ⟨ascii other, 0⟩]
  methodRoutes := some (AList.singleton (ascii "eth_call")
    ⟨some (AList.singleton (ascii key) true), none⟩)

theorem switch_between_reads_fails_the_call :
    ((exec (Selecting.step switchCall) .new [.updateGateway (switchTo "a" "b"),
        .filterNodesByMethod, .updateGateway (switchTo "b" "a"), .chainWeights]).map fun final =>
      (final.progress, final.published.map switchCall.under)) =
    some (.done switchCall.zeroWeight,
      [.ok (.ok (switchNode "a")), .ok (.ok (switchNode "a")), .ok (.ok (switchNode "b"))]) := by
  decide +kernel

/-- The weights of the chain change between the reads, the route of the method does not. -/
def reweighed : List SelectAction :=
  [.updateGateway (switchTo "a" "b"), .filterNodesByMethod,
    .updateGateway { switchTo "a" "b" with weights := [⟨ascii "a", 7⟩] }, .chainWeights]

theorem getNode_sees_one_configuration_reweighed :
    ∃ final : Selecting, exec (Selecting.step switchCall) .new reweighed = some final ∧
      (configuration (ascii "1") (reweighed.take 2)).nodeWeight (ascii "1") (switchNode "a") = 100 ∧
      final.strategy.nodeWeight (ascii "1") (switchNode "a") = 7 ∧
      ∃ config ∈ final.published, switchCall.under config = .ok (.ok (switchNode "a")) := by
  obtain ⟨final, last⟩ : ∃ final, exec (Selecting.step switchCall) .new reweighed = some final :=
    ⟨_, rfl⟩
  refine ⟨final, last, by decide +kernel, ?_, getNode_sees_one_configuration switchCall last ?_ _ ?_⟩
  · cases last
    decide +kernel
  · refine .inr fun first between inside => .inl ?_
    have split : first = reweighed.take 1 ∧ between = (reweighed.drop 2).take 1 := by
      obtain ⟨rest, same⟩ := inside
      rcases first with _ | ⟨_, _ | ⟨_, _ | ⟨_, _ | ⟨_, first⟩⟩⟩⟩ <;>
        rcases between with _ | ⟨_, _ | ⟨_, between⟩⟩ <;> simp_all [reweighed]
    rw [split.1, split.2]
    rfl
  · cases last
    decide +kernel

end NodexProxy.Lb
