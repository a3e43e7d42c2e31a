import NodexProxy.Discovery.Heights
import NodexProxy.Foundation.Replica
import NodexProxy.Lb.GatewaySwitch
import NodexProxy.Lb.MirrorLimits
import NodexProxy.Lb.Preprocess
import NodexProxy.Lb.Refresh
import NodexProxy.Lb.VersionRouter

/-! `BackgroundRefreshNode` with all its cases, and discovery that feeds it through five channels.
Health checks, the node handlers of the admin API and the local mirror handlers go on beside the
loop. -/

namespace NodexProxy.Lb

open NodexProxy.Foundation NodexProxy.Discovery

def Heights.setHeight (heights : Heights) (chainId : Bytes) (height : Option Int) : Heights :=
  heights.insert chainId height

/-- `UpdateChainHeight`, on the heights of the selector. -/
def updateChainHeight (chainHeight : Assoc Bytes (Option Int)) (chainId : Bytes)
    (height : Option Int) : Assoc Bytes (Option Int) :=
  chainHeight.insert chainId height

/-- What the loop writes. The heights of the selector stand beside its pools. `raising` is the
height that is in the height map already and has yet to reach the selector. -/
structure Background where
  refresh : Refresh
  chainHeight : Assoc Bytes (Option Int)
  heightMap : Heights
  raising : Option ChainHeight
  gatewayStrategy : GatewayStrategy
  mirroring : Mirroring
  chainVersionRouter : ChainVersionRouter

def Background.new : Background := ⟨.init, ∅, ∅, none, .new, .new, .new⟩

/-- The pools and the heights of the selector. -/
def Background.nodeSelector (state : Background) : Random :=
  { state.refresh.selector with chainHeight := state.chainHeight }

/-- The loop is at its `select`. -/
def Background.idle (state : Background) : Bool :=
  match state.refresh.phase, state.raising with
  | .idle, none => true
  | _, _ => false

/-- The gateway case. -/
def consumeGateway (strategy : GatewayStrategy) (gateway : Gateway) : GatewayStrategy :=
  match gateway.changeType with
  | .put => strategy.updateGateway gateway.chainId gateway.toGatewayBody
  | .delete => strategy.deleteGateway gateway.chainId

/-- The case of the `select` for an event, up to its first step. Nodes and heights take more. -/
def Background.consume (state : Background) : Event → Background
  | .node node => { state with refresh := state.refresh.consume node }
  | .height height =>
    { state with
      heightMap := state.heightMap.setHeight height.chainId height.latestBlockNumber
      raising := some height }
  | .gateway gateway =>
    { state with gatewayStrategy := consumeGateway state.gatewayStrategy gateway }
  | .mirror mirror => { state with mirroring := state.mirroring.consume mirror }
  | .version version =>
    { state with
      chainVersionRouter := handleChainVersionUpdate state.chainVersionRouter (some version) }

/-- The rest of the height case. -/
def Background.raise (state : Background) (height : ChainHeight) : Background :=
  { state with
    chainHeight := updateChainHeight state.chainHeight height.chainId height.latestBlockNumber
    raising := none }

/-- Discovery, the channels and the loop. A queue holds what was sent and not yet taken, also what
waits for room in its channel. `taken` is history. -/
structure ControlPlane where
  watch : WatchLoop
  queues : Channel → List Event
  taken : Channel → List Event
  background : Background

def ControlPlane.new : ControlPlane := ⟨.new, fun _ => [], fun _ => [], .new⟩

/-- `select` takes the head of a queue. `refresh` goes on with a node event or ends a health check,
`mirror` is a handler that changes mirrors in memory, and `submit` one that sends a node event. -/
inductive ControlAction where
  | watch (action : WatchAction)
  | select (channel : Channel)
  | refresh (action : RefreshAction)
  | raise
  | mirror (op : MirrorOp)
  | submit (node : TargetNode)

/-- What discovery sent from one moment to another. -/
def sentBetween (before after : WatchLoop) : List Event :=
  (after.discover.dispatched.drop before.discover.dispatched.length).map Dispatch.event

def enqueue (queues : Channel → List Event) (events : List Event) (channel : Channel) :
    List Event :=
  queues channel ++ events.filter fun event => event.channel = channel

def ControlPlane.take (state : ControlPlane) (channel : Channel) (event : Event)
    (rest : List Event) : ControlPlane :=
  { state with
    queues := Function.update state.queues channel rest
    taken := Function.update state.taken channel (state.taken channel ++ [event])
    background := state.background.consume event }

section Step

variable (decoder : Decoder) (history : History) (keyPrefix : Bytes) (proxied : Bytes → Bool)

def ControlPlane.step (state : ControlPlane) : ControlAction → Option ControlPlane
  | .watch action =>
    (state.watch.step decoder history keyPrefix action).map fun watch =>
      { state with watch, queues := enqueue state.queues (sentBetween state.watch watch) }
  | .select channel =>
    match state.background.idle, state.queues channel with
    | true, event :: rest => some (state.take channel event rest)
    | _, _ => none
  | .refresh (.consume _) => none
  | .refresh action =>
    (state.background.refresh.step proxied action).map fun refresh =>
      { state with background := { state.background with refresh } }
  | .raise =>
    state.background.raising.map fun height =>
      { state with background := state.background.raise height }
  | .mirror (.event _) => none
  | .mirror op =>
    some { state with
      background := { state.background with mirroring := state.background.mirroring.apply op } }
  | .submit node => some { state with queues := enqueue state.queues [.node node] }

end Step

variable {decoder : Decoder} {history : History} {keyPrefix : Bytes} {proxied : Bytes → Bool}

theorem Background.idle_iff (state : Background) :
    state.idle = true ↔ state.refresh.phase = .idle ∧ state.raising = none := by
  unfold Background.idle
  cases state.refresh.phase <;> cases state.raising <;> simp

/-- Everything a step can do. -/
theorem ControlPlane.step_cases {state final : ControlPlane} {action : ControlAction}
    (stepped : state.step decoder history keyPrefix proxied action = some final) :
    (∃ watchAction watch, action = .watch watchAction ∧
      state.watch.step decoder history keyPrefix watchAction = some watch ∧
      final = { state with watch, queues := enqueue state.queues (sentBetween state.watch watch) }) ∨
    (∃ channel event rest, action = .select channel ∧ state.background.idle = true ∧
      state.queues channel = event :: rest ∧ final = state.take channel event rest) ∨
    (∃ refreshAction refresh, action = .refresh refreshAction ∧
      (∀ node, refreshAction ≠ .consume node) ∧
      state.background.refresh.step proxied refreshAction = some refresh ∧
      final = { state with background := { state.background with refresh } }) ∨
    (∃ height, action = .raise ∧ state.background.raising = some height ∧
      final = { state with background := state.background.raise height }) ∨
    (∃ op, action = .mirror op ∧
      final = { state with background :=
        { state.background with mirroring := state.background.mirroring.apply op } }) ∨
    ∃ node, action = .submit node ∧
      final = { state with queues := enqueue state.queues [.node node] } := by
  unfold ControlPlane.step at stepped
  split at stepped
  · rename_i watchAction
    obtain ⟨watch, moved, rfl⟩ := Option.map_eq_some_iff.mp stepped
    exact .inl ⟨watchAction, watch, rfl, moved, rfl⟩
  · rename_i channel
    split at stepped
    · rename_i event rest idle queued
      cases stepped
      exact .inr (.inl ⟨channel, event, rest, rfl, idle, queued, rfl⟩)
    · cases stepped
  · cases stepped
  · rename_i refreshAction other
    obtain ⟨refresh, moved, rfl⟩ := Option.map_eq_some_iff.mp stepped
    exact .inr (.inr (.inl ⟨refreshAction, refresh, rfl, other, moved, rfl⟩))
  · obtain ⟨height, raising, rfl⟩ := Option.map_eq_some_iff.mp stepped
    exact .inr (.inr (.inr (.inl ⟨height, rfl, raising, rfl⟩)))
  · cases stepped
  · rename_i op _
    cases stepped
    exact .inr (.inr (.inr (.inr (.inl ⟨op, rfl, rfl⟩))))
  · rename_i node
    cases stepped
    exact .inr (.inr (.inr (.inr (.inr ⟨node, rfl, rfl⟩))))

/-! The channels. -/

theorem Discover.dispatched_foldl_prefix (events : List WatchEvent) (discover : Discover) :
    discover.dispatched <+: (events.foldl (Discover.dispatch decoder) discover).dispatched := by
  induction events generalizing discover with
  | nil => exact List.prefix_refl _
  | cons event events inductionHypothesis =>
    refine List.IsPrefix.trans ?_ (inductionHypothesis (discover.dispatch decoder event))
    rw [Discover.dispatched_dispatch]
    exact List.prefix_append _ _

/-- Nothing sent is taken back. -/
theorem dispatched_of_step {loop next : WatchLoop}
    (stepped : loop.step decoder history keyPrefix action = some next) :
    next.discover.dispatched.map Dispatch.event =
      loop.discover.dispatched.map Dispatch.event ++ sentBetween loop next := by
  obtain ⟨events, revision, same, -⟩ := WatchLoop.step_dispatches stepped
  have grown : loop.discover.dispatched <+: next.discover.dispatched := by
    rw [same]
    exact Discover.dispatched_foldl_prefix events loop.discover
  obtain ⟨fresh, appended⟩ := grown
  rw [sentBetween, ← appended, List.drop_left, List.map_append]

/-- The run of discovery inside a run. -/
theorem ControlPlane.watch_of_run {schedule : List ControlAction} {state : ControlPlane}
    (run : exec (ControlPlane.step decoder history keyPrefix proxied) .new schedule = some state) :
    ∃ actions, exec (WatchLoop.step decoder history keyPrefix) .new actions = some state.watch := by
  refine exec_invariant (motive := fun state => ∃ actions,
    exec (WatchLoop.step decoder history keyPrefix) .new actions = some state.watch)
    ⟨[], rfl⟩ ?_ run
  rintro state action final ⟨actions, ran⟩ stepped
  rcases ControlPlane.step_cases stepped with ⟨watchAction, watch, -, moved, rfl⟩ |
    ⟨_, _, _, -, -, -, rfl⟩ | ⟨_, _, -, -, -, rfl⟩ | ⟨_, -, -, rfl⟩ | ⟨_, -, rfl⟩ | ⟨_, -, rfl⟩
  · exact ⟨actions ++ [watchAction], exec_extend ran moved⟩
  all_goals exact ⟨actions, ran⟩

/-- The run of the node case inside a run. -/
theorem ControlPlane.refresh_of_run {schedule : List ControlAction} {state : ControlPlane}
    (run : exec (ControlPlane.step decoder history keyPrefix proxied) .new schedule = some state) :
    ∃ actions, exec (Refresh.step proxied) .init actions = some state.background.refresh ∧
      ∀ action ∈ actions, .refresh action ∈ schedule ∨ ∃ node, action = .consume node := by
  refine exec_induction (motive := fun schedule state => ∃ actions,
    exec (Refresh.step proxied) .init actions = some state.background.refresh ∧
      ∀ action ∈ actions, .refresh action ∈ schedule ∨ ∃ node, action = .consume node)
    ⟨[], rfl, nofun⟩ ?_ run
  rintro schedule state action final - ⟨actions, ran, origins⟩ stepped
  have earlier : ∀ refreshAction ∈ actions, .refresh refreshAction ∈ schedule ++ [action] ∨
      ∃ node, refreshAction = .consume node := fun refreshAction member =>
    (origins refreshAction member).imp_left (List.mem_append_left _)
  have extended (last : RefreshAction) (origin : .refresh last ∈ schedule ++ [action] ∨
      ∃ node, last = .consume node) : ∀ refreshAction ∈ actions ++ [last],
      .refresh refreshAction ∈ schedule ++ [action] ∨ ∃ node, refreshAction = .consume node := by
    intro refreshAction member
    rcases List.mem_append.mp member with old | new
    · exact earlier refreshAction old
    · cases List.mem_singleton.mp new
      exact origin
  rcases ControlPlane.step_cases stepped with ⟨_, _, -, -, rfl⟩ |
    ⟨channel, event, rest, -, idle, -, rfl⟩ | ⟨refreshAction, refresh, rfl, -, moved, rfl⟩ |
    ⟨_, -, -, rfl⟩ | ⟨_, -, rfl⟩ | ⟨_, -, rfl⟩
  · exact ⟨actions, ran, earlier⟩
  · cases event with
    | node node =>
      refine ⟨actions ++ [.consume node], exec_extend ran ?_, extended _ (.inr ⟨node, rfl⟩)⟩
      simp only [Refresh.step, ((Background.idle_iff _).mp idle).1]
      rfl
    | _ => exact ⟨actions, ran, earlier⟩
  · exact ⟨actions ++ [refreshAction], exec_extend ran moved, extended _ (.inl (by simp))⟩
  all_goals exact ⟨actions, ran, earlier⟩

theorem ControlPlane.sorted_of_run {schedule : List ControlAction} {state : ControlPlane}
    (run : exec (ControlPlane.step decoder history keyPrefix proxied) .new schedule = some state) :
    ∀ channel, ∀ event ∈ state.queues channel, event.channel = channel := by
  have enqueued (queues : Channel → List Event) (events : List Event)
      (sorted : ∀ channel, ∀ event ∈ queues channel, event.channel = channel) :
      ∀ channel, ∀ event ∈ enqueue queues events channel, event.channel = channel := by
    intro channel event member
    rcases List.mem_append.mp member with old | new
    · exact sorted channel event old
    · simpa using (List.mem_filter.mp new).2
  refine exec_invariant (motive := fun state : ControlPlane =>
    ∀ channel, ∀ event ∈ state.queues channel, event.channel = channel) (by nofun) ?_ run
  intro state action final sorted stepped
  rcases ControlPlane.step_cases stepped with ⟨_, _, -, -, rfl⟩ |
    ⟨channel, event, rest, -, -, queued, rfl⟩ | ⟨_, _, -, -, -, rfl⟩ | ⟨_, -, -, rfl⟩ | ⟨_, -, rfl⟩ |
    ⟨_, -, rfl⟩
  · exact enqueued _ _ sorted
  · intro other waiting member
    by_cases same : other = channel
    · subst other
      refine sorted channel waiting ?_
      rw [queued]
      exact List.mem_cons_of_mem _ (by simpa [ControlPlane.take] using member)
    · exact sorted other waiting (by simpa [ControlPlane.take, same] using member)
  · exact sorted
  · exact sorted
  · exact sorted
  · exact enqueued _ _ sorted

/-- What was taken from a channel and what waits in it is what discovery sent through it, in that
order, as long as no handler sends through it too. -/
theorem ControlPlane.flow_of_run {schedule : List ControlAction} {state : ControlPlane}
    (run : exec (ControlPlane.step decoder history keyPrefix proxied) .new schedule = some state)
    (channel : Channel) (unshared : channel = .node → ∀ node, .submit node ∉ schedule) :
    state.taken channel ++ state.queues channel =
      (state.watch.discover.dispatched.map Dispatch.event).filter
        fun event => event.channel = channel := by
  refine exec_induction (motive := fun schedule state =>
    (channel = .node → ∀ node, .submit node ∉ schedule) →
      state.taken channel ++ state.queues channel =
        (state.watch.discover.dispatched.map Dispatch.event).filter
          fun event => event.channel = channel) (fun _ => rfl) ?_ run unshared
  intro schedule state action final before holds stepped unshared
  have flow := holds fun isNode node member => unshared isNode node (List.mem_append_left _ member)
  rcases ControlPlane.step_cases stepped with ⟨watchAction, watch, -, moved, rfl⟩ |
    ⟨taken, event, rest, -, -, queued, rfl⟩ | ⟨_, _, -, -, -, rfl⟩ | ⟨_, -, -, rfl⟩ | ⟨_, -, rfl⟩ |
    ⟨node, rfl, rfl⟩
  · show state.taken channel ++ enqueue state.queues (sentBetween state.watch watch) channel = _
    rw [enqueue, ← List.append_assoc, flow, dispatched_of_step moved, List.filter_append]
  · refine Eq.trans ?_ flow
    by_cases same : channel = taken
    · subst taken
      simp [ControlPlane.take, queued]
    · simp [ControlPlane.take, same]
  · exact flow
  · exact flow
  · exact flow
  · have elsewhere : Channel.node ≠ channel := by
      rintro rfl
      exact unshared rfl node (by simp)
    refine Eq.trans ?_ flow
    simp [enqueue, Event.channel, elsewhere]

/-! What a cell holds. -/

inductive Content where
  | height (number : Option Int)
  | gateway (weights : Option (Assoc Bytes Int)) (routes : Option (Assoc Bytes MethodRoute))
  | mirror (target : MirrorTarget)
  | version (target : Bytes)

def GatewayStrategy.content (strategy : GatewayStrategy) (chainId : Bytes) : Option Content :=
  match strategy.weightMap.lookup chainId, strategy.methodRouteMap.lookup chainId with
  | none, none => none
  | weights, routes => some (.gateway weights routes)

def Background.read (state : Background) : Cell → Option Content
  | .height chainId => (state.heightMap.lookup chainId).map .height
  | .gateway chainId => state.gatewayStrategy.content chainId
  | .mirror chainId addrKey => (state.mirroring.target chainId addrKey).map .mirror
  | .version chainId => (state.chainVersionRouter.overrides.lookup chainId).map .version

/-- What an event tells its cell to hold. -/
def contentOf : Event → Option Content
  | .node _ => none
  | .height height => some (.height height.latestBlockNumber)
  | .gateway gateway =>
    match gateway.changeType with
    | .put =>
      some (.gateway (some (weightTable gateway.weights)) (some (gateway.methodRoutes.getD ∅)))
    | .delete => none
  | .mirror mirror => if mirror.deleted then none else some (.mirror mirror)
  | .version version =>
    let chain := trimSpace version.chainId
    let target := trimSpace version.version
    match version.changeType with
    | .put =>
      if target = [] then none else some (.version (chain ++ ascii "-" ++ dashed target))
    | .delete => none

theorem consumeGateway_content (strategy : GatewayStrategy) (gateway : Gateway) (chainId : Bytes) :
    (consumeGateway strategy gateway).content chainId =
      if gateway.chainId = chainId then contentOf (.gateway gateway) else strategy.content chainId := by
  unfold consumeGateway contentOf GatewayStrategy.content
  by_cases same : chainId = gateway.chainId
  · subst chainId
    cases kind : gateway.changeType <;>
      simp [kind, GatewayStrategy.updateGateway, GatewayStrategy.deleteGateway]
  · cases gateway.changeType <;>
      simp [GatewayStrategy.updateGateway, GatewayStrategy.deleteGateway, same, Ne.symm same]

theorem target_consume (mirroring : Mirroring) (mirror : MirrorTarget) (chainId addrKey : Bytes) :
    ((mirroring.consume mirror).target chainId addrKey).map Content.mirror =
      if mirror.chainId = chainId ∧ mirror.addrKey = addrKey then contentOf (.mirror mirror)
      else (mirroring.target chainId addrKey).map .mirror := by
  unfold Mirroring.consume contentOf
  by_cases own : chainId = mirror.chainId ∧ addrKey = mirror.addrKey
  · obtain ⟨rfl, rfl⟩ := own
    cases kind : mirror.deleted <;> simp [kind, Mirroring.target_drop, Mirroring.target_add]
  · have other : ¬ (mirror.chainId = chainId ∧ mirror.addrKey = addrKey) :=
      fun same => own ⟨same.1.symm, same.2.symm⟩
    rw [if_neg other]
    split <;> simp [Mirroring.target_drop, Mirroring.target_add, own]

theorem overrides_handleChainVersionUpdate (router : ChainVersionRouter) (version : ChainVersion)
    (chainId : Bytes) :
    ((handleChainVersionUpdate router (some version)).overrides.lookup chainId).map
        Content.version =
      if versionCell version.chainId = some (.version chainId) then contentOf (.version version)
      else (router.overrides.lookup chainId).map .version := by
  unfold versionCell contentOf handleChainVersionUpdate
  have nothing : trimSpace [] = [] := rfl
  by_cases blank : trimSpace version.chainId = []
  · cases kind : version.changeType <;>
      simp [kind, ChainVersionRouter.update, ChainVersionRouter.remove, blank]
  · by_cases same : chainId = trimSpace version.chainId
    · subst chainId
      cases kind : version.changeType with
      | put =>
        by_cases empty : trimSpace version.version = [] <;>
          simp [kind, ChainVersionRouter.update, blank, empty, nothing]
      | delete => simp [kind, ChainVersionRouter.remove, blank]
    · cases kind : version.changeType with
      | put =>
        by_cases empty : trimSpace version.version = [] <;>
          simp [kind, ChainVersionRouter.update, blank, empty, nothing, same, Ne.symm same]
      | delete => simp [kind, ChainVersionRouter.remove, blank, same, Ne.symm same]

/-- An event writes its own cell and nothing else. -/
theorem Background.read_consume (state : Background) (event : Event) (cell : Cell) :
    (state.consume event).read cell =
      if event.cell = some cell then contentOf event else state.read cell := by
  cases event with
  | node node => cases cell <;> rfl
  | height height =>
    cases cell with
    | height chainId =>
      by_cases same : chainId = height.chainId
      · subst chainId
        simp [Background.consume, Background.read, Heights.setHeight, Event.cell, contentOf]
      · simp [Background.consume, Background.read, Heights.setHeight, Event.cell, same,
          Ne.symm same]
    | _ => simp [Background.consume, Background.read, Event.cell]
  | gateway gateway =>
    cases cell with
    | gateway chainId =>
      simp only [Event.cell, Option.some.injEq, Cell.gateway.injEq]
      exact consumeGateway_content state.gatewayStrategy gateway chainId
    | _ => simp [Background.consume, Background.read, Event.cell]
  | mirror mirror =>
    cases cell with
    | mirror chainId addrKey =>
      simp only [Event.cell, Option.some.injEq, Cell.mirror.injEq]
      exact target_consume state.mirroring mirror chainId addrKey
    | _ => simp [Background.consume, Background.read, Event.cell]
  | version version =>
    cases cell with
    | version chainId =>
      exact overrides_handleChainVersionUpdate state.chainVersionRouter version chainId
    | _ =>
      have other : ∀ other, versionCell version.chainId = some other →
          ∃ chainId, other = .version chainId := fun other about =>
        ⟨_, (Option.some.inj (Option.ite_none_left_eq_some.mp about).2).symm⟩
      rw [if_neg fun about => by
        obtain ⟨_, same⟩ := other _ about
        cases same]
      rfl

end NodexProxy.Lb
