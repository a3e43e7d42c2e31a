import NodexProxy.Foundation.Checked
import NodexProxy.Lb.Selector

/-! Choosing the node for a request: `PickNodes`, the method routes and weights of the gateway,
and `GetNode` over them. -/

namespace NodexProxy.Lb

open NodexProxy.Foundation NodexProxy.Discovery

/-- `rpc.BlockNumberOrHash`, as far as routing looks at it. -/
structure BlockId where
  blockNumber : Option Int
  blockHash : Option Bytes
deriving DecidableEq, Repr

structure BlockContext where
  blockId : Option BlockId
  type : Bytes
deriving DecidableEq, Repr

def latestBlockNumber : Int := -2

def pendingBlockNumber : Int := -1

def preferAvailableNodes (nodes : List Node) : List Node :=
  if nodes.all Node.available then nodes
  else
    let available := nodes.filter Node.available
    if available = [] then nodes else available

/-- The pool for a block context when a chain has both kinds of nodes. -/
def pickByBlock (blockContext : Option BlockContext) (blockHeight : Option Int)
    (archiveNodes stateNodes : List Node) : List Node :=
  match blockContext with
  | none => stateNodes
  | some blockContext =>
    if blockContext.type ≠ ascii "Equals" then stateNodes
    else
      match blockContext.blockId.bind BlockId.blockNumber with
      | none => stateNodes
      | some blockNumber =>
        if blockNumber = latestBlockNumber ∨ blockNumber = pendingBlockNumber then stateNodes
        else
          match blockHeight with
          | none => archiveNodes
          | some height => if height - 64 ≤ blockNumber then stateNodes else archiveNodes

/-- `PickNodes`. The block context is only asked for where it can matter: an empty pool is
replaced by the other one, and then both are the same slice. -/
def pickNodes (blockContext : Option BlockContext) (blockHeight : Option Int)
    (archiveNodes stateNodes nativeNodes : List Node) (forceArchive forceNative : Bool) : List Node :=
  let archiveNodes := preferAvailableNodes archiveNodes
  let stateNodes := preferAvailableNodes stateNodes
  let nativeNodes := preferAvailableNodes nativeNodes
  if forceNative then nativeNodes
  else if forceArchive then archiveNodes
  else if stateNodes = [] then archiveNodes
  else if archiveNodes = [] then stateNodes
  else pickByBlock blockContext blockHeight archiveNodes stateNodes

/-- What `gatewayStrategy` holds. -/
structure GatewayStrategy where
  weightMap : Assoc Bytes (Assoc Bytes Int)
  methodRouteMap : Assoc Bytes (Assoc Bytes MethodRoute)

def listed (keys : Option (Assoc Bytes Bool)) (node : Node) : Bool :=
  (keys.bind fun keys => keys.lookup node.key).getD false

def applyMethodRoutes (routes : MethodRoute) (nodes : List Node) : List Node :=
  if 0 < keyCount routes.includeNodeKeys then nodes.filter (listed routes.includeNodeKeys)
  else if 0 < keyCount routes.excludeNodeKeys then
    nodes.filter fun node => !listed routes.excludeNodeKeys node
  else nodes

def GatewayStrategy.filterNodesByMethod (strategy : GatewayStrategy) (chainId method : Bytes)
    (nodes : List Node) : List Node :=
  match (strategy.methodRouteMap.lookup chainId).bind fun routes => routes.lookup method with
  | none => nodes
  | some routes => applyMethodRoutes routes nodes

def GatewayStrategy.nodeWeight (strategy : GatewayStrategy) (chainId : Bytes) (node : Node) : Int :=
  ((strategy.weightMap.lookup chainId).bind fun weights => weights.lookup node.key).getD defaultWeight

/-- The loop over the weights: the first node whose running sum passes the target. -/
def selectByWeight (weight : Node → Int) (target : Int) : Int → List Node → Option Node
  | _, [] => none
  | current, node :: rest =>
    if current + weight node > target then some node
    else selectByWeight weight target (current + weight node) rest

/-- The state `GetNode` reads, and the number its random source yields. -/
structure Selector where
  random : Random
  gatewayStrategy : GatewayStrategy
  draw : Nat

/-- `rand.Int63n`, which panics unless the bound is positive. -/
def int63n (draw : Nat) (bound : Int) : Checked Int :=
  if bound ≤ 0 then .error .badArgument else .ok (draw % bound)

/-- The draw among the nodes that are left; no node can be drawn when all weights are zero. -/
def drawNode (weight : Node → Int) (draw : Nat) (nodes : List Node) : Checked (Option Node) :=
  let weightSum := (nodes.map weight).sum
  if nodes = [] ∨ weightSum = 0 then return none
  else do
    let target ← int63n draw weightSum
    return selectByWeight weight target 0 nodes

/-- The nodes `GetNode` draws from. -/
def candidates (selector : Selector) (chainId method : Bytes) (batch archive : Bool)
    (blockContext : Option BlockContext) (requestKey : Bytes) : List Node :=
  let random := selector.random
  let nodes := pickNodes blockContext ((random.chainHeight.lookup chainId).join)
    (random.nodes .archive chainId) (random.nodes .state chainId) (random.nodes .native chainId)
    archive (requestKey == ascii "native")
  if batch then nodes else selector.gatewayStrategy.filterNodesByMethod chainId method nodes

/-- `GetNode`; `none` stands for its error. -/
def getNode (selector : Selector) (chainId method : Bytes) (batch archive : Bool)
    (blockContext : Option BlockContext) (requestKey : Bytes) : Checked (Option Node) :=
  drawNode (selector.gatewayStrategy.nodeWeight chainId) selector.draw
    (candidates selector chainId method batch archive blockContext requestKey)

theorem preferAvailableNodes_subset (nodes : List Node) : preferAvailableNodes nodes ⊆ nodes := by
  unfold preferAvailableNodes
  dsimp only
  split_ifs
  · exact List.Subset.refl _
  · exact List.Subset.refl _
  · exact List.filter_subset_self _

theorem filterNodesByMethod_subset (strategy : GatewayStrategy) (chainId method : Bytes)
    (nodes : List Node) : strategy.filterNodesByMethod chainId method nodes ⊆ nodes := by
  unfold GatewayStrategy.filterNodesByMethod applyMethodRoutes
  split
  · exact List.Subset.refl _
  · split_ifs
    · exact List.filter_subset_self _
    · exact List.filter_subset_self _
    · exact List.Subset.refl _

theorem selectByWeight_mem (weight : Node → Int) (target current : Int) (nodes : List Node)
    (selected : selectByWeight weight target current nodes = some node) : node ∈ nodes := by
  induction nodes generalizing current with
  | nil => cases selected
  | cons head rest inductionHypothesis =>
    unfold selectByWeight at selected
    split_ifs at selected
    · cases selected
      exact List.mem_cons_self ..
    · exact List.mem_cons_of_mem _ (inductionHypothesis _ selected)

theorem drawNode_mem (drawn : drawNode weight draw nodes = .ok (some node)) : node ∈ nodes := by
  unfold drawNode int63n at drawn
  dsimp only at drawn
  split_ifs at drawn
  · cases drawn
  · cases drawn
  · rw [Checked.ok_bind] at drawn
    exact selectByWeight_mem _ _ _ nodes (Except.ok.inj drawn)

/-- A node chosen with the archive flag set is one of the chain's archive nodes. -/
theorem getNode_archive {selector : Selector}
    (chosen : getNode selector chainId method batch true blockContext [] = .ok (some node)) :
    node ∈ selector.random.nodes .archive chainId := by
  have candidate := drawNode_mem chosen
  unfold candidates at candidate
  have picked : pickNodes blockContext ((selector.random.chainHeight.lookup chainId).join)
      (selector.random.nodes .archive chainId) (selector.random.nodes .state chainId)
      (selector.random.nodes .native chainId) true (([] : Bytes) == ascii "native") =
      preferAvailableNodes (selector.random.nodes .archive chainId) := rfl
  dsimp only at candidate
  rw [picked] at candidate
  apply preferAvailableNodes_subset
  split_ifs at candidate
  · exact candidate
  · exact filterNodesByMethod_subset _ _ _ _ candidate

end NodexProxy.Lb
