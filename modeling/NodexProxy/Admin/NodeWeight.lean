import NodexProxy.Admin.Content
import NodexProxy.Admin.NodeUpdates

/-! The weight `AddNode` is asked for against the weight the gateway has for the node afterwards.
A default weight is not written, so a weight left over from an earlier node of the same key is
still there. -/

namespace NodexProxy.Admin

open NodexProxy.Foundation NodexProxy.Discovery

namespace Handler

variable {handler : Handler} {chainId : Bytes} {store : EtcdStore} {gateway : GatewayBody}
  {request : AddNodeRequest}

/-- The record stands for this gateway: it reads as it, or is its text. -/
def Holds (handler : Handler) (chainId : Bytes) (store : EtcdStore) (gateway : GatewayBody) :
    Prop :=
  handler.Reads chainId store gateway ∨ handler.Wrote chainId store gateway

theorem addNodeCommit_succeeds {guards : List (Guard Bytes)} {writes : List (Write Bytes Bytes)}
    (succeeds : Succeeds ((addNodeCommit request guards writes).run store).1) :
    ((addNodeCommit request guards writes).run store).2 = store.write writes := by
  simp only [addNodeCommit, Program.run] at succeeds ⊢
  split_ifs at succeeds ⊢
  · rfl
  · exact absurd succeeds not_succeeds_error

/-- The node's key is not the gateway's. -/
theorem Reads.put_node (reads : handler.Reads chainId store gateway) (nodeKey node : Bytes) :
    handler.Reads chainId
      (store.write [.put (nodeEtcdKey handler.keyPrefix chainId nodeKey) node]) gateway := by
  have kept : (store.write [.put (nodeEtcdKey handler.keyPrefix chainId nodeKey) node]).records
      (gatewayKey handler.keyPrefix chainId) = store.records (gatewayKey handler.keyPrefix chainId) :=
    Function.update_of_ne (nodeEtcdKey_ne_gatewayKey _ _ _).symm ..
  unfold Reads
  rw [kept]
  exact reads

/-- The gateway is written only for a weight other than the default. -/
theorem addNode_gateway (reads : handler.Reads chainId store gateway)
    (succeeds : Succeeds ((handler.addNode chainId (some request)).run store).1) :
    if request.weight = defaultWeight then
      handler.Reads chainId ((handler.addNode chainId (some request)).run store).2 gateway
    else
      handler.Wrote chainId ((handler.addNode chainId (some request)).run store).2
        (gateway.setWeight request.key request.weight) := by
  have valid := addNode_valid succeeds
  have free : store.records (nodeEtcdKey handler.keyPrefix chainId request.key) = none :=
    addNode_succeeds succeeds
  simp only [addNode, valid, Program.run, free] at succeeds ⊢
  cases encoded : handler.marshalNode (newNode request) with
  | error error =>
    rw [encoded] at succeeds
    exact absurd succeeds not_succeeds_error
  | ok node =>
    rw [encoded] at succeeds
    dsimp only at succeeds ⊢
    split_ifs at succeeds ⊢ with default
    · rw [addNodeCommit_succeeds succeeds]
      exact reads.put_node request.key node
    · rw [getGatewayConfig_run reads] at succeeds ⊢
      dsimp only at succeeds ⊢
      cases marshals : handler.marshalGateway (gateway.setWeight request.key request.weight) with
      | error error =>
        rw [marshals] at succeeds
        exact absurd succeeds not_succeeds_error
      | ok bytes =>
        rw [marshals] at succeeds
        rw [addNodeCommit_succeeds succeeds]
        exact Wrote.of_write marshals [_]

end Handler

/-- After a committed `AddNode` all other weights and all routes are as they were, and the weight
of the node is the requested one exactly when that is not the default or no other was stored. -/
theorem addNode_weight_iff (handler : Handler) (chainId : Bytes) (store : EtcdStore)
    (gateway : GatewayBody) (request : AddNodeRequest) (reads : handler.Reads chainId store gateway)
    (distinct : gateway.Distinct)
    (committed : Succeeds ((handler.addNode chainId (some request)).run store).1) :
    ∃ result, handler.Holds chainId ((handler.addNode chainId (some request)).run store).2 result ∧
      (∀ other, other ≠ request.key → result.effectiveWeight other = gateway.effectiveWeight other) ∧
      result.methodRoutes = gateway.methodRoutes ∧
      (result.effectiveWeight request.key = request.weight ↔
        request.weight ≠ defaultWeight ∨
          gateway.effectiveWeight request.key = defaultWeight) := by
  have written := Handler.addNode_gateway reads committed
  by_cases default : request.weight = defaultWeight
  · rw [if_pos default] at written
    refine ⟨gateway, .inl written, fun _ _ => rfl, rfl, ?_⟩
    simp [default]
  · rw [if_neg default] at written
    refine ⟨_, .inr written, ?_, gateway.methodRoutes_setWeight .., ?_⟩
    · intro other apart
      rw [GatewayBody.effectiveWeight_setWeight distinct, Function.update_of_ne apart]
    · rw [GatewayBody.effectiveWeight_setWeight distinct, Function.update_self]
      simp [default]

/-- The sample node with half the weight. -/
def lightNode : NodeBody := { sampleNode with weight := 50 }

def lightHandler : Handler :=
  { sampleHandler with
    marshalNode := fun node =>
      if node = lightNode then
        .ok (ascii "\x7b\"stateType\":1,\"address\":\"10.0.0.1\",\"port\":8545," ++
          ascii "\"nodeType\":1,\"weight\":50,\"source\":\"manual\"\x7d")
      else sampleHandler.marshalNode node }

def lightRequest : AddNodeRequest := ⟨1, ascii "n", ascii "10.0.0.1", 8545, 1, 50⟩

theorem addNode_weight_light :
    ∃ result, lightHandler.Holds (ascii "1")
        ((lightHandler.addNode (ascii "1") (some lightRequest)).run RevisionStore.empty).2 result ∧
      result.effectiveWeight (ascii "n") = 50 := by
  have reads : lightHandler.Reads (ascii "1") RevisionStore.empty ⟨[], none⟩ := rfl
  obtain ⟨result, holds, -, -, weight⟩ := addNode_weight_iff lightHandler (ascii "1")
    RevisionStore.empty ⟨[], none⟩ lightRequest reads (by decide) (by unfold Succeeds; decide)
  exact ⟨result, holds, weight.mpr (.inl (by decide))⟩

/-- The weight of a node that is gone, in a chain without nodes. -/
def staleStore : EtcdStore :=
  RevisionStore.empty.write [.put (ascii "/1/gateway") sampleWeightsText]

/-- A node added with the default weight gets the weight of the one that was there before. -/
theorem addNode_keeps_stale_weight :
    let out := (sampleHandler.addNode (ascii "1")
      (some ⟨1, ascii "n", ascii "10.0.0.1", 8545, 1, 100⟩)).run staleStore
    sampleHandler.Reads (ascii "1") staleStore sampleWeights ∧ sampleWeights.Distinct ∧
    out.1 = .ok (.nodeAdded (ascii "n") (ascii "10.0.0.1") 8545 1 100 (ascii "manual")) ∧
    sampleHandler.Reads (ascii "1") out.2 sampleWeights ∧
    sampleWeights.effectiveWeight (ascii "n") = 50 := by
  refine ⟨rfl, by decide, by decide, rfl, by decide⟩

end NodexProxy.Admin
