import NodexProxy.Discovery.Weights
import NodexProxy.Lb.GatewaySwitch

/-! The weights `GetNode` uses after a gateway is published: `SetWeight` edits a list, the
selector reads a table, and together they are a map with the default weight. -/

namespace NodexProxy.Lb

open NodexProxy.Foundation NodexProxy.Discovery

theorem lookup_weightTable {gateway : GatewayBody} (distinct : gateway.Distinct) (nodeKey : Bytes) :
    ((weightTable gateway.weights).lookup nodeKey).getD defaultWeight =
      gateway.effectiveWeight nodeKey := by
  have table : weightTable gateway.weights =
      gateway.entries.foldl (fun table entry => table.insert entry.1 entry.2) ∅ := by
    rw [GatewayBody.entries, List.foldl_map]
    rfl
  rw [table, lookup_foldl_insert distinct.entries]
  rfl

/-- A published gateway gives each node its effective weight. -/
theorem nodeWeight_updateGateway (strategy : GatewayStrategy) (chainId : Bytes)
    {gateway : GatewayBody} (distinct : gateway.Distinct) (node : Node) :
    (strategy.updateGateway chainId gateway).nodeWeight chainId node =
      gateway.effectiveWeight node.key := by
  rw [GatewayStrategy.nodeWeight, GatewayStrategy.updateGateway, Assoc.lookup_insert_eq,
    if_pos rfl]
  exact lookup_weightTable distinct node.key

/-- The gateway after calls of `SetWeight`, oldest first, on an empty one. -/
def weighed (calls : List (Bytes × Int)) : GatewayBody :=
  calls.foldl (fun gateway call => gateway.setWeight call.1 call.2) ⟨[], none⟩

/-- The weight last set for a key, or the default. -/
def lastSet (calls : List (Bytes × Int)) (nodeKey : Bytes) : Int :=
  valueOf defaultWeight calls.reverse nodeKey

theorem entries_weighed (calls : List (Bytes × Int)) :
    (weighed calls).entries =
      calls.foldl (fun entries call => assign defaultWeight call.1 call.2 entries) [] := by
  induction calls using List.reverseRecOn with
  | nil => rfl
  | append_singleton calls call inductionHypothesis =>
    rw [List.foldl_append, ← inductionHypothesis, weighed, List.foldl_append]
    exact (weighed calls).entries_setWeight call.1 call.2

theorem weighed_sparse (calls : List (Bytes × Int)) : Sparse defaultWeight (weighed calls).entries := by
  rw [entries_weighed]
  exact (Sparse.assignAll calls).1

theorem weighed_distinct (calls : List (Bytes × Int)) : (weighed calls).Distinct := by
  rw [GatewayBody.Distinct, ← GatewayBody.keys_entries]
  exact (weighed_sparse calls).distinct

theorem effectiveWeight_weighed (calls : List (Bytes × Int)) :
    (weighed calls).effectiveWeight = lastSet calls := by
  have same : valueOf defaultWeight (weighed calls).entries = lastSet calls := by
    rw [entries_weighed]
    exact (Sparse.assignAll calls).2
  exact same

/-- A call shows at its own key only. -/
theorem lastSet_snoc (calls : List (Bytes × Int)) (set : Bytes) (weight : Int) (nodeKey : Bytes) :
    lastSet (calls ++ [(set, weight)]) nodeKey =
      if set = nodeKey then weight else lastSet calls nodeKey := by
  rw [lastSet, List.reverse_append, List.reverse_singleton, List.singleton_append, valueOf_cons]
  rfl

theorem lastSet_filter (calls : List (Bytes × Int)) (set nodeKey : Bytes) :
    lastSet (calls.filter fun call => call.1 ≠ set) nodeKey =
      if set = nodeKey then defaultWeight else lastSet calls nodeKey := by
  rw [lastSet, ← List.filter_reverse, valueOf_filter]
  rfl

/-- The weight `GetNode` uses for a node once the gateway is published. -/
def usedWeight (strategy : GatewayStrategy) (chainId : Bytes) (node : Node)
    (calls : List (Bytes × Int)) : Int :=
  (strategy.updateGateway chainId (weighed calls)).nodeWeight chainId node

theorem usedWeight_eq (strategy : GatewayStrategy) (chainId : Bytes) (node : Node)
    (calls : List (Bytes × Int)) :
    usedWeight strategy chainId node calls = lastSet calls node.key := by
  rw [usedWeight, nodeWeight_updateGateway strategy chainId (weighed_distinct calls),
    effectiveWeight_weighed]

/-- The weights of a gateway form a map with the default weight, whatever calls of `SetWeight`
made it and whatever was published before. -/
theorem setWeight_is_a_map (calls : List (Bytes × Int)) :
    ((weighed calls).weights.map WeightInfo.nodeKey).Nodup ∧
    (∀ info ∈ (weighed calls).weights, info.weight ≠ defaultWeight) ∧
    ∀ (strategy : GatewayStrategy) (chainId : Bytes) (node : Node),
      usedWeight strategy chainId node calls = lastSet calls node.key ∧
      (∀ set weight, set ≠ node.key →
        usedWeight strategy chainId node (calls ++ [(set, weight)]) =
          usedWeight strategy chainId node calls) ∧
      ∀ set, usedWeight strategy chainId node (calls ++ [(set, defaultWeight)]) =
        usedWeight strategy chainId node (calls.filter fun call => call.1 ≠ set) := by
  refine ⟨weighed_distinct calls, fun info member => ?_, fun strategy chainId node => ⟨?_, ?_, ?_⟩⟩
  · exact (weighed_sparse calls).proper info.entry (List.mem_map_of_mem member)
  · exact usedWeight_eq strategy chainId node calls
  · intro set weight other
    rw [usedWeight_eq, usedWeight_eq, lastSet_snoc, if_neg other]
  · intro set
    rw [usedWeight_eq, usedWeight_eq, lastSet_snoc, lastSet_filter]

example : lastSet [(ascii "a", 30), (ascii "b", 70), (ascii "a", 100)] (ascii "a") = 100 := by decide

end NodexProxy.Lb
