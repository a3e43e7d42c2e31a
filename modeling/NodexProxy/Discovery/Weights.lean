import NodexProxy.Foundation.Sparse
import NodexProxy.Discovery.Types

/-! The weights of a gateway as a map from node keys to weights, with the default for a key that
has no entry. -/

namespace NodexProxy.Discovery

open NodexProxy.Foundation

def WeightInfo.entry (info : WeightInfo) : Bytes × Int := (info.nodeKey, info.weight)

namespace GatewayBody

def entries (gateway : GatewayBody) : List (Bytes × Int) := gateway.weights.map WeightInfo.entry

/-- The weight stored for a node key, else the default. -/
def effectiveWeight (gateway : GatewayBody) (nodeKey : Bytes) : Int :=
  valueOf defaultWeight gateway.entries nodeKey

/-- No two weights have the same node key. -/
def Distinct (gateway : GatewayBody) : Prop := (gateway.weights.map WeightInfo.nodeKey).Nodup

instance (gateway : GatewayBody) : Decidable gateway.Distinct :=
  inferInstanceAs (Decidable (List.Nodup _))

theorem keys_entries (gateway : GatewayBody) :
    gateway.entries.map Prod.fst = gateway.weights.map WeightInfo.nodeKey :=
  List.map_map ..

theorem Distinct.entries {gateway : GatewayBody} (distinct : gateway.Distinct) :
    (gateway.entries.map Prod.fst).Nodup := by
  rw [keys_entries]
  exact distinct

theorem entries_putWeight (nodeKey : Bytes) (weight : Int) (weights : List WeightInfo) :
    (putWeight nodeKey weight weights).map WeightInfo.entry =
      putEntry nodeKey weight (weights.map WeightInfo.entry) := by
  induction weights with
  | nil => rfl
  | cons info rest inductionHypothesis =>
    have head : info.entry.1 = info.nodeKey := rfl
    rw [putWeight, List.map_cons, putEntry, head]
    by_cases same : info.nodeKey = nodeKey
    · rw [if_pos same, if_pos same, List.map_cons, ← same]
      rfl
    · rw [if_neg same, if_neg same, List.map_cons, inductionHypothesis]

/-- `SetWeight` sets one entry of the map. -/
theorem entries_setWeight (gateway : GatewayBody) (nodeKey : Bytes) (weight : Int) :
    (gateway.setWeight nodeKey weight).entries =
      assign defaultWeight nodeKey weight gateway.entries := by
  unfold setWeight assign
  split
  · rw [entries, entries, List.eraseP_map]
    rfl
  · exact entries_putWeight nodeKey weight gateway.weights

theorem methodRoutes_setWeight (gateway : GatewayBody) (nodeKey : Bytes) (weight : Int) :
    (gateway.setWeight nodeKey weight).methodRoutes = gateway.methodRoutes := by
  unfold setWeight
  split <;> rfl

theorem Distinct.setWeight {gateway : GatewayBody} (distinct : gateway.Distinct) (nodeKey : Bytes)
    (weight : Int) : (gateway.setWeight nodeKey weight).Distinct := by
  rw [Distinct, ← keys_entries, entries_setWeight]
  exact nodup_assign distinct.entries nodeKey weight

/-- The default is stored by removing the entry. -/
theorem setWeight_default_absent {gateway : GatewayBody} (distinct : gateway.Distinct)
    (nodeKey : Bytes) :
    nodeKey ∉ (gateway.setWeight nodeKey defaultWeight).weights.map WeightInfo.nodeKey := by
  rw [← keys_entries, entries_setWeight, assign, if_pos rfl]
  exact eraseP_absent distinct.entries

/-- One key gets the weight, and every other keeps what it had. -/
theorem effectiveWeight_setWeight {gateway : GatewayBody} (distinct : gateway.Distinct)
    (nodeKey : Bytes) (weight : Int) :
    (gateway.setWeight nodeKey weight).effectiveWeight =
      Function.update gateway.effectiveWeight nodeKey weight := by
  have same (gateway : GatewayBody) :
      gateway.effectiveWeight = valueOf defaultWeight gateway.entries := rfl
  rw [same, same, entries_setWeight]
  exact valueOf_assign distinct.entries nodeKey weight

end GatewayBody

end NodexProxy.Discovery
