import NodexProxy.Foundation.Bytes

/-! The records discovery reads from etcd and hands to the load balancer. A body
holds the JSON fields; the record adds what the key and the event say. -/

namespace NodexProxy.Discovery

open NodexProxy.Foundation

/-- `EVENT_PUT` and `EVENT_DELETE`. -/
inductive ChangeType where
  | put
  | delete
deriving DecidableEq, Repr

def nodeTypeState : Int := 1

def nodeTypeArchive : Int := 2

/-- `types.DefaultWeight`. -/
def defaultWeight : Int := 100

structure NodeBody where
  stateType : Int
  address : Bytes
  port : Int
  nodeType : Int
  weight : Int
  source : Bytes
deriving DecidableEq, Repr

structure TargetNode extends NodeBody where
  chainId : Bytes
  nodeKey : Bytes
  changeType : ChangeType
deriving DecidableEq, Repr

structure WeightInfo where
  nodeKey : Bytes
  weight : Int
deriving DecidableEq, Repr

/-- Either key set may be the nil map, which reads as empty but cannot be written. -/
structure MethodRoute where
  includeNodeKeys : Option (Assoc Bytes Bool)
  excludeNodeKeys : Option (Assoc Bytes Bool)
deriving DecidableEq

structure GatewayBody where
  weights : List WeightInfo
  methodRoutes : Option (Assoc Bytes MethodRoute)
deriving DecidableEq

structure Gateway extends GatewayBody where
  chainId : Bytes
  changeType : ChangeType
deriving DecidableEq

structure MirrorBody where
  address : Bytes
  port : Int
  rateLimit : Option Int
deriving DecidableEq, Repr

structure MirrorTarget extends MirrorBody where
  chainId : Bytes
  addrKey : Bytes
  deleted : Bool
deriving DecidableEq, Repr

structure ChainHeight where
  chainId : Bytes
  latestBlockNumber : Option Int
deriving DecidableEq, Repr

structure ChainVersion where
  chainId : Bytes
  version : Bytes
  changeType : ChangeType
deriving DecidableEq, Repr

/-- Overwrite the weight of the first entry for the key, or append one. -/
def putWeight (nodeKey : Bytes) (weight : Int) : List WeightInfo → List WeightInfo
  | [] => [⟨nodeKey, weight⟩]
  | info :: rest =>
    if info.nodeKey = nodeKey then { info with weight := weight } :: rest
    else info :: putWeight nodeKey weight rest

/-- Only weights other than the default are stored. -/
def GatewayBody.setWeight (gateway : GatewayBody) (nodeKey : Bytes) (weight : Int) : GatewayBody :=
  if weight = defaultWeight then
    { gateway with weights := gateway.weights.eraseP fun info => info.nodeKey = nodeKey }
  else
    { gateway with weights := putWeight nodeKey weight gateway.weights }

/-- `delete(m, key)`, which ignores the nil map. -/
def deleteKey (key : Bytes) (keys : Option (Assoc Bytes Bool)) : Option (Assoc Bytes Bool) :=
  keys.map (AList.erase key)

/-- `len(m)`. -/
def keyCount (keys : Option (Assoc Bytes Bool)) : Nat :=
  match keys with
  | none => 0
  | some keys => keys.entries.length

/-- One turn of the loop in `ClearMethodRoute`. -/
def clearRoute (nodeKey : Bytes) (routes : Assoc Bytes MethodRoute) (method : Bytes) :
    Assoc Bytes MethodRoute :=
  match routes.lookup method with
  | none => routes
  | some route =>
    let route : MethodRoute :=
      ⟨deleteKey nodeKey route.includeNodeKeys, deleteKey nodeKey route.excludeNodeKeys⟩
    if keyCount route.includeNodeKeys = 0 ∧ keyCount route.excludeNodeKeys = 0 then
      routes.erase method
    else routes.insert method route

def GatewayBody.clearMethodRoute (gateway : GatewayBody) (nodeKey : Bytes) : GatewayBody :=
  { gateway with
    methodRoutes := gateway.methodRoutes.map fun routes =>
      routes.keys.foldl (clearRoute nodeKey) routes }

end NodexProxy.Discovery
