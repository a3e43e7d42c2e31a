import NodexProxy.Admin.Request
import NodexProxy.Foundation.Serial

/-! The admin handlers that change the gateway or a node, each as its reads of etcd and the
transaction it ends with. -/

namespace NodexProxy.Admin

open NodexProxy.Foundation NodexProxy.Discovery

/-- `Marshal` and `Unmarshal` at the two stored records, with the texts of their errors. -/
structure Handler where
  keyPrefix : Bytes
  marshalNode : NodeBody → Except Bytes Bytes
  unmarshalNode : Bytes → Except Bytes NodeBody
  marshalGateway : GatewayBody → Except Bytes Bytes
  unmarshalGateway : Bytes → Except Bytes GatewayBody

abbrev EtcdStore := RevisionStore Bytes Bytes

abbrev Call := Program Bytes Bytes Bytes Answer

/-- The requests, with what `BindJSON` and `Atoi` made of their parameters and, where a
handler looks it up, the node keys the chain's pools held (`none` for an unknown chain). -/
inductive Operation where
  | setWeight (nodeKey : Bytes) (weight : Option Int) (pool : Option (List Bytes))
  | deleteWeight (nodeKey : Bytes) (pool : Option (List Bytes))
  | addMethodRoute (request : Option MethodRouteRequest) (pool : Option (List Bytes))
  | removeMethodRoute (request : Option MethodRouteRequest) (pool : Option (List Bytes))
  | deleteMethodRoute (method : Bytes)
  | addNode (request : Option AddNodeRequest)
  | updateNode (nodeKey : Bytes) (request : Option UpdateNodeRequest)
  | deleteNode (nodeKey : Bytes)
deriving DecidableEq, Repr

def invalidFormat : Answer := badRequest "invalid request format"

def internalError (text : String) (error : Bytes) : Answer := .error 500 (ascii text ++ error)

def conflict : Bytes := ascii "concurrent modification detected, please retry"

def nodeNotFound (nodeKey : Bytes) : Bytes := ascii "node " ++ nodeKey ++ ascii " not found"

def routeNotFound (method : Bytes) : Answer :=
  .error 404 (ascii "method route(" ++ method ++ ascii ") not found")

def findNode (pool : Option (List Bytes)) (nodeKey : Bytes) : Bool :=
  (pool.getD []).contains nodeKey

/-- The error of `checkNodeExist`, if there is one. -/
def checkNodeExist (chainId : Bytes) (pool : Option (List Bytes)) (request : MethodRouteRequest) :
    Option Bytes :=
  if request.includeNodeKeys = [] ∧ request.excludeNodeKeys = [] then
    some (ascii "at least one of include or exclude is required")
  else
    match pool with
    | none => some (ascii "no nodes found for chainID " ++ chainId)
    | some nodes =>
      ((request.includeNodeKeys ++ request.excludeNodeKeys).find? fun key => !nodes.contains key).map
        nodeNotFound

/-- `m[key] = true` for each key; writing to the nil map panics. -/
def insertKeys (keys : List Bytes) (stored : Option (Assoc Bytes Bool)) :
    Option (Option (Assoc Bytes Bool)) :=
  if keys = [] then some stored
  else
    match stored with
    | none => none
    | some stored => some (some (keys.foldl (fun stored key => stored.insert key true) stored))

/-- The gateway after `AddMethodRoute`, or `none` for a panic. -/
def addRouteKeys (gateway : GatewayBody) (request : MethodRouteRequest) :
    Option GatewayBody := do
  let routes := gateway.methodRoutes.getD ∅
  -- a route is a value, but its key sets are shared with the stored one
  let route := (routes.lookup request.method).getD ⟨some ∅, some ∅⟩
  let included ← insertKeys request.includeNodeKeys route.includeNodeKeys
  let excluded ← insertKeys request.excludeNodeKeys route.excludeNodeKeys
  return { gateway with methodRoutes := some (routes.insert request.method ⟨included, excluded⟩) }

/-- The gateway after `RemoveMethodRoute`, or `none` when there is no such route. -/
def removeRouteKeys (gateway : GatewayBody) (request : MethodRouteRequest) :
    Option GatewayBody := do
  let routes ← gateway.methodRoutes
  let route ← routes.lookup request.method
  let included := request.includeNodeKeys.foldl (fun keys key => deleteKey key keys)
    route.includeNodeKeys
  let routes := if keyCount included = 0 then routes.erase request.method else routes
  let excluded := request.excludeNodeKeys.foldl (fun keys key => deleteKey key keys)
    route.excludeNodeKeys
  let routes := if keyCount excluded = 0 then routes.erase request.method else routes
  let routes :=
    if keyCount included = 0 ∧ keyCount excluded = 0 then routes.erase request.method
    else routes.insert request.method ⟨included, excluded⟩
  return { gateway with methodRoutes := some routes }

/-- The gateway after `DeleteMethodRoute`, or `none` when there is no such route. -/
def removeRoute (gateway : GatewayBody) (method : Bytes) : Option GatewayBody := do
  let routes ← gateway.methodRoutes
  let _ ← routes.lookup method
  return { gateway with methodRoutes := some (routes.erase method) }

/-- `sort.Strings`. -/
def sortStrings (keys : List Bytes) : List Bytes :=
  keys.mergeSort fun first second => decide (first ≤ second)

def sortedKeys (keys : Option (Assoc Bytes Bool)) : List Bytes :=
  match keys with
  | none => []
  | some keys => sortStrings keys.keys

/-- The reply built with `convertMethodRouteToResponse`; a missing route is the zero route. -/
def convertMethodRouteToResponse (gateway : GatewayBody) (method : Bytes) : Reply :=
  let route := (gateway.methodRoutes.bind fun routes => routes.lookup method).getD ⟨none, none⟩
  .methodRoute method (sortedKeys route.includeNodeKeys) (sortedKeys route.excludeNodeKeys)

namespace Handler

variable (handler : Handler) (chainId : Bytes)

def getGatewayConfig (next : Except Bytes (GatewayBody × Nat) → Call) : Call :=
  .get (gatewayKey handler.keyPrefix chainId) fun
    | .error error => next (.error (ascii "failed to get gateway config: " ++ error))
    | .ok none => next (.ok (⟨[], none⟩, 0))
    | .ok (some record) =>
      match handler.unmarshalGateway record.value with
      | .error error => next (.error (ascii "failed to parse gateway config: " ++ error))
      | .ok gateway => next (.ok (gateway, record.modRevision))

/-- `next` turns the error, if there is one, into the handler's answer. -/
def updateGatewayConfigWithTransaction (gateway : GatewayBody) (modRevision : Nat)
    (next : Option Bytes → Answer) : Call :=
  match handler.marshalGateway gateway with
  | .error error => .done (next (some (ascii "failed to marshal gateway config: " ++ error)))
  | .ok bytes =>
    .commit [.modRevision (gatewayKey handler.keyPrefix chainId) modRevision]
      [.put (gatewayKey handler.keyPrefix chainId) bytes] fun
      | .error error => next (some (ascii "failed to commit transaction: " ++ error))
      | .ok false => next (some conflict)
      | .ok true => next none

/-- `setWeight`, which both weight handlers end with. -/
def storeWeight (nodeKey : Bytes) (weight : Int) (next : Option Bytes → Answer) : Call :=
  handler.getGatewayConfig chainId fun
    | .error error => .done (next (some error))
    | .ok (gateway, modRevision) =>
      handler.updateGatewayConfigWithTransaction chainId (gateway.setWeight nodeKey weight)
        modRevision next

def setWeight (nodeKey : Bytes) (weight : Option Int) (pool : Option (List Bytes)) : Call :=
  if nodeKey = [] then .done (badRequest "node parameter is required")
  else
    match weight with
    | none => .done (badRequest "invalid weight value")
    | some weight =>
      if weight < 0 ∨ weight > defaultWeight then
        .done (badRequest "weight must be between 0 and 100")
      else if !findNode pool nodeKey then .done (.error 404 (ascii "node not found"))
      else
        handler.storeWeight chainId nodeKey weight fun
          | some error => internalError "failed to set weight: " error
          | none => .ok (.weight nodeKey weight (ascii "weight updated successfully"))

def deleteWeight (nodeKey : Bytes) (pool : Option (List Bytes)) : Call :=
  if nodeKey = [] then .done (badRequest "node parameter is required")
  else if !findNode pool nodeKey then .done (.error 404 (ascii "node not found"))
  else
    handler.storeWeight chainId nodeKey defaultWeight fun
      | some error => internalError "failed to reset weight to default: " error
      | none => .ok (.weight nodeKey defaultWeight (ascii "reset to default weight 100"))

/-- What the three method-route handlers do once their request has been checked. `missing` is
the answer when the edit does not apply. -/
def editGateway (edit : GatewayBody → Option GatewayBody) (missing : Answer)
    (reply : GatewayBody → Reply) : Call :=
  handler.getGatewayConfig chainId fun
    | .error error => .done (.error 500 error)
    | .ok (gateway, modRevision) =>
      match edit gateway with
      | none => .done missing
      | some edited =>
        handler.updateGatewayConfigWithTransaction chainId edited modRevision fun
          | some error => .error 500 error
          | none => .ok (reply edited)

/-- The checks `AddMethodRoute` and `RemoveMethodRoute` share. -/
def checkRouteRequest (request : Option MethodRouteRequest) (pool : Option (List Bytes))
    (next : MethodRouteRequest → Call) : Call :=
  match request with
  | none => .done invalidFormat
  | some request =>
    match checkNodeExist chainId pool request with
    | some error => .done (.error 400 error)
    | none =>
      if request.method = [] then .done (badRequest "method is required") else next request

def addMethodRoute (request : Option MethodRouteRequest) (pool : Option (List Bytes)) : Call :=
  checkRouteRequest chainId request pool fun request =>
    handler.editGateway chainId (addRouteKeys · request) .panicked
      (convertMethodRouteToResponse · request.method)

def removeMethodRoute (request : Option MethodRouteRequest) (pool : Option (List Bytes)) : Call :=
  checkRouteRequest chainId request pool fun request =>
    handler.editGateway chainId (removeRouteKeys · request) (routeNotFound request.method)
      (convertMethodRouteToResponse · request.method)

def deleteMethodRoute (method : Bytes) : Call :=
  handler.editGateway chainId (removeRoute · method) (routeNotFound method)
    fun _ => .message (ascii "method route deleted successfully")

/-- The node `AddNode` stores. -/
def newNode (request : AddNodeRequest) : NodeBody where
  stateType := request.state
  address := request.ip
  port := request.port
  nodeType := request.nodeType
  weight := request.weight
  source := ascii "manual"

/-- The transaction of `AddNode`; a failed comparison is reported as a bad request. -/
def addNodeCommit (request : AddNodeRequest) (guards : List (Guard Bytes))
    (writes : List (Write Bytes Bytes)) : Call :=
  .commit guards writes fun
    | .error error => internalError "failed to commit transaction: " error
    | .ok false => .error 400 conflict
    | .ok true =>
      .ok (.nodeAdded request.key request.ip request.port request.state request.weight
        (ascii "manual"))

def addNode (request : Option AddNodeRequest) : Call :=
  match request with
  | none => .done invalidFormat
  | some request =>
    match request.validate with
    | some answer => .done answer
    | none =>
      let etcdKey := nodeEtcdKey handler.keyPrefix chainId request.key
      .get etcdKey fun
        | .error error => .done (internalError "failed to get node from etcd: " error)
        | .ok (some _) =>
          .done (.error 400 (ascii "node " ++ request.key ++ ascii " already exists"))
        | .ok none =>
          match handler.marshalNode (newNode request) with
          | .error error => .done (internalError "failed to marshal node data: " error)
          | .ok node =>
            if request.weight = defaultWeight then
              addNodeCommit request [.version etcdKey 0] [.put etcdKey node]
            else
              handler.getGatewayConfig chainId fun
                | .error error => .done (internalError "failed to prepare gateway update: " error)
                | .ok (gateway, modRevision) =>
                  match handler.marshalGateway (gateway.setWeight request.key request.weight) with
                  | .error error => .done (internalError "failed to marshal gateway: " error)
                  | .ok bytes =>
                    addNodeCommit request
                      [.version etcdKey 0,
                        .modRevision (gatewayKey handler.keyPrefix chainId) modRevision]
                      [.put etcdKey node, .put (gatewayKey handler.keyPrefix chainId) bytes]

/-- How `UpdateNode` and `DeleteNode` begin: the node has to be there and be a manual one. -/
def getManualNode (nodeKey : Bytes) (refusal : String) (next : NodeBody → Call) : Call :=
  .get (nodeEtcdKey handler.keyPrefix chainId nodeKey) fun
    | .error _ => .done (.error 500 (ascii "failed to get node from etcd"))
    | .ok none => .done (.error 404 (nodeNotFound nodeKey))
    | .ok (some record) =>
      match handler.unmarshalNode record.value with
      | .error _ => .done (.error 500 (ascii "failed to parse existing node data"))
      | .ok node => if node.source ≠ ascii "manual" then .done (badRequest refusal) else next node

/-- What `UpdateNode` does with the new record; `Put` is a transaction without comparisons. -/
def updateNodeCommit (nodeKey : Bytes) (node : NodeBody) : Call :=
  match handler.marshalNode node with
  | .error _ => .done (.error 500 (ascii "failed to marshal node data"))
  | .ok bytes =>
    .commit [] [.put (nodeEtcdKey handler.keyPrefix chainId nodeKey) bytes] fun
      | .ok true =>
        .ok (.nodeUpdated nodeKey node.address node.port node.nodeType node.stateType)
      | _ => .error 500 (ascii "failed to update node in etcd")

def updateNode (nodeKey : Bytes) (request : Option UpdateNodeRequest) : Call :=
  match request with
  | none => .done invalidFormat
  | some request =>
    match request.validate with
    | some answer => .done answer
    | none =>
      handler.getManualNode chainId nodeKey "only manual nodes can be updated" fun stored =>
        handler.updateNodeCommit chainId nodeKey (request.apply stored)

/-- What `DeleteNode` does once the node has been seen. -/
def deleteNodeCommit (nodeKey : Bytes) : Call :=
  handler.getGatewayConfig chainId fun
    | .error error => .done (internalError "failed to get gateway config: " error)
    | .ok (gateway, modRevision) =>
      match handler.marshalGateway
          ((gateway.setWeight nodeKey defaultWeight).clearMethodRoute nodeKey) with
      | .error _ => .done (.error 500 (ascii "failed to marshal gateway config"))
      | .ok bytes =>
        .commit [.modRevision (gatewayKey handler.keyPrefix chainId) modRevision]
          [.delete (nodeEtcdKey handler.keyPrefix chainId nodeKey),
            .put (gatewayKey handler.keyPrefix chainId) bytes] fun
          | .error error => internalError "failed to commit transaction: " error
          | .ok false => .error 500 conflict
          | .ok true =>
            .ok (.message (ascii "node " ++ nodeKey ++ ascii " deleted successfully"))

def deleteNode (nodeKey : Bytes) : Call :=
  handler.getManualNode chainId nodeKey "only manual nodes can be deleted" fun _ =>
    handler.deleteNodeCommit chainId nodeKey

def call : Operation → Call
  | .setWeight nodeKey weight pool => handler.setWeight chainId nodeKey weight pool
  | .deleteWeight nodeKey pool => handler.deleteWeight chainId nodeKey pool
  | .addMethodRoute request pool => handler.addMethodRoute chainId request pool
  | .removeMethodRoute request pool => handler.removeMethodRoute chainId request pool
  | .deleteMethodRoute method => handler.deleteMethodRoute chainId method
  | .addNode request => handler.addNode chainId request
  | .updateNode nodeKey request => handler.updateNode chainId nodeKey request
  | .deleteNode nodeKey => handler.deleteNode chainId nodeKey

end Handler

/-! A chain with one manual node, and the JSON texts of its records. -/

def sampleNode : NodeBody where
  stateType := 1
  address := ascii "10.0.0.1"
  port := 8545
  nodeType := 1
  weight := 100
  source := ascii "manual"

def sampleNodeText : Bytes :=
  ascii "\x7b\"stateType\":1,\"address\":\"10.0.0.1\",\"port\":8545," ++
    ascii "\"nodeType\":1,\"weight\":100,\"source\":\"manual\"\x7d"

/-- The sample node at another port. -/
def movedNode : NodeBody := { sampleNode with port := 8546 }

def movedNodeText : Bytes :=
  ascii "\x7b\"stateType\":1,\"address\":\"10.0.0.1\",\"port\":8546," ++
    ascii "\"nodeType\":1,\"weight\":100,\"source\":\"manual\"\x7d"

def sampleWeights : GatewayBody := ⟨[⟨ascii "n", 50⟩], none⟩

def sampleWeightsText : Bytes :=
  ascii "\x7b\"weights\":[\x7b\"node_key\":\"n\",\"weight\":50\x7d]\x7d"

/-- The JSON codec on the records of the samples. -/
def sampleHandler : Handler where
  keyPrefix := ascii "/"
  marshalNode := fun node =>
    if node = sampleNode then .ok sampleNodeText
    else if node = movedNode then .ok movedNodeText
    else .error []
  unmarshalNode := fun text =>
    if text = sampleNodeText then .ok sampleNode
    else if text = movedNodeText then .ok movedNode
    else .error []
  marshalGateway := fun gateway =>
    if gateway = sampleWeights then .ok sampleWeightsText
    else if gateway = ⟨[], none⟩ then .ok (ascii "\x7b\x7d")
    else .error []
  unmarshalGateway := fun text =>
    if text = sampleWeightsText then .ok sampleWeights
    else if text = ascii "\x7b\x7d" then .ok ⟨[], none⟩
    else .error []

/-- One manual node and no gateway record. -/
def sampleStore : EtcdStore :=
  RevisionStore.empty.write [.put (ascii "/1/nodes/n") sampleNodeText]

end NodexProxy.Admin
