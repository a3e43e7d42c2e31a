import NodexProxy.Discovery.Types

/-! The admin requests, the checks made before etcd is asked, and the keys they write. -/

namespace NodexProxy.Admin

open NodexProxy.Foundation NodexProxy.Discovery

/-- The body of a successful answer. -/
inductive Reply where
  | weight (nodeKey : Bytes) (weight : Int) (message : Bytes)
  | nodeAdded (nodeKey ip : Bytes) (port state weight : Int) (source : Bytes)
  | nodeUpdated (nodeKey ip : Bytes) (port nodeType state : Int)
  | methodRoute (method : Bytes) (includeNodeKeys excludeNodeKeys : List Bytes)
  | message (text : Bytes)
deriving DecidableEq, Repr

/-- What the caller is told: a reply, a status with its error text, or nothing sensible when
the handler panicked. -/
inductive Answer where
  | ok (reply : Reply)
  | error (status : Nat) (message : Bytes)
  | panicked
deriving DecidableEq, Repr

def Answer.succeeded : Answer → Bool
  | .ok _ => true
  | .error _ _ => false
  | .panicked => false

def badRequest (message : String) : Answer := .error 400 (ascii message)

structure AddNodeRequest where
  nodeType : Int
  nodeKey : Bytes
  ip : Bytes
  port : Int
  state : Int
  weight : Int
deriving DecidableEq, Repr

structure UpdateNodeRequest where
  ip : Bytes
  port : Int
deriving DecidableEq, Repr

/-- The body of `AddMethodRoute` and `RemoveMethodRoute`. -/
structure MethodRouteRequest where
  method : Bytes
  includeNodeKeys : List Bytes
  excludeNodeKeys : List Bytes
deriving DecidableEq, Repr

structure MirrorRequest where
  address : Bytes
  port : Int
  rateLimit : Option Int
deriving DecidableEq, Repr

def AddNodeRequest.validate (request : AddNodeRequest) : Option Answer :=
  if request.ip = [] ∨ request.port = 0 then some (badRequest "(ip, port) are required")
  else if request.nodeType ≠ 1 ∧ request.nodeType ≠ 2 then
    some (badRequest "invalid node_type value")
  else if request.state < 1 ∨ request.state > 3 then
    some (badRequest "state must be between 1 and 3")
  else if request.weight < 0 ∨ request.weight > defaultWeight then
    some (badRequest "weight must be between 0 and 100")
  else none

/-- The key stored, with the address standing in for a missing one. -/
def AddNodeRequest.key (request : AddNodeRequest) : Bytes :=
  if request.nodeKey = [] then request.ip ++ ascii "_" ++ itoa request.port else request.nodeKey

def UpdateNodeRequest.validate (request : UpdateNodeRequest) : Option Answer :=
  if request.ip = [] ∧ request.port = 0 then
    some (badRequest "at least one field(ip, port) is required")
  else none

/-- The fields the request names, over those of the stored node. -/
def UpdateNodeRequest.apply (request : UpdateNodeRequest) (node : NodeBody) : NodeBody :=
  { node with
    address := if request.ip ≠ [] then request.ip else node.address
    port := if request.port ≠ 0 then request.port else node.port }

/-- The checks `AddMirror` and `DeleteMirror` share. -/
def MirrorRequest.validate (request : MirrorRequest) : Option Answer :=
  if request.address = [] then some (badRequest "address is required")
  else if request.port ≤ 0 ∨ request.port > 65535 then
    some (badRequest "port must be between 1 and 65535")
  else none

def MirrorRequest.addrKey (request : MirrorRequest) : Bytes :=
  request.address ++ ascii ":" ++ itoa request.port

def nodeEtcdKey (keyPrefix chainId nodeKey : Bytes) : Bytes :=
  keyPrefix ++ chainId ++ ascii "/nodes/" ++ nodeKey

def gatewayKey (keyPrefix chainId : Bytes) : Bytes := keyPrefix ++ chainId ++ ascii "/gateway"

def mirrorEtcdKey (keyPrefix chainId addrKey : Bytes) : Bytes :=
  keyPrefix ++ chainId ++ ascii "/mirror/" ++ addrKey

end NodexProxy.Admin
