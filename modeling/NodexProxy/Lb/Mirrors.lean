import NodexProxy.Admin.Request

/-! Mirror targets and their rate limiters. Targets are stored by chain and address key,
limiters by chain and URL, and five operations update one store or both. -/

namespace NodexProxy.Lb

open NodexProxy.Foundation NodexProxy.Discovery NodexProxy.Admin

/-- The mirror map and the mirror limiter. A limiter is given by its rate, which is also
its burst. -/
structure Mirroring where
  mirrors : Assoc Bytes (Assoc Bytes MirrorTarget)
  limiters : Assoc Bytes Int

def Mirroring.new : Mirroring := ⟨∅, ∅⟩

def mirrorURL (address : Bytes) (port : Int) : Bytes :=
  ascii "http://" ++ address ++ ascii ":" ++ itoa port

/-- `MirrorTarget.URL`. -/
def targetURL (target : MirrorTarget) : Bytes := mirrorURL target.address target.port

def Mirroring.addMirrorTarget (state : Mirroring) (chainId addrKey : Bytes)
    (target : MirrorTarget) : Mirroring :=
  let targets := (state.mirrors.lookup chainId).getD ∅
  { state with mirrors := state.mirrors.insert chainId (targets.insert addrKey target) }

def Mirroring.deleteMirrorTarget (state : Mirroring) (chainId addrKey : Bytes) : Mirroring :=
  match state.mirrors.lookup chainId with
  | none => state
  | some targets =>
    let targets := targets.erase addrKey
    if targets.keys = [] then { state with mirrors := state.mirrors.erase chainId }
    else { state with mirrors := state.mirrors.insert chainId targets }

def Mirroring.deleteChainMirrors (state : Mirroring) (chainId : Bytes) : Mirroring :=
  { state with mirrors := state.mirrors.erase chainId }

/-- `makeKey`. -/
def limiterKey (chainId url : Bytes) : Bytes := chainId ++ ascii ":" ++ url

/-- `UpdateLimit`, with the limiters it leaves and what it returns. -/
def updateLimit (limiters : Assoc Bytes Int) (chainId url : Bytes) (rps : Int) :
    Assoc Bytes Int × Bool :=
  if chainId = [] ∨ url = [] ∨ rps < 0 then (limiters, false)
  else if rps = 0 then (limiters.erase (limiterKey chainId url), true)
  else (limiters.insert (limiterKey chainId url) rps, true)

def Mirroring.removeLimit (state : Mirroring) (chainId url : Bytes) : Mirroring :=
  { state with limiters := state.limiters.erase (limiterKey chainId url) }

/-- Add the target, and set its limit if it has a positive one. -/
def Mirroring.add (state : Mirroring) (chainId addrKey : Bytes) (target : MirrorTarget) :
    Mirroring :=
  let state := state.addMirrorTarget chainId addrKey target
  match target.rateLimit with
  | none => state
  | some rps =>
    if 0 < rps then
      { state with limiters := (updateLimit state.limiters chainId (targetURL target) rps).1 }
    else state

/-- Delete the target under the key, and the limit of the URL. -/
def Mirroring.drop (state : Mirroring) (chainId addrKey url : Bytes) : Mirroring :=
  (state.deleteMirrorTarget chainId addrKey).removeLimit chainId url

/-- A mirror event in `BackgroundRefreshNode`. -/
def Mirroring.consume (state : Mirroring) (mirror : MirrorTarget) : Mirroring :=
  if mirror.deleted then state.drop mirror.chainId mirror.addrKey (targetURL mirror)
  else state.add mirror.chainId mirror.addrKey mirror

/-- The body of a successful answer. -/
inductive MirrorReply where
  | added (address : Bytes) (port : Int) (url : Bytes) (rateLimit : Option Int) (message : Bytes)
  | message (text : Bytes)
deriving DecidableEq, Repr

/-- The checks before a local change: the path parameter, the binding of the body, which
may fail with a text, and its fields. -/
def checkLocal (chainId : Bytes) (bound : Except Bytes MirrorRequest) :
    Except Answer MirrorRequest :=
  if chainId = [] then .error (badRequest "chainId is required")
  else
    match bound with
    | .error text => .error (.error 400 (ascii "invalid request body: " ++ text))
    | .ok request =>
      match request.validate with
      | some answer => .error answer
      | none => .ok request

def Mirroring.addLocalMirror (state : Mirroring) (chainId : Bytes)
    (bound : Except Bytes MirrorRequest) : Except Answer MirrorReply × Mirroring :=
  match checkLocal chainId bound with
  | .error answer => (.error answer, state)
  | .ok request =>
    let target : MirrorTarget :=
      { address := request.address, port := request.port, rateLimit := request.rateLimit
        chainId, addrKey := request.addrKey, deleted := false }
    (.ok (.added target.address target.port (targetURL target) target.rateLimit
        (ascii "mirror target added successfully")),
      state.add chainId request.addrKey target)

/-- The rate limit of a delete request is not in its type and not read. -/
def Mirroring.deleteLocalMirror (state : Mirroring) (chainId : Bytes)
    (bound : Except Bytes MirrorRequest) : Except Answer MirrorReply × Mirroring :=
  match checkLocal chainId bound with
  | .error answer => (.error answer, state)
  | .ok request =>
    (.ok (.message (ascii "mirror target deleted successfully")),
      state.drop chainId request.addrKey (mirrorURL request.address request.port))

def Mirroring.deleteAllLocalMirrors (state : Mirroring) (chainId : Bytes) :
    Except Answer MirrorReply × Mirroring :=
  if chainId = [] then (.error (badRequest "chainId is required"), state)
  else
    (.ok (.message (ascii "all mirror targets deleted successfully")),
      state.deleteChainMirrors chainId)

inductive MirrorOp where
  | event (mirror : MirrorTarget)
  | addLocal (chainId : Bytes) (bound : Except Bytes MirrorRequest)
  | deleteLocal (chainId : Bytes) (bound : Except Bytes MirrorRequest)
  | deleteAllLocal (chainId : Bytes)

def Mirroring.apply (state : Mirroring) : MirrorOp → Mirroring
  | .event mirror => state.consume mirror
  | .addLocal chainId bound => (state.addLocalMirror chainId bound).2
  | .deleteLocal chainId bound => (state.deleteLocalMirror chainId bound).2
  | .deleteAllLocal chainId => (state.deleteAllLocalMirrors chainId).2

end NodexProxy.Lb
