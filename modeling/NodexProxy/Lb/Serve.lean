import NodexProxy.Lb.Chain
import NodexProxy.Lb.Intake
import NodexProxy.Lb.Pick

/-! `ServeHTTP`: one request through up to three attempts, and the cache of block hashes that
only archive nodes can serve. -/

namespace NodexProxy.Lb

open NodexProxy.Foundation NodexProxy.Discovery NodexProxy.Jsonrpc

def stateBlockNotFound : Int := -39006

def invalidBlockID : Int := -39007

def cosmosPrecompile : Int := -39008

/-- The hashes cached for each chain; `none` is the disabled cache. -/
structure ArchiveHashCache where
  chains : Option (Assoc Bytes (List Bytes))

namespace ArchiveHashCache

def empty : ArchiveHashCache := ⟨some ∅⟩

def chain (cache : ArchiveHashCache) (chainId : Bytes) : Option (List Bytes) :=
  cache.chains.bind fun chains => chains.lookup chainId

def hasChain (cache : ArchiveHashCache) (chainId : Bytes) : Bool := (cache.chain chainId).isSome

def contains (cache : ArchiveHashCache) (chainId hash : Bytes) : Bool :=
  match cache.chain chainId with
  | none => false
  | some hashes => hashes.contains hash

def add (cache : ArchiveHashCache) (chainId hash : Bytes) : ArchiveHashCache :=
  ⟨cache.chains.map fun chains =>
    chains.insert chainId (hash :: (chains.lookup chainId).getD [])⟩

/-- A bounded cache may drop an entry at any time. -/
def evict (cache : ArchiveHashCache) (chainId hash : Bytes) : ArchiveHashCache :=
  ⟨cache.chains.map fun chains =>
    match chains.lookup chainId with
    | none => chains
    | some hashes => chains.insert chainId (hashes.filter (· ≠ hash))⟩

end ArchiveHashCache

def newArchiveHashCache (size : Int) : ArchiveHashCache := if size ≤ 0 then ⟨none⟩ else .empty

/-- What a request context computes at most once. -/
structure Memo where
  blockContext : Option BlockContext
  blockContextDone : Bool
  responseErrorKey : Option Bool
deriving DecidableEq, Repr

def Memo.fresh : Memo := ⟨none, false, none⟩

/-- A request context once the chain is known. -/
structure RoutedContext extends RequestContext where
  chainId : Bytes
  native : Bool
  memo : Memo
deriving DecidableEq, Repr

structure Response where
  status : Int
  body : Bytes
deriving DecidableEq, Repr

/-- The calls of `chooseTargetNode` in `ServeHTTP`. -/
inductive Stage where
  | first
  | fallback
  | archive
  | native
deriving DecidableEq, Repr

/-- A request and everything around it: the answer of a pre-processor if one answers, the
selector's state at each choice of a node, and what the node of each stage responds. -/
structure Encounter where
  nodeType : Bytes
  body : Option Bytes
  chainID : Bytes
  overrides : Assoc Bytes Bytes
  preprocessed : Option Response
  selector : Stage → Selector
  upstream : Stage → Response

/-- A request sent to a node, with the archive flag at that moment and the response as the rest
of `ServeHTTP` sees it. -/
structure Attempt where
  node : Node
  archive : Bool
  response : Response
deriving DecidableEq, Repr

/-- How a request went: whether the cache diverted it, what was sent where, the response (or the
fault that ended it), and the cache afterwards. -/
structure Visit where
  diverted : Bool
  attempts : List Attempt
  response : Checked Response
  cache : ArchiveHashCache

/-- What the balancer gets from `sonic` and from the parser of block contexts. -/
structure Balancer where
  sonic : Sonic
  /-- The error code in a single response, and those in a batch; `none` for a decoding error. -/
  errorCode : Bytes → Option (Option Int)
  errorCodes : Bytes → Option (List (Option Int))
  marshalResponse : ResponseObject → Bytes
  parseBlockContext : List (Option RequestObject) → Option BlockContext

/-- The block hash a context is pinned to. -/
def pinnedHash (blockContext : Option BlockContext) : Option Bytes :=
  match blockContext with
  | none => none
  | some blockContext =>
    if blockContext.type ≠ ascii "Equals" then none else blockContext.blockId.bind BlockId.blockHash

def shouldRetryWithArchive (context : RoutedContext) (codes : List Int) : Bool :=
  !context.archive && codes.contains stateBlockNotFound

def shouldRetryWithNative (context : RoutedContext) (codes : List Int) : Bool :=
  !context.native && codes.contains cosmosPrecompile

namespace Balancer

variable (balancer : Balancer)

def getBlockContext (context : RoutedContext) : Option BlockContext × RoutedContext :=
  if context.memo.blockContext = none ∧ context.memo.blockContextDone = false then
    let blockContext := balancer.parseBlockContext context.requestBody
    (blockContext, { context with
      memo := { context.memo with blockContext := blockContext, blockContextDone := true } })
  else (context.memo.blockContext, context)

def requestBlockHash (context : RoutedContext) : Option Bytes × RoutedContext :=
  let (blockContext, context) := balancer.getBlockContext context
  (pinnedHash blockContext, context)

/-- A single request gets its own id back. The object is appended to the body the response has. -/
def writeError (held : Bytes) (requestBody : List (Option RequestObject)) (status : Int)
    (object : ResponseObject) : Response :=
  match requestBody with
  | [some request] =>
    ⟨status, held ++ balancer.marshalResponse { object with id := request.id.getD object.id }⟩
  | _ => ⟨status, held ++ balancer.marshalResponse object⟩

/-- The response has no body when a node is chosen. -/
def writeNoBackend (context : RoutedContext) (message : String) : Response :=
  balancer.writeError [] context.requestBody 200 (badGateway (ascii message))

def chooseTargetNode (selector : Selector) (context : RoutedContext) (requestKey : Bytes) :
    Checked (Option Node × RoutedContext) := do
  let (blockContext, context) := balancer.getBlockContext context
  let node ← getNode selector context.chainId context.method context.isBatch context.archive
    blockContext requestKey
  return (node, context)

def resetResponseErrorKey (context : RoutedContext) : RoutedContext :=
  { context with memo := { context.memo with responseErrorKey := none } }

/-- The response of a node, with the proxy's own error behind it for a timeout or a bad gateway. -/
def receive (requestBody : List (Option RequestObject)) (upstream : Response) : Response :=
  let response :=
    if upstream.status = 504 then
      balancer.writeError upstream.body requestBody 504
        (gatewayTimeout (ascii "reverse proxy gateway timeout"))
    else upstream
  if response.status = 502 then
    balancer.writeError response.body requestBody 502
      (badGateway (ascii "reverse proxy bad gateway"))
  else response

def attemptRequest (context : RoutedContext) (node : Node) (upstream : Response) :
    Attempt × RoutedContext :=
  let context := resetResponseErrorKey context
  (⟨node, context.archive, balancer.receive context.requestBody upstream⟩, context)

def cachedResponseContainsErrorKey (context : RoutedContext) (body : Bytes) : Bool × RoutedContext :=
  match context.memo.responseErrorKey with
  | some known => (known, context)
  | none =>
    let known := containsErrorKey body
    (known, { context with memo := { context.memo with responseErrorKey := some known } })

/-- The codes in a response that may carry some. -/
def decodeErrorCodes (trimmed : Bytes) : List Int :=
  if trimmed.head? = some 91 then
    match balancer.errorCodes trimmed with
    | none => []
    | some codes => codes.reduceOption
  else
    match balancer.errorCode trimmed with
    | none => []
    | some code => code.toList

def parseRPCErrorCodes (context : RoutedContext) (body : Bytes) : List Int × RoutedContext :=
  let trimmed := trimSpace body
  if trimmed = [] then ([], context)
  else
    let (present, context) := cachedResponseContainsErrorKey context trimmed
    if !present then ([], context) else (balancer.decodeErrorCodes trimmed, context)

def routeCachedArchiveHash (cache : ArchiveHashCache) (context : RoutedContext) :
    Bool × RoutedContext :=
  if context.archive || context.native || context.isBatch then (false, context)
  else if !cache.hasChain context.chainId then (false, context)
  else
    let (hash, context) := balancer.requestBlockHash context
    match hash with
    | none => (false, context)
    | some hash =>
      if !cache.contains context.chainId hash then (false, context)
      else (true, { context with archive := true })

def rememberArchiveHash (cache : ArchiveHashCache) (context : RoutedContext) (status : Int)
    (codes : List Int) : ArchiveHashCache × RoutedContext :=
  if cache.chains.isNone || context.isBatch then (cache, context)
  else if status ≠ 200 || codes.contains stateBlockNotFound || codes.contains invalidBlockID then
    (cache, context)
  else
    let (hash, context) := balancer.requestBlockHash context
    match hash with
    | none => (cache, context)
    | some hash => (cache.add context.chainId hash, context)

/-- The last stage: a node that runs Cosmos precompiles. -/
def retryWithNative (encounter : Encounter) (context : RoutedContext) (codes : List Int)
    (visit : Visit) : Visit :=
  if shouldRetryWithNative context codes then
    let context := { resetResponseErrorKey context with native := true }
    match balancer.chooseTargetNode (encounter.selector .native) context (ascii "native") with
    | .error fault => { visit with response := .error fault }
    | .ok (none, context) =>
      { visit with response := .ok (balancer.writeNoBackend context "no native backends available") }
    | .ok (some node, context) =>
      let (attempt, _) := balancer.attemptRequest context node (encounter.upstream .native)
      { visit with attempts := visit.attempts ++ [attempt], response := .ok attempt.response }
  else visit

/-- The second stage: an archive node, whose answer may be remembered. -/
def retryWithArchive (encounter : Encounter) (context : RoutedContext) (visit : Visit) : Visit :=
  let context := { resetResponseErrorKey context with archive := true }
  match balancer.chooseTargetNode (encounter.selector .archive) context [] with
  | .error fault => { visit with response := .error fault }
  | .ok (none, context) =>
    { visit with response := .ok (balancer.writeNoBackend context "no backends available") }
  | .ok (some node, context) =>
    let (attempt, context) := balancer.attemptRequest context node (encounter.upstream .archive)
    let (codes, context) := balancer.parseRPCErrorCodes context attempt.response.body
    let (cache, context) :=
      balancer.rememberArchiveHash visit.cache context attempt.response.status codes
    balancer.retryWithNative encounter context codes
      { visit with
        attempts := visit.attempts ++ [attempt], response := .ok attempt.response, cache }

/-- The first node. Where the cache asked for archive and there is none, the request takes the
normal path. -/
def chooseFirstNode (encounter : Encounter) (cachedArchive : Bool) (context : RoutedContext) :
    Checked (Option Node × RoutedContext) := do
  let (node, context) ← balancer.chooseTargetNode (encounter.selector .first) context []
  if node.isNone && cachedArchive then
    balancer.chooseTargetNode (encounter.selector .fallback) { context with archive := false } []
  else return (node, context)

/-- `ServeHTTP` from the choice of the first node on. -/
def route (cache : ArchiveHashCache) (encounter : Encounter) (context : RoutedContext) : Visit :=
  let (cachedArchive, context) := balancer.routeCachedArchiveHash cache context
  match balancer.chooseFirstNode encounter cachedArchive context with
  | .error fault => ⟨cachedArchive, [], .error fault, cache⟩
  | .ok (none, context) =>
    ⟨cachedArchive, [], .ok (balancer.writeNoBackend context "no backends available"), cache⟩
  | .ok (some node, context) =>
    let context := if node.nodeType = nodeTypeArchive then { context with archive := true } else context
    let (attempt, context) := balancer.attemptRequest context node (encounter.upstream .first)
    let (codes, context) := balancer.parseRPCErrorCodes context attempt.response.body
    let visit : Visit := ⟨cachedArchive, [attempt], .ok attempt.response, cache⟩
    if shouldRetryWithArchive context codes then balancer.retryWithArchive encounter context visit
    else balancer.retryWithNative encounter context codes visit

def serveHTTP (cache : ArchiveHashCache) (encounter : Encounter) : Visit :=
  match generateRequestContext balancer.sonic encounter.nodeType encounter.body with
  | .error fault => ⟨false, [], .error fault, cache⟩
  | .ok request =>
    match request.error with
    | some error =>
      ⟨false, [], .ok (balancer.writeError [] request.requestBody 200
        (badRequest error.error)), cache⟩
    | none =>
      match effectiveChainID encounter.overrides encounter.chainID with
      | none =>
        ⟨false, [], .ok (balancer.writeError [] request.requestBody 200
          (badRequest (ascii "invalid chain id"))), cache⟩
      | some chainId =>
        match encounter.preprocessed with
        | some response => ⟨false, [], .ok response, cache⟩
        | none =>
          balancer.route cache encounter
            { request with chainId := chainId, native := false, memo := .fresh }

end Balancer

end NodexProxy.Lb
