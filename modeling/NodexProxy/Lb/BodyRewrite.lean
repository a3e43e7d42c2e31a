import NodexProxy.Foundation.Stateful
import NodexProxy.Jsonrpc.Views
import NodexProxy.Lb.Accounting
import NodexProxy.Lb.BlockDecode
import NodexProxy.Lb.MirrorCopies

/-! `ServeHTTP` over memory. The parsed requests are views of the request body or copies, and are
read each time their fields are used: by the processors, by the parser of block contexts, which
runs only when a selector asks for it, and by every error the proxy writes. -/

namespace NodexProxy.Lb

open NodexProxy.Foundation NodexProxy.Discovery NodexProxy.Jsonrpc

/-- A request under way. `written` is the object of the response where the proxy wrote it, with
the id read at that moment, `held` the body it was written behind, and `evaluated` what
`GetBlockContext` returned each time. -/
structure Live where
  exchange : Exchange
  requests : List (Option RequestView)
  archive : Bool
  native : Bool
  isBatch : Bool
  method : Bytes
  chainId : Bytes
  targetNodeAddr : Bytes
  memo : Memo
  cache : ArchiveHashCache
  diverted : Bool
  attempts : List Attempt
  written : Option ResponseObject
  held : Bytes
  evaluated : List (Option BlockContext)

abbrev Serving := Stateful Live

namespace Live

/-- What `RequestBody` shows at the moment. -/
def requestBody (live : Live) : List (Option RequestObject) :=
  Views.readRequests live.exchange.arrays live.requests

/-- The request context of the moment. -/
def load (live : Live) : RoutedContext where
  archive := live.archive
  method := live.method
  isBatch := live.isBatch
  requestBody := live.requestBody
  error := none
  responseBody := none
  chainId := live.chainId
  native := live.native
  memo := live.memo

/-- The response, which is not one the proxy wrote. -/
def respond (live : Live) (response : Response) : Live :=
  { live with exchange := { live.exchange with response }, written := none }

def resetResponseErrorKey (live : Live) : Live :=
  { live with memo := { live.memo with responseErrorKey := none } }

/-- Code that reads the context of the moment and changes only what is memoised. -/
def remember (change : RoutedContext → Value × RoutedContext) (live : Live) : Value × Live :=
  let (value, context) := change live.load
  (value, { live with memo := context.memo })

section Balancer

variable (balancer : Balancer)

/-- `WriteError`: the object is marshalled with the id its request shows now, and appended. -/
def writeError (status : Int) (object : ResponseObject) : Serving Unit :=
  modify fun live =>
    let held := live.exchange.response.body
    let written := echoID live.requestBody object
    { live.respond ⟨status, held ++ balancer.marshalResponse written⟩ with
      written := some written, held }

def getBlockContext : Serving (Option BlockContext) :=
  modifyGet fun live =>
    let (blockContext, live) := live.remember balancer.getBlockContext
    (blockContext, { live with evaluated := live.evaluated ++ [blockContext] })

def requestBlockHash : Serving (Option Bytes) := do
  let blockContext ← getBlockContext balancer
  return pinnedHash blockContext

def setTargetNode (addr : Bytes) : Serving Unit :=
  modify fun live => { live with targetNodeAddr := addr }

def clearTargetNode : Serving Unit := setTargetNode []

def chooseTargetNode (selector : Selector) (requestKey : Bytes) : Serving (Option Node) := do
  clearTargetNode
  let blockContext ← getBlockContext balancer
  let live ← get
  match ← getNode selector live.chainId live.method live.isBatch live.archive blockContext
    requestKey with
  | none => return none
  | some node =>
    setTargetNode node.addr
    return some node

def writeNoBackend (message : String) : Serving Unit :=
  writeError balancer 200 (badGateway (ascii message))

/-- The proxy's own error behind a response with this status. -/
def overwrite (status : Int) (object : ResponseObject) : Serving Unit := do
  let live ← get
  if live.exchange.response.status = status then writeError balancer status object else return ()

/-- The reverse proxy reads the request body and fills the response. -/
def attemptRequest (node : Node) (upstream : Response) : Serving Unit := do
  modify resetResponseErrorKey
  modify fun live => live.respond upstream
  overwrite balancer 504 (gatewayTimeout (ascii "reverse proxy gateway timeout"))
  overwrite balancer 502 (badGateway (ascii "reverse proxy bad gateway"))
  modify fun live =>
    { live with attempts := live.attempts ++ [⟨node, live.archive, live.exchange.response⟩] }

def parseRPCErrorCodes : Serving (List Int) :=
  modifyGet fun live =>
    live.remember fun context => balancer.parseRPCErrorCodes context live.exchange.response.body

def routeCachedArchiveHash : Serving Bool := do
  let live ← get
  if live.archive || live.native || live.isBatch then return false
  else if !live.cache.hasChain live.chainId then return false
  else
    match ← requestBlockHash balancer with
    | none => return false
    | some hash =>
      if !live.cache.contains live.chainId hash then return false
      else
        modify fun live => { live with archive := true }
        return true

def rememberArchiveHash (codes : List Int) : Serving Unit := do
  let live ← get
  if live.cache.chains.isNone || live.isBatch then return ()
  else if live.exchange.response.status ≠ 200 || codes.contains stateBlockNotFound ||
      codes.contains invalidBlockID then return ()
  else
    match ← requestBlockHash balancer with
    | none => return ()
    | some hash => modify fun live => { live with cache := live.cache.add live.chainId hash }

def resetResponse : Serving Unit :=
  modify fun live => live.resetResponseErrorKey.respond ⟨200, []⟩

variable (arrival : Arrival)

def retryWithNative (codes : List Int) : Serving Unit := do
  let live ← get
  if shouldRetryWithNative live.load codes then
    resetResponse
    modify fun live => { live with native := true }
    match ← chooseTargetNode balancer (arrival.selector .native) (ascii "native") with
    | none => writeNoBackend balancer "no native backends available"
    | some node => attemptRequest balancer node (arrival.upstream .native)
  else return ()

def retryWithArchive : Serving Unit := do
  resetResponse
  modify fun live => { live with archive := true }
  match ← chooseTargetNode balancer (arrival.selector .archive) [] with
  | none => writeNoBackend balancer "no backends available"
  | some node =>
    attemptRequest balancer node (arrival.upstream .archive)
    let codes ← parseRPCErrorCodes balancer
    rememberArchiveHash balancer codes
    retryWithNative balancer arrival codes

def chooseFirstNode (cachedArchive : Bool) : Serving (Option Node) := do
  let node ← chooseTargetNode balancer (arrival.selector .first) []
  if node.isNone && cachedArchive then
    modify fun live => { live with archive := false }
    chooseTargetNode balancer (arrival.selector .fallback) []
  else return node

/-- `ServeHTTP` from the choice of the first node on. -/
def route : Serving Unit := do
  let cachedArchive ← routeCachedArchiveHash balancer
  modify fun live => { live with diverted := cachedArchive }
  match ← chooseFirstNode balancer arrival cachedArchive with
  | none => writeNoBackend balancer "no backends available"
  | some node =>
    modify fun live => if node.nodeType = nodeTypeArchive then { live with archive := true } else live
    attemptRequest balancer node (arrival.upstream .first)
    let codes ← parseRPCErrorCodes balancer
    let live ← get
    if shouldRetryWithArchive live.load codes then retryWithArchive balancer arrival
    else retryWithNative balancer arrival codes

end Balancer

section Processors

variable (proxy : Proxy)

/-- A processor that leaves the requests and the memory they are in alone. -/
def lift (processor : Processor) : Serving Unit := fun live => do
  let exchange ← processor live.load live.exchange
  return ((), { live with exchange })

/-- `ErrorResponse` and `WriteError`. -/
def answer (status : Int) (object : ErrorObject) : Serving Unit := do
  modify fun live => { live with exchange := { live.exchange with error := some object } }
  writeError proxy.balancer status (errorResponse object)

def jRPCMethodDenied : Serving Unit := do
  let live ← get
  let denied ← anyDenied (proxy.methodDenied.getD []) live.requestBody
  if denied then answer proxy 400 methodNotAllowed else return ()

/-- The requests get fields of their own, and the body is written over the old one. -/
def rewrite (payload : Bytes) : Serving Unit :=
  modify fun live =>
    let (requests, arrays) := Views.ownRequests live.exchange.arrays live.requests
    { live with requests, exchange := { live.exchange with arrays }.setBody payload }

def getLatestBlock (heights : Heights) : Serving Unit := do
  let live ← get
  if live.method ≠ ascii "getLatestBlock" then return ()
  else
    match heights.getHeight live.chainId with
    | some height =>
      let id ← Proxy.payloadID live.requestBody
      match proxy.marshalPayload height id with
      | none => answer proxy 500 ⟨-32603, ascii "Failed to marshal new request body", []⟩
      | some payload => rewrite payload
    | none => answer proxy 200 ⟨-32602, ascii "invalid params", []⟩

/-- `GetPreProcessorHertz`. -/
def getPreProcessor (arrival : Arrival) : List (Option (Serving Unit)) :=
  [some (jRPCMethodDenied proxy), some (lift Proxy.updatePreprocessorMetrics),
    some (getLatestBlock proxy arrival.heights),
    if proxy.mirrorEnable then some (lift (Proxy.requestMirror arrival.mirroring arrival.tokens))
    else none]

/-- `PreProcessorProcessorsHertz.Call`. -/
def callProcessors : List (Option (Serving Unit)) → Serving Unit
  | [] => return ()
  | processor :: processors => do
    processor.getD (return ())
    let live ← get
    if live.exchange.response.body ≠ [] then return () else callProcessors processors

/-- `ServeHTTP` once the request is parsed and validated. -/
def serve (arrival : Arrival) (error : Option IntakeError) : Serving Unit :=
  match error with
  | some error => writeError proxy.balancer 200 (badRequest error.error)
  | none =>
    match effectiveChainID arrival.overrides arrival.chainID with
    | none => writeError proxy.balancer 200 (badRequest (ascii "invalid chain id"))
    | some chainId => do
      modify fun live => { live with chainId }
      callProcessors (getPreProcessor proxy arrival)
      let live ← get
      if live.exchange.response.body ≠ [] then return () else route proxy.balancer arrival

/-- The request context `generateRequestContext` leaves. -/
def start (cache : ArchiveHashCache) (arrival : Arrival) (arrays : List Bytes)
    (requests : List (Option RequestView)) (context : RequestContext) : Live where
  exchange := { arrival.exchange with arrays }
  requests := requests
  archive := context.archive
  native := false
  isBatch := context.isBatch
  method := context.method
  chainId := []
  targetNodeAddr := []
  memo := .fresh
  cache := cache
  diverted := false
  attempts := []
  written := none
  held := []
  evaluated := []

/-- `ServeHTTP`: the request where it ends. -/
def serveHTTP (cache : ArchiveHashCache) (arrival : Arrival) : Checked Live := do
  let body := if arrival.readable then some arrival.body else none
  let (parsed, arrays) ← Views.parseRequest proxy.balancer.sonic arrival.arrays body
  let context ← (beforeProcess arrival.nodeType).accept (parsed.map (Views.readRequests arrays))
  let requests := parsed.toOption.getD []
  let (_, live) ← (serve proxy arrival context.error).run
    (start cache arrival arrays requests context)
  return live

end Processors

end Live

/-- Nothing is evaluated yet, or what was evaluated is this context. -/
def Memo.Sound (context : Option BlockContext) (memo : Memo) : Prop :=
  (memo.blockContext = none ∧ memo.blockContextDone = false) ∨ memo.blockContext = context

theorem Balancer.getBlockContext_sound (balancer : Balancer) {context : RoutedContext}
    (sound : context.memo.Sound (balancer.parseBlockContext context.requestBody)) :
    (balancer.getBlockContext context).1 = balancer.parseBlockContext context.requestBody ∧
      (balancer.getBlockContext context).2.memo.Sound
        (balancer.parseBlockContext context.requestBody) := by
  unfold getBlockContext
  split_ifs with fresh
  · exact ⟨rfl, .inr rfl⟩
  · exact ⟨sound.resolve_left fresh, sound⟩

theorem Balancer.parseRPCErrorCodes_sound (balancer : Balancer) {context : RoutedContext}
    (body : Bytes) (sound : context.memo.Sound expected) :
    (balancer.parseRPCErrorCodes context body).2.memo.Sound expected := by
  unfold parseRPCErrorCodes cachedResponseContainsErrorKey
  dsimp only
  split_ifs
  · exact sound
  all_goals cases context.memo.responseErrorKey <;> exact sound

namespace Live

/-- The requests show what was parsed, and so did everything that was read of them. -/
structure Faithful (balancer : Balancer) (requests : List (Option RequestObject)) (live : Live) :
    Prop where
  shows : live.requestBody = requests
  held : Views.RequestsHeld live.exchange.arrays live.requests
  inside : live.exchange.body.array < live.exchange.arrays.length
  memo : live.memo.Sound (balancer.parseBlockContext requests)
  evaluated : ∀ context ∈ live.evaluated, context = balancer.parseBlockContext requests
  written : ∀ object, live.written = some object →
    live.exchange.response.body = live.held ++ balancer.marshalResponse object ∧
      ∃ plain, object = echoID requests plain

section Keeps

variable {balancer : Balancer} {requests : List (Option RequestObject)}

theorem Faithful.respond {live : Live} (faithful : live.Faithful balancer requests)
    (response : Response) : (live.respond response).Faithful balancer requests :=
  { faithful with written := fun _ same => by cases same }

theorem writeError_keeps (status : Int) (object : ResponseObject) :
    Keeps (Faithful balancer requests) (writeError balancer status object) := by
  refine .modify fun live faithful => { faithful.respond _ with written := ?_ }
  intro written same
  cases same
  exact ⟨rfl, object, by rw [faithful.shows]⟩

theorem getBlockContext_keeps : Keeps (Faithful balancer requests) (getBlockContext balancer) := by
  refine .modifyGet fun live faithful => ?_
  have shows : live.load.requestBody = requests := faithful.shows
  have sound := @Balancer.getBlockContext_sound balancer live.load
  rw [shows] at sound
  obtain ⟨value, memo⟩ := sound faithful.memo
  refine { faithful with memo := memo, evaluated := ?_ }
  intro context listed
  rcases List.mem_append.mp listed with earlier | now
  · exact faithful.evaluated context earlier
  · rw [List.mem_singleton.mp now]
    exact value

theorem requestBlockHash_keeps : Keeps (Faithful balancer requests) (requestBlockHash balancer) :=
  .bind getBlockContext_keeps fun _ => .pure _

theorem setTargetNode_keeps (addr : Bytes) :
    Keeps (Faithful balancer requests) (setTargetNode addr) :=
  .modify fun _ faithful => { faithful with }

theorem chooseTargetNode_keeps (selector : Selector) (requestKey : Bytes) :
    Keeps (Faithful balancer requests) (chooseTargetNode balancer selector requestKey) := by
  refine .bind (setTargetNode_keeps []) fun _ => .bind getBlockContext_keeps fun _ => ?_
  refine .bind .get fun live => .bind (.lift _) fun node => ?_
  cases node with
  | none => exact .pure _
  | some node => exact .bind (setTargetNode_keeps node.addr) fun _ => .pure _

theorem overwrite_keeps (status : Int) (object : ResponseObject) :
    Keeps (Faithful balancer requests) (overwrite balancer status object) :=
  .bind .get fun _ => .ite (writeError_keeps status object) (.pure _)

theorem attemptRequest_keeps (node : Node) (upstream : Response) :
    Keeps (Faithful balancer requests) (attemptRequest balancer node upstream) := by
  refine .bind (.modify fun live faithful => { faithful with }) fun _ => ?_
  refine .bind (.modify fun live faithful => faithful.respond upstream) fun _ => ?_
  refine .bind (overwrite_keeps _ _) fun _ => .bind (overwrite_keeps _ _) fun _ => ?_
  exact .modify fun live faithful => { faithful with }

theorem parseRPCErrorCodes_keeps :
    Keeps (Faithful balancer requests) (parseRPCErrorCodes balancer) :=
  .modifyGet fun _ faithful =>
    { faithful with memo := balancer.parseRPCErrorCodes_sound _ faithful.memo }

theorem routeCachedArchiveHash_keeps :
    Keeps (Faithful balancer requests) (routeCachedArchiveHash balancer) := by
  refine .bind .get fun live => .ite (.pure _) (.ite (.pure _) ?_)
  refine .bind requestBlockHash_keeps fun hash => ?_
  cases hash with
  | none => exact .pure _
  | some hash =>
    refine .ite (.pure _) ?_
    exact .bind (.modify fun live faithful => { faithful with }) fun _ => .pure _

theorem rememberArchiveHash_keeps (codes : List Int) :
    Keeps (Faithful balancer requests) (rememberArchiveHash balancer codes) := by
  refine .bind .get fun live => .ite (.pure _) (.ite (.pure _) ?_)
  refine .bind requestBlockHash_keeps fun hash => ?_
  cases hash with
  | none => exact .pure _
  | some hash => exact .modify fun live faithful => { faithful with }

theorem resetResponse_keeps : Keeps (Faithful balancer requests) resetResponse :=
  .modify fun _ faithful => { faithful with written := fun _ same => by cases same }

theorem retryWithNative_keeps (arrival : Arrival) (codes : List Int) :
    Keeps (Faithful balancer requests) (retryWithNative balancer arrival codes) := by
  refine .bind .get fun live => .ite ?_ (.pure _)
  refine .bind resetResponse_keeps fun _ => ?_
  refine .bind (.modify fun live faithful => { faithful with }) fun _ => ?_
  refine .bind (chooseTargetNode_keeps _ _) fun node => ?_
  cases node with
  | none => exact writeError_keeps _ _
  | some node => exact attemptRequest_keeps node _

theorem retryWithArchive_keeps (arrival : Arrival) :
    Keeps (Faithful balancer requests) (retryWithArchive balancer arrival) := by
  refine .bind resetResponse_keeps fun _ => ?_
  refine .bind (.modify fun live faithful => { faithful with }) fun _ => ?_
  refine .bind (chooseTargetNode_keeps _ _) fun node => ?_
  cases node with
  | none => exact writeError_keeps _ _
  | some node =>
    refine .bind (attemptRequest_keeps node _) fun _ => ?_
    refine .bind parseRPCErrorCodes_keeps fun codes => ?_
    exact .bind (rememberArchiveHash_keeps codes) fun _ => retryWithNative_keeps arrival codes

theorem chooseFirstNode_keeps (arrival : Arrival) (cachedArchive : Bool) :
    Keeps (Faithful balancer requests) (chooseFirstNode balancer arrival cachedArchive) := by
  refine .bind (chooseTargetNode_keeps _ _) fun node => .ite ?_ (.pure _)
  refine .bind (.modify fun live faithful => { faithful with }) fun _ => ?_
  exact chooseTargetNode_keeps _ _

theorem route_keeps (arrival : Arrival) :
    Keeps (Faithful balancer requests) (route balancer arrival) := by
  refine .bind routeCachedArchiveHash_keeps fun cachedArchive => ?_
  refine .bind (.modify fun live faithful => { faithful with }) fun _ => ?_
  refine .bind (chooseFirstNode_keeps arrival cachedArchive) fun node => ?_
  cases node with
  | none => exact writeError_keeps _ _
  | some node =>
    refine .bind (.modify fun live faithful => ?_) fun _ => ?_
    · split_ifs
      · exact { faithful with }
      · exact faithful
    refine .bind (attemptRequest_keeps node _) fun _ => ?_
    refine .bind parseRPCErrorCodes_keeps fun codes => .bind .get fun live => ?_
    exact .ite (retryWithArchive_keeps arrival) (retryWithNative_keeps arrival codes)

end Keeps

section Processors

variable {proxy : Proxy} {requests : List (Option RequestObject)}

theorem lift_keeps {processor : Processor}
    (frame : ∀ context exchange after, processor context exchange = .ok after →
      after.arrays = exchange.arrays ∧ after.body = exchange.body ∧
        after.response = exchange.response) :
    Keeps (Faithful proxy.balancer requests) (lift processor) := by
  intro live value after faithful ran
  obtain ⟨exchange, processed, ran⟩ := Checked.of_bind_ok ran
  cases ran
  obtain ⟨arrays, body, response⟩ := frame _ _ _ processed
  refine { faithful with shows := ?_, held := ?_, inside := ?_, written := ?_ }
  · rw [requestBody, arrays]
    exact faithful.shows
  · rw [arrays]
    exact faithful.held
  · rw [arrays, body]
    exact faithful.inside
  · rw [response]
    exact faithful.written

theorem answer_keeps (status : Int) (object : ErrorObject) :
    Keeps (Faithful proxy.balancer requests) (answer proxy status object) :=
  .bind (.modify fun _ faithful => { faithful with }) fun _ => writeError_keeps _ _

theorem jRPCMethodDenied_keeps :
    Keeps (Faithful proxy.balancer requests) (jRPCMethodDenied proxy) := by
  refine .bind .get fun live => .bind (.lift _) fun denied => ?_
  exact .ite (answer_keeps _ _) (.pure _)

/-- The requests are copied before the body is written, so they show what they showed. -/
theorem rewrite_keeps (payload : Bytes) :
    Keeps (Faithful proxy.balancer requests) (rewrite payload) := by
  refine .modify fun live faithful => ?_
  obtain ⟨grows, fresh⟩ := Views.copyRequests_fresh live.exchange.arrays live.requestBody
  have shows := Views.ShowsAll.refill faithful.inside fresh payload
  rw [requestBody, ← Views.ownRequests_eq faithful.held] at grows shows
  have inside := Slice.refill_inside (faithful.inside.trans_le grows.length_le) payload
  exact { faithful with
    shows := shows.reads.trans faithful.shows
    held := shows.held
    inside := inside }

theorem getLatestBlock_keeps (heights : Heights) :
    Keeps (Faithful proxy.balancer requests) (getLatestBlock proxy heights) := by
  refine .bind .get fun live => .ite (.pure _) ?_
  cases heights.getHeight live.chainId with
  | none => exact answer_keeps _ _
  | some height =>
    refine .bind (.lift _) fun id => ?_
    cases proxy.marshalPayload height id with
    | none => exact answer_keeps _ _
    | some payload => exact rewrite_keeps payload

theorem requestMirror_keeps (mirroring : Mirroring) (tokens : Nat → Bool) :
    Keeps (Faithful proxy.balancer requests) (lift (Proxy.requestMirror mirroring tokens)) := by
  refine lift_keeps fun context exchange after returned => ?_
  rcases Proxy.requestMirror_cases returned with rfl | ⟨-, mirrored, rfl⟩
  · exact ⟨rfl, rfl, rfl⟩
  · exact ⟨rfl, rfl, rfl⟩

theorem updatePreprocessorMetrics_keeps :
    Keeps (Faithful proxy.balancer requests) (lift Proxy.updatePreprocessorMetrics) := by
  refine lift_keeps fun context exchange after returned => ?_
  cases returned
  exact ⟨rfl, rfl, rfl⟩

theorem callProcessors_keeps {processors : List (Option (Serving Unit))}
    (all : ∀ processor, some processor ∈ processors →
      Keeps (Faithful proxy.balancer requests) processor) :
    Keeps (Faithful proxy.balancer requests) (callProcessors processors) := by
  induction processors with
  | nil => exact .pure _
  | cons processor processors inductionHypothesis =>
    have rest := inductionHypothesis fun other listed => all other (List.mem_cons_of_mem _ listed)
    have first : Keeps (Faithful proxy.balancer requests) (processor.getD (return ())) := by
      cases processor with
      | none => exact .pure _
      | some processor => exact all processor (List.mem_cons_self ..)
    exact .bind first fun _ => .bind .get fun live => .ite (.pure _) rest

theorem getPreProcessor_keeps (arrival : Arrival) :
    ∀ processor, some processor ∈ getPreProcessor proxy arrival →
      Keeps (Faithful proxy.balancer requests) processor := by
  intro processor listed
  simp only [getPreProcessor, List.mem_cons, List.not_mem_nil, or_false, Option.some.injEq] at listed
  rcases listed with rfl | rfl | rfl | mirror
  · exact jRPCMethodDenied_keeps
  · exact updatePreprocessorMetrics_keeps
  · exact getLatestBlock_keeps arrival.heights
  · split at mirror
    · cases mirror
      exact requestMirror_keeps arrival.mirroring arrival.tokens
    · cases mirror

/-- Whatever way `ServeHTTP` takes, the requests keep showing what was parsed. -/
theorem serve_keeps (arrival : Arrival) (error : Option IntakeError) :
    Keeps (Faithful proxy.balancer requests) (serve proxy arrival error) := by
  unfold serve
  cases error with
  | some error => exact writeError_keeps _ _
  | none =>
    cases effectiveChainID arrival.overrides arrival.chainID with
    | none => exact writeError_keeps _ _
    | some chainId =>
      refine .bind (.modify fun live faithful => { faithful with }) fun _ => ?_
      refine .bind (callProcessors_keeps (getPreProcessor_keeps arrival)) fun _ => ?_
      exact .bind .get fun live => .ite (.pure _) (route_keeps arrival)

/-- The request is faithful to its body when it starts. -/
theorem start_faithful (cache : ArchiveHashCache) (arrival : Arrival)
    {requests : List (Option RequestView)} (grows : arrival.arrays <+: arrays)
    (held : Views.RequestsHeld arrays requests) (context : RequestContext) :
    (start cache arrival arrays requests context).Faithful proxy.balancer
      (Views.readRequests arrays requests) where
  shows := rfl
  held := held
  inside := arrival.within.array.trans_le grows.length_le
  memo := .inl ⟨rfl, rfl⟩
  evaluated _ listed := by cases listed
  written _ same := by cases same

/-- The requests are views of the client's body, or copies of what was decoded from it. -/
theorem parseRequest_shows (sonic : Sonic) (arrival : Arrival) :
    Checked.Related (Views.ShowsParsed arrival.arrays)
      (Views.parseRequest sonic arrival.arrays (if arrival.readable then some arrival.body else none))
      (Jsonrpc.parseRequest sonic arrival.received) := by
  have within : ∀ slice ∈ (if arrival.readable then some arrival.body else none),
      slice.Within arrival.arrays := by
    intro slice there
    split_ifs at there
    · cases there
      exact arrival.within
    · cases there
  have text : (if arrival.readable then some arrival.body else none).map
      (·.read arrival.arrays) = arrival.received := by
    rw [Arrival.received]
    split_ifs <;> rfl
  rw [← text]
  exact Views.parseRequest_shows sonic within

/-- The state `ServeHTTP` ends in is faithful to what `ParseRequest` gave for the client's body. -/
theorem serveHTTP_faithful {cache : ArchiveHashCache} {arrival : Arrival} {final : Live}
    (parsed : Jsonrpc.parseRequest proxy.balancer.sonic arrival.received = .ok (.ok requests))
    (ran : serveHTTP proxy cache arrival = .ok final) :
    final.Faithful proxy.balancer requests := by
  have shown := parseRequest_shows proxy.balancer.sonic arrival
  rw [parsed] at shown
  obtain ⟨⟨views, arrays⟩, returned, ran⟩ := Checked.of_bind_ok ran
  rw [returned] at shown
  cases shown with
  | ok shown =>
    obtain ⟨reads, grows, held⟩ := shown
    cases views with
    | error error => cases reads
    | ok views =>
      cases reads
      obtain ⟨context, -, ran⟩ := Checked.of_bind_ok ran
      obtain ⟨⟨_, last⟩, served, ran⟩ := Checked.of_bind_ok ran
      cases ran
      exact serve_keeps arrival _ _ _ _
        (start_faithful cache arrival grows (held views rfl) context) served

/-- A request for the latest block that names a block of its own. -/
def pinnedArrival : Arrival :=
  { Arrival.sample (ascii ("\x7b\"jsonrpc\":\"2.0\",\"method\":\"getLatestBlock\"," ++
      "\"params\":[\x7b\"block_id\":\"0x10\",\"type\":\"Equals\"\x7d],\"id\":7\x7d")) with
    heights := AList.insert (ascii "1") (some 42) ∅ }

def pinnedRequest : RequestObject where
  jsonrpc := ascii "2.0"
  method := ascii "getLatestBlock"
  params := some (ascii "[\x7b\"block_id\":\"0x10\",\"type\":\"Equals\"\x7d]")
  id := some (ascii "7")

def pinnedProxy : Proxy :=
  { Proxy.latestProxy with
    balancer := { Proxy.latestProxy.balancer with parseBlockContext := readBlockContext } }

/-- Whatever the proxy answers to a single request carries the id of that request, and the block
context is the one of the client's body whenever it is evaluated. -/
theorem serveHTTP_answers_its_request (proxy : Proxy) (cache : ArchiveHashCache)
    (arrival : Arrival) (request : RequestObject) (id : Bytes) (final : Live)
    (parsed : Jsonrpc.parseRequest proxy.balancer.sonic arrival.received = .ok (.ok [some request]))
    (named : request.id = some id) (ran : serveHTTP proxy cache arrival = .ok final) :
    (∀ object, final.written = some object →
      object.id = id ∧
        final.exchange.response.body = final.held ++ proxy.balancer.marshalResponse object) ∧
    (∀ context ∈ final.evaluated, context = proxy.balancer.parseBlockContext [some request]) ∧
    (proxy.balancer.getBlockContext final.load).1 =
      proxy.balancer.parseBlockContext [some request] := by
  have faithful := serveHTTP_faithful parsed ran
  refine ⟨?_, faithful.evaluated, ?_⟩
  · intro object written
    obtain ⟨body, plain, rfl⟩ := faithful.written object written
    exact ⟨by simp [echoID, named], body⟩
  · have shows : final.load.requestBody = [some request] := faithful.shows
    have sound := @Balancer.getBlockContext_sound proxy.balancer final.load
    rw [shows] at sound
    exact (sound faithful.memo).1

/-- The body is rewritten, and the answer that no node is there still has the id 7. -/
theorem serveHTTP_answers_pinned_request :
    ∃ final, serveHTTP pinnedProxy .empty pinnedArrival = .ok final ∧
      final.exchange.forwarded = payloadText requestKeys 42 (ascii "7") ∧
      final.written.map ResponseObject.id = some (ascii "7") ∧
      final.evaluated = [some ⟨some ⟨some 16, none⟩, ascii "Equals"⟩] := by
  have seen : (serveHTTP pinnedProxy .empty pinnedArrival).map (fun final =>
      (final.exchange.forwarded, final.written.isSome, final.evaluated.length)) =
        .ok (payloadText requestKeys 42 (ascii "7"), true, 1) := by
    decide +kernel
  have parsed : Jsonrpc.parseRequest pinnedProxy.balancer.sonic pinnedArrival.received =
      .ok (.ok [some pinnedRequest]) := by
    decide +kernel
  have context : pinnedProxy.balancer.parseBlockContext [some pinnedRequest] =
      some ⟨some ⟨some 16, none⟩, ascii "Equals"⟩ := by
    decide +kernel
  cases ran : serveHTTP pinnedProxy .empty pinnedArrival with
  | error fault =>
    rw [ran] at seen
    cases seen
  | ok final =>
    rw [ran] at seen
    simp only [Except.map, Except.ok.injEq, Prod.mk.injEq] at seen
    obtain ⟨forwarded, answered, once⟩ := seen
    obtain ⟨object, written⟩ := Option.isSome_iff_exists.mp answered
    obtain ⟨evaluated, only⟩ := List.length_eq_one_iff.mp once
    have answers := serveHTTP_answers_its_request pinnedProxy .empty pinnedArrival pinnedRequest
      (ascii "7") final parsed rfl ran
    rw [context] at answers
    refine ⟨final, rfl, forwarded, ?_, ?_⟩
    · rw [written, Option.map_some, (answers.1 object written).1]
    · rw [only, answers.2.1 evaluated (by simp [only])]

end Processors

end Live

end NodexProxy.Lb
