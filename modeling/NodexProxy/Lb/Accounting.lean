import NodexProxy.Lb.ErrorKeyMemo
import NodexProxy.Lb.Preprocess

/-! `ServeHTTP` with all it keeps between its stages: the error of the request context, the
response of the moment with its headers, and the post-processors that account for the request. -/

namespace NodexProxy.Lb

open NodexProxy.Foundation NodexProxy.Discovery NodexProxy.Jsonrpc

/-- A response with the headers the post-processors read. -/
structure Message extends Response where
  contentType : Bytes
  transferEncoding : Bytes
deriving DecidableEq, Repr

/-- What `Response.Reset` leaves. -/
def Message.reset : Message := ⟨⟨200, []⟩, [], []⟩

/-- `requestContext.Error`: an error object, an error the proxy made, or one of the decoder. -/
inductive Failure where
  | object (error : ErrorObject)
  | gateway (text : Bytes)
  | undecodable
deriving DecidableEq, Repr

/-- What came of a stage: a request sent to a node with the archive flag of the moment and the
response of the node, no node to send it to, or a fault in the choice of one. -/
inductive Trial where
  | attempt (stage : Stage) (node : Node) (archive : Bool) (upstream : Message)
  | noBackend (stage : Stage)
  | fault (stage : Stage) (fault : Fault)
deriving DecidableEq, Repr

/-- A request under way. `responseError` is the error in `ResponseBody`; `filtered` records each
result of the error key filter with the response body held at that moment. -/
structure Session where
  context : RoutedContext
  error : Option Failure
  responseError : Option ErrorObject
  message : Message
  cache : ArchiveHashCache
  diverted : Bool
  filtered : List (Bool × Bytes)
  trials : List Trial

inductive Account where
  | batchFinished
  | finished
  | failed (code : Int)
deriving DecidableEq, Repr

/-- The counter for a request, by the error of its context and the error in its response. -/
def countFor (isBatch : Bool) (error : Option Failure) (responseError : Option ErrorObject) : Account :=
  if isBatch then .batchFinished
  else
    match error with
    | none => .finished
    | some _ => .failed ((responseError.map ErrorObject.code).getD (-32604))

/-- A proxy with what it gets from `strings`, from `hertz` and from `sonic` for its responses.
`render` gives the body after an object is written over another body, `unmarshalError` the error
member of a response, or `none` for a decoding error. -/
structure Reporter where
  proxy : Proxy
  toLower : Bytes → Bytes
  render : Bytes → ResponseObject → Bytes
  unmarshalError : Bytes → Option (Option ErrorObject)

/-- `strings.Contains`. -/
def containsText (text part : Bytes) : Bool := (indexOf part text).isSome

def jsonContentType : Bytes := ascii "application/json; charset=utf-8"

/-- A single request gets its own id back. -/
def echoID (requestBody : List (Option RequestObject)) (object : ResponseObject) : ResponseObject :=
  match requestBody with
  | [some request] => { object with id := request.id.getD object.id }
  | _ => object

/-- The message of a stage; the headers are given beside the encounter. -/
def Encounter.message (encounter : Encounter) (headers : Stage → Bytes × Bytes) (stage : Stage) :
    Message :=
  ⟨encounter.upstream stage, (headers stage).1, (headers stage).2⟩

def Session.choose (session : Session) (context : RoutedContext) : Session :=
  { session with context }

/-- `resetResponse`. -/
def Session.resetResponse (session : Session) : Session :=
  { session with
    context := Balancer.resetResponseErrorKey session.context
    message := .reset }

/-- The response is dropped, and the request goes to archive nodes from now on. -/
def Session.forArchive (session : Session) : Session :=
  let session := session.resetResponse
  session.choose { session.context with archive := true }

/-- The response is dropped, and the request goes to native nodes from now on. -/
def Session.forNative (session : Session) : Session :=
  let session := session.resetResponse
  session.choose { session.context with native := true }

def Session.abort (session : Session) (stage : Stage) (fault : Fault) : Session :=
  { session with trials := session.trials ++ [.fault stage fault] }

/-- `CachedResponseContainsErrorKey`. -/
def Session.filter (session : Session) (body : Bytes) : Bool × Session :=
  let (present, context) := Balancer.cachedResponseContainsErrorKey session.context body
  (present, { session with
    context, filtered := session.filtered ++ [(present, session.message.body)] })

namespace Reporter

variable (reporter : Reporter)

def writeError (session : Session) (status : Int) (object : ResponseObject) : Session :=
  { session with
    message :=
      { status
        body := reporter.render session.message.body (echoID session.context.requestBody object)
        contentType := jsonContentType
        transferEncoding := session.message.transferEncoding } }

/-- Set the error and the response body of the context, and write them. -/
def fail (session : Session) (status : Int) (object : ResponseObject) (text : Bytes) : Session :=
  { reporter.writeError session status object with
    error := some (.gateway text)
    responseError := some object.error }

def writeNoBackend (session : Session) (stage : Stage) (text : Bytes) : Session :=
  let session := reporter.fail session 200 (badGateway text) text
  { session with trials := session.trials ++ [.noBackend stage] }

def attemptRequest (session : Session) (stage : Stage) (node : Node) (upstream : Message) : Session :=
  let session := { session with
    context := Balancer.resetResponseErrorKey session.context
    message := upstream }
  let session :=
    if session.message.status = 504 then
      reporter.fail session 504 (gatewayTimeout (ascii "reverse proxy gateway timeout"))
        (ascii "reverse proxy gateway timeout")
    else session
  let session :=
    if session.message.status = 502 then
      reporter.fail session 502 (badGateway (ascii "reverse proxy bad gateway"))
        (ascii "reverse proxy bad gateway")
    else session
  { session with
    trials := session.trials ++ [.attempt stage node session.context.archive upstream] }

def parseRPCErrorCodes (session : Session) : List Int × Session :=
  let trimmed := trimSpace session.message.body
  if trimmed = [] then ([], session)
  else
    let (present, session) := session.filter trimmed
    if !present then ([], session)
    else (reporter.proxy.balancer.decodeErrorCodes trimmed, session)

def rememberArchiveHash (session : Session) (codes : List Int) : Session :=
  let (cache, context) := reporter.proxy.balancer.rememberArchiveHash session.cache session.context
    session.message.status codes
  { session with cache, context }

variable (encounter : Encounter) (headers : Stage → Bytes × Bytes)

def retryWithNative (codes : List Int) (session : Session) : Session :=
  if shouldRetryWithNative session.context codes then
    let session := session.forNative
    match reporter.proxy.balancer.chooseTargetNode (encounter.selector .native) session.context
        (ascii "native") with
    | .error fault => session.abort .native fault
    | .ok (none, context) =>
      reporter.writeNoBackend (session.choose context) .native
        (ascii "no native backends available")
    | .ok (some node, context) =>
      reporter.attemptRequest (session.choose context) .native node
        (encounter.message headers .native)
  else session

def retryWithArchive (session : Session) : Session :=
  let session := session.forArchive
  match reporter.proxy.balancer.chooseTargetNode (encounter.selector .archive) session.context [] with
  | .error fault => session.abort .archive fault
  | .ok (none, context) =>
    reporter.writeNoBackend (session.choose context) .archive (ascii "no backends available")
  | .ok (some node, context) =>
    let session := reporter.attemptRequest (session.choose context) .archive node
      (encounter.message headers .archive)
    let (codes, session) := reporter.parseRPCErrorCodes session
    let session := reporter.rememberArchiveHash session codes
    reporter.retryWithNative encounter headers codes session

/-- `ServeHTTP` from the choice of the first node on. -/
def route (session : Session) : Session :=
  let (cachedArchive, context) :=
    reporter.proxy.balancer.routeCachedArchiveHash session.cache session.context
  let session := { session with diverted := cachedArchive }
  match reporter.proxy.balancer.chooseFirstNode encounter cachedArchive context with
  | .error fault => (session.choose context).abort .first fault
  | .ok (none, context) =>
    reporter.writeNoBackend (session.choose context) .first (ascii "no backends available")
  | .ok (some node, context) =>
    let context := if node.nodeType = nodeTypeArchive then { context with archive := true } else context
    let session := reporter.attemptRequest (session.choose context) .first node
      (encounter.message headers .first)
    let (codes, session) := reporter.parseRPCErrorCodes session
    if shouldRetryWithArchive session.context codes then
      reporter.retryWithArchive encounter headers session
    else reporter.retryWithNative encounter headers codes session

/-- Whether the headers announce a JSON body that is not chunked. -/
def announcesJSON (message : Message) : Bool :=
  containsText (reporter.toLower message.contentType) (ascii "application/json") &&
    !containsText (reporter.toLower message.transferEncoding) (ascii "chunked")

/-- The error in the context is replaced whenever the body is decoded. -/
def parseJRPCResponseBody (session : Session) : Session :=
  let body := session.message.body
  if body = [] then session
  else if !reporter.announcesJSON session.message then session
  else if isBatch body then session
  else
    let (present, session) := session.filter body
    if !present then session
    else
      match reporter.unmarshalError body with
      | none => { session with error := some .undecodable }
      | some responseError =>
        { session with responseError, error := responseError.map Failure.object }

/-- `updatePostProcessorMetricsHertz`, up to the counter it increments. -/
def updatePostProcessorMetrics (session : Session) : Account :=
  countFor session.context.isBatch session.error session.responseError

/-- The session after the pre-processors. -/
def start (cache : ArchiveHashCache) (context : RoutedContext) (exchange : Exchange) : Session where
  context := context
  error := exchange.error.map Failure.object
  responseError := none
  message :=
    { exchange.response with
      contentType := if exchange.response.body = [] then [] else jsonContentType
      transferEncoding := [] }
  cache := cache
  diverted := false
  filtered := []
  trials := []

/-- `ServeHTTP` with its processors: the session at its end and the counter that was incremented;
`none` where it answers before them. -/
def serveHTTP (cache : ArchiveHashCache) (arrival : Arrival) (headers : Stage → Bytes × Bytes) :
    Checked (Option (Session × Account)) := do
  let request ← generateRequestContext reporter.proxy.balancer.sonic arrival.nodeType arrival.received
  if request.error.isSome then return none
  else
    match effectiveChainID arrival.overrides arrival.chainID with
    | none => return none
    | some chainId =>
      let context := Proxy.routed request chainId
      let exchange ← callProcessors context (reporter.proxy.getPreProcessor arrival) arrival.exchange
      let session := start cache context exchange
      let session :=
        if exchange.response.body ≠ [] then session
        else reporter.route (arrival.encounter none) headers session
      let session := reporter.parseJRPCResponseBody session
      return some (session, updatePostProcessorMetrics session)

end Reporter

end NodexProxy.Lb
