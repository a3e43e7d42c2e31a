import NodexProxy.Foundation.Slices
import NodexProxy.Lb.Mirrors
import NodexProxy.Lb.Serve

/-! The pre-processors and the request they run on. The body stands in a buffer that a rewrite
fills again, and the raw body is a view of that buffer. -/

namespace NodexProxy.Lb

open NodexProxy.Foundation NodexProxy.Foundation.Json NodexProxy.Discovery NodexProxy.Jsonrpc

def Mirroring.getMirrorURLs (state : Mirroring) (chainId : Bytes) : List Bytes :=
  match state.mirrors.lookup chainId with
  | none => []
  | some targets => targets.entries.map fun entry => targetURL entry.2

/-- `Allow`; `token` says whether the limiter has one to give. -/
def Mirroring.allow (state : Mirroring) (chainId url : Bytes) (token : Bool) : Bool :=
  match state.limiters.lookup (limiterKey chainId url) with
  | none => true
  | some _ => token

/-- The height map. A chain may be there with a nil height. -/
abbrev Heights := Assoc Bytes (Option Int)

def Heights.getHeight (heights : Heights) (chainId : Bytes) : Option Int :=
  (heights.lookup chainId).join

def hexDigit (digit : Nat) : UInt8 := UInt8.ofNat (if digit < 10 then 48 + digit else 87 + digit)

def hexadecimal (number : Nat) : Bytes :=
  if number = 0 then ascii "0" else (Nat.digits 16 number).reverse.map hexDigit

/-- The text of a `hexutil.Big`. -/
def encodeBig (number : Int) : Bytes :=
  if number < 0 then ascii "-0x" ++ hexadecimal number.natAbs
  else ascii "0x" ++ hexadecimal number.natAbs

/-- What processors work on: the request body in its buffer, the view of it taken at parsing, the
response so far, the error of the request context, and what left for metrics and mirrors. -/
structure Exchange where
  arrays : List Bytes
  body : Slice
  rawRequestBody : Slice
  response : Response
  error : Option ErrorObject
  callsStarted : List Bytes
  copied : Option Bytes
  mirrored : List (Bytes × Bytes)
deriving DecidableEq, Repr

/-- The body that is sent upstream. -/
def Exchange.forwarded (exchange : Exchange) : Bytes := exchange.body.read exchange.arrays

/-- `SetBody`. -/
def Exchange.setBody (exchange : Exchange) (payload : Bytes) : Exchange :=
  { exchange with
    body := (exchange.body.refill exchange.arrays payload).1
    arrays := (exchange.body.refill exchange.arrays payload).2 }

theorem Exchange.forwarded_setBody (exchange : Exchange) (payload : Bytes) :
    (exchange.setBody payload).forwarded = payload := Slice.read_refill

abbrev Processor := RoutedContext → Exchange → Checked Exchange

/-- `PreProcessorProcessorsHertz.Call`: a processor that writes a response body ends the chain. -/
def callProcessors (context : RoutedContext) :
    List (Option Processor) → Exchange → Checked Exchange
  | [], exchange => return exchange
  | none :: processors, exchange =>
    if exchange.response.body ≠ [] then return exchange
    else callProcessors context processors exchange
  | some processor :: processors, exchange => do
    let exchange ← processor context exchange
    if exchange.response.body ≠ [] then return exchange
    else callProcessors context processors exchange

def methodNotAllowed : ErrorObject := ⟨-41003, ascii "method not allowed", []⟩

/-- The loop over the requests, up to the first denied one. -/
def anyDenied (denied : List Bytes) : List (Option RequestObject) → Checked Bool
  | [] => return false
  | request :: requests => do
    let request ← deref request
    if denied.contains request.method then return true else anyDenied denied requests

/-- A balancer with its configuration. A payload is marshalled from the height and the text of
the id. -/
structure Proxy where
  balancer : Balancer
  methodDenied : Option (List Bytes)
  mirrorEnable : Bool
  marshalPayload : Int → Bytes → Option Bytes

/-- A request as it comes in, and everything around it: the buffer its body is in, whether it
could be read, the heights and mirrors of the moment, and what an `Encounter` has. -/
structure Arrival where
  nodeType : Bytes
  arrays : List Bytes
  body : Slice
  within : body.Within arrays
  readable : Bool
  chainID : Bytes
  overrides : Assoc Bytes Bytes
  heights : Heights
  mirroring : Mirroring
  /-- Whether a limiter lets the mirror at this place in the list through. -/
  tokens : Nat → Bool
  selector : Stage → Selector
  upstream : Stage → Response

def Arrival.text (arrival : Arrival) : Bytes := arrival.body.read arrival.arrays

/-- What can be read of the body. -/
def Arrival.received (arrival : Arrival) : Option Bytes :=
  if arrival.readable then some arrival.text else none

def Arrival.encounter (arrival : Arrival) (preprocessed : Option Response) : Encounter where
  nodeType := arrival.nodeType
  body := arrival.received
  chainID := arrival.chainID
  overrides := arrival.overrides
  preprocessed := preprocessed
  selector := arrival.selector
  upstream := arrival.upstream

def Arrival.exchange (arrival : Arrival) : Exchange where
  arrays := arrival.arrays
  body := arrival.body
  rawRequestBody := arrival.body
  response := ⟨200, []⟩
  error := none
  callsStarted := []
  copied := none
  mirrored := []

/-- A request on chain 1, which has one mirror and no node. The body fills its buffer. -/
def Arrival.sample (text : Bytes) : Arrival where
  nodeType := []
  arrays := [text]
  body := ⟨0, 0, text.length⟩
  within := ⟨Nat.zero_lt_one, Nat.le_refl _⟩
  readable := true
  chainID := ascii "1"
  overrides := ∅
  heights := ∅
  mirroring := Mirroring.new.addMirrorTarget (ascii "1") (ascii "k")
    { address := ascii "h", port := 80, rateLimit := none, chainId := ascii "1"
      addrKey := ascii "k", deleted := false }
  tokens _ := true
  selector _ := ⟨⟨∅, ∅, ∅, ∅⟩, ⟨∅, ∅⟩, 0⟩
  upstream _ := ⟨200, ascii "1"⟩

namespace Proxy

variable (proxy : Proxy)

/-- `ErrorResponse` and `WriteError`. -/
def answer (context : RoutedContext) (exchange : Exchange) (status : Int) (object : ErrorObject) :
    Exchange :=
  { exchange with
    error := some object
    response := proxy.balancer.writeError exchange.response.body context.requestBody status
      (errorResponse object) }

def jRPCMethodDenied : Processor := fun context exchange => do
  let denied ← anyDenied (proxy.methodDenied.getD []) context.requestBody
  if denied then return proxy.answer context exchange 400 methodNotAllowed else return exchange

def updatePreprocessorMetrics : Processor := fun context exchange =>
  return { exchange with callsStarted := exchange.callsStarted ++ [context.method] }

/-- The id of the rewritten request: the caller's, or 1. -/
def payloadID : List (Option RequestObject) → Checked Bytes
  | [request] => do
    let request ← deref request
    return request.id.getD (ascii "1")
  | _ => return ascii "1"

def getLatestBlock (heights : Heights) : Processor := fun context exchange =>
  if context.method ≠ ascii "getLatestBlock" then return exchange
  else
    match heights.getHeight context.chainId with
    | some height => do
      let id ← payloadID context.requestBody
      match proxy.marshalPayload height id with
      | none =>
        return proxy.answer context exchange 500
          ⟨-32603, ascii "Failed to marshal new request body", []⟩
      | some payload =>
        -- `OwnRequests` has copied the parsed requests, so only the raw view sees the new text
        return exchange.setBody payload
    | none => return proxy.answer context exchange 200 ⟨-32602, ascii "invalid params", []⟩

def requestMirror (mirroring : Mirroring) (tokens : Nat → Bool) : Processor := fun context exchange =>
  let mirrorURLs := mirroring.getMirrorURLs context.chainId
  if mirrorURLs = [] then return exchange
  else
    let body := exchange.rawRequestBody.read exchange.arrays
    let allowed := mirrorURLs.zipIdx.filter fun entry =>
      mirroring.allow context.chainId entry.1 (tokens entry.2)
    return { exchange with
      copied := some body
      mirrored := exchange.mirrored ++ allowed.map fun entry => (entry.1, body) }

/-- `GetPreProcessorHertz`. -/
def getPreProcessor (arrival : Arrival) : List (Option Processor) :=
  [some proxy.jRPCMethodDenied, some updatePreprocessorMetrics,
    some (proxy.getLatestBlock arrival.heights),
    if proxy.mirrorEnable then some (requestMirror arrival.mirroring arrival.tokens) else none]

/-- The context of an accepted request, once its chain is known. -/
def routed (request : RequestContext) (chainId : Bytes) : RoutedContext :=
  { request with chainId, native := false, memo := .fresh }

/-- `ServeHTTP` up to the end of the pre-processors; `none` where it answers before them. -/
def preprocess (arrival : Arrival) : Checked (Option Exchange) := do
  let request ← generateRequestContext proxy.balancer.sonic arrival.nodeType arrival.received
  if request.error.isSome then return none
  else
    match effectiveChainID arrival.overrides arrival.chainID with
    | none => return none
    | some chainId =>
      let exchange ← callProcessors (routed request chainId) (proxy.getPreProcessor arrival) arrival.exchange
      return some exchange

/-- The whole handler: what the pre-processors left, and the visit after them. -/
def handle (cache : ArchiveHashCache) (arrival : Arrival) : Checked (Option Exchange) × Visit :=
  let preprocessed := proxy.preprocess arrival
  match preprocessed with
  | .error fault => (preprocessed, ⟨false, [], .error fault, cache⟩)
  | .ok none => (preprocessed, proxy.balancer.serveHTTP cache (arrival.encounter none))
  | .ok (some exchange) =>
    let response := if exchange.response.body ≠ [] then some exchange.response else none
    (preprocessed, proxy.balancer.serveHTTP cache (arrival.encounter response))

end Proxy

/-- The processors behind one that answers are not called. -/
theorem callProcessors_of_answer {processor : Processor} {exchange answered : Exchange}
    (answers : processor context exchange = .ok answered) (nonempty : answered.response.body ≠ [])
    (processors : List (Option Processor)) :
    callProcessors context (some processor :: processors) exchange = .ok answered := by
  simp [callProcessors, answers, nonempty]

theorem callProcessors_cases {processor : Processor} {exchange result : Exchange}
    (called : callProcessors context (some processor :: processors) exchange = .ok result) :
    ∃ next, processor context exchange = .ok next ∧
      (next.response.body ≠ [] ∧ result = next ∨
        next.response.body = [] ∧ callProcessors context processors next = .ok result) := by
  obtain ⟨next, processed, called⟩ := Checked.of_bind_ok called
  refine ⟨next, processed, ?_⟩
  by_cases silent : next.response.body = []
  · rw [if_neg (not_not.mpr silent)] at called
    exact .inr ⟨silent, called⟩
  · rw [if_pos silent] at called
    cases called
    exact .inl ⟨silent, rfl⟩

theorem callProcessors_of_silent {processor : Processor} {exchange next : Exchange}
    (processed : processor context exchange = .ok next) (silent : next.response.body = [])
    (processors : List (Option Processor)) :
    callProcessors context (some processor :: processors) exchange =
      callProcessors context processors next := by
  simp [callProcessors, processed, silent]

theorem Balancer.writeError_body (balancer : Balancer) (held : Bytes)
    (requestBody : List (Option RequestObject)) (status : Int) (object : ResponseObject) :
    ∃ id, (balancer.writeError held requestBody status object).body =
      held ++ balancer.marshalResponse { object with id := id } := by
  unfold writeError
  split
  · exact ⟨_, rfl⟩
  · exact ⟨object.id, rfl⟩

namespace Proxy

variable {proxy : Proxy} {arrival : Arrival}

theorem answer_body_ne_nil (written : ∀ object, proxy.balancer.marshalResponse object ≠ [])
    (context : RoutedContext) (exchange : Exchange) (status : Int) (object : ErrorObject) :
    (proxy.answer context exchange status object).response.body ≠ [] := by
  obtain ⟨id, body⟩ := proxy.balancer.writeError_body exchange.response.body context.requestBody
    status (errorResponse object)
  exact fun empty => written _ (List.append_eq_nil_iff.mp (body.symm.trans empty)).2

theorem jRPCMethodDenied_eq {context : RoutedContext}
    (looked : anyDenied (proxy.methodDenied.getD []) context.requestBody = .ok denied)
    (exchange : Exchange) :
    proxy.jRPCMethodDenied context exchange =
      .ok (if denied then proxy.answer context exchange 400 methodNotAllowed else exchange) := by
  rw [jRPCMethodDenied, looked]
  cases denied <;> rfl

/-- A denied method is answered, and nothing else is touched. -/
theorem jRPCMethodDenied_cases {context : RoutedContext} {exchange after : Exchange}
    (returned : proxy.jRPCMethodDenied context exchange = .ok after) :
    after = proxy.answer context exchange 400 methodNotAllowed ∨
    (anyDenied (proxy.methodDenied.getD []) context.requestBody = .ok false ∧ after = exchange) := by
  obtain ⟨denied, looked, -⟩ := Checked.of_bind_ok returned
  rw [jRPCMethodDenied_eq looked] at returned
  cases returned
  cases denied with
  | true => exact .inl rfl
  | false => exact .inr ⟨looked, rfl⟩

/-- The rewrite leaves the exchange alone, answers, or refills the buffer with the payload. -/
theorem getLatestBlock_cases {heights : Heights} {context : RoutedContext}
    {exchange after : Exchange}
    (returned : proxy.getLatestBlock heights context exchange = .ok after) :
    (context.method ≠ ascii "getLatestBlock" ∧ after = exchange) ∨
    (∃ status object, after = proxy.answer context exchange status object) ∨
    ∃ height id payload, context.method = ascii "getLatestBlock" ∧
      heights.getHeight context.chainId = some height ∧
      payloadID context.requestBody = .ok id ∧ proxy.marshalPayload height id = some payload ∧
      after = exchange.setBody payload := by
  unfold getLatestBlock at returned
  split_ifs at returned with other
  · cases returned
    exact .inl ⟨other, rfl⟩
  · have latest := not_not.mp other
    split at returned
    · rename_i height known
      obtain ⟨id, found, returned⟩ := Checked.of_bind_ok returned
      split at returned
      · cases returned
        exact .inr (.inl ⟨_, _, rfl⟩)
      · rename_i payload marshalled
        cases returned
        exact .inr (.inr ⟨height, id, payload, latest, known, found, marshalled, rfl⟩)
    · cases returned
      exact .inr (.inl ⟨_, _, rfl⟩)

/-- Without targets nothing happens; with targets the raw body is copied. -/
theorem requestMirror_cases {mirroring : Mirroring} {tokens : Nat → Bool} {context : RoutedContext}
    {exchange after : Exchange}
    (returned : requestMirror mirroring tokens context exchange = .ok after) :
    after = exchange ∨
    (mirroring.getMirrorURLs context.chainId ≠ [] ∧
      ∃ mirrored, after = { exchange with
        copied := some (exchange.rawRequestBody.read exchange.arrays), mirrored }) := by
  simp only [requestMirror] at returned
  split_ifs at returned with none
  · cases returned
    exact .inl rfl
  · cases returned
    exact .inr ⟨none, _, rfl⟩

/-- The plain handler on a valid request for a known chain. -/
theorem serveHTTP_of_valid
    (received : generateRequestContext proxy.balancer.sonic arrival.nodeType arrival.received =
      .ok request)
    (valid : request.error = none)
    (chain : effectiveChainID arrival.overrides arrival.chainID = some chainId) :
    proxy.balancer.serveHTTP cache (arrival.encounter preprocessed) =
      match preprocessed with
      | some response => ⟨false, [], .ok response, cache⟩
      | none => proxy.balancer.route cache (arrival.encounter preprocessed) (routed request chainId) := by
  simp only [Balancer.serveHTTP, Arrival.encounter, received, valid, chain]
  rfl

theorem preprocess_eq_some_iff : proxy.preprocess arrival = .ok (some exchange) ↔
    ∃ request chainId,
      generateRequestContext proxy.balancer.sonic arrival.nodeType arrival.received = .ok request ∧
      request.error = none ∧ effectiveChainID arrival.overrides arrival.chainID = some chainId ∧
      callProcessors (routed request chainId) (proxy.getPreProcessor arrival) arrival.exchange =
        .ok exchange := by
  unfold preprocess
  constructor
  · intro ran
    obtain ⟨request, received, ran⟩ := Checked.of_bind_ok ran
    cases valid : request.error with
    | some error => simp [valid] at ran
    | none =>
      cases chain : effectiveChainID arrival.overrides arrival.chainID with
      | none => simp [valid, chain] at ran
      | some chainId =>
        simp only [valid, chain, Option.isSome_none, Bool.false_eq_true, if_false] at ran
        obtain ⟨result, called, ran⟩ := Checked.of_bind_ok ran
        cases ran
        exact ⟨request, chainId, received, valid, rfl, called⟩
  · rintro ⟨request, chainId, received, valid, chain, called⟩
    rw [received, Checked.ok_bind]
    simp only [valid, chain, Option.isSome_none, Bool.false_eq_true, if_false, called]
    rfl

end Proxy

end NodexProxy.Lb
