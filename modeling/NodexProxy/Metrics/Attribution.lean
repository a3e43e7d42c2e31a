import NodexProxy.Lb.CurrentAttempt
import NodexProxy.Metrics.PostProcessor

/-! What a failed call is blamed on. The labels come from the error of the context, the error in the
response and the node chosen last, each set at another place of `ServeHTTP`. -/

namespace NodexProxy.Metrics

open NodexProxy.Foundation NodexProxy.Discovery NodexProxy.Jsonrpc NodexProxy.Lb

/-- `TargetNodeAddr`: each choice of a node clears it first, and sets it if there is a node. -/
def targetNodeAddr (trials : List Trial) : Bytes :=
  trials.foldl (fun _ trial =>
    match trial with
    | .attempt _ node _ _ => node.addr
    | _ => []) []

/-- What the post-processor takes from the configuration, the clock and the decoder. -/
structure Surroundings where
  host : Bytes
  target : Bytes
  duration : Int
  decodingError : Bytes

/-- The text of `requestContext.Error`. -/
def Surroundings.errorText (surroundings : Surroundings) : Failure → Bytes
  | .object error => error.error
  | .gateway text => text
  | .undecodable => surroundings.decodingError

/-- The request context as `updatePostProcessorMetricsHertz` finds it. -/
def Surroundings.report (surroundings : Surroundings) (arrival : Arrival) (session : Session) :
    Report where
  host := surroundings.host
  target := surroundings.target
  baseChainId := (splitChainIdentifier arrival.chainID).1
  chainUUID := (splitChainIdentifier arrival.chainID).2.1
  chainId := session.context.chainId
  method := session.context.method
  isBatch := session.context.isBatch
  statusCode := session.message.status
  duration := surroundings.duration
  error := session.error.map surroundings.errorText
  responseError := session.responseError.map fun error =>
    ⟨error.code, error.message, .string error.data⟩
  upstreamRelated := session.trials ≠ []
  targetNodeAddr := targetNodeAddr session.trials
  requestBodySize := arrival.text.length
  responseBodySize := session.message.body.length

/-- The bucket for a stage that could not be answered by a node. -/
def blame : Trial → FailureReason
  | .attempt _ _ _ upstream =>
    if upstream.status = 504 then .upstreamGatewayTimeout else .upstreamBadGateway
  | .noBackend .native => .noNativeBackendsAvailable
  | _ => .noBackendsAvailable

/-- The node for it. -/
def blamedNode : Trial → Bytes
  | .attempt _ node _ _ => if trimSpace node.addr = [] then ascii "unknown" else node.addr
  | _ => ascii "unknown"

/-- From the answer of its own to these requests, behind whatever body it stands, the proxy decodes
the error that it wrote or fails to, as it does behind one that is not blank. It keeps the texts of
its errors in lower case. -/
structure ReadsOwn (reporter : Reporter) (requestBody : List (Option RequestObject)) : Prop where
  decodes : ∀ old trial refusal error, Trial.refusal trial = some refusal →
    reporter.unmarshalError (reporter.render old (echoID requestBody refusal.object)) = some error →
    error = some refusal.object.error
  lower : ∀ trial refusal, Trial.refusal trial = some refusal →
    reporter.toLower refusal.object.error.data = refusal.object.error.data

theorem targetNodeAddr_of_last {trials : List Trial} {last : Trial}
    (shown : trials.getLast? = some last) :
    (if trimSpace (targetNodeAddr trials) = [] then ascii "unknown" else targetNodeAddr trials) =
      blamedNode last := by
  obtain ⟨before, rfl⟩ := List.getLast?_eq_some_iff.mp shown
  rw [targetNodeAddr, List.foldl_append]
  cases last with
  | attempt stage node archive upstream => rfl
  | noBackend stage => rfl
  | fault stage fault => rfl

section Refused

variable {trial : Trial} {refusal : Refusal}

theorem refusal_cases (refused : trial.refusal = some refusal) :
    (blame trial = .upstreamGatewayTimeout ∧
      refusal.object = gatewayTimeout (ascii "reverse proxy gateway timeout")) ∨
    (blame trial = .upstreamBadGateway ∧
      refusal.object = badGateway (ascii "reverse proxy bad gateway")) ∨
    (blame trial = .noNativeBackendsAvailable ∧
      refusal.object = badGateway (ascii "no native backends available")) ∨
    blame trial = .noBackendsAvailable ∧
      refusal.object = badGateway (ascii "no backends available") := by
  cases trial with
  | attempt stage node archive upstream =>
    simp only [Trial.refusal] at refused
    split_ifs at refused with timeout broken
    · cases refused
      exact .inl ⟨if_pos timeout, rfl⟩
    · cases refused
      exact .inr (.inl ⟨if_neg timeout, rfl⟩)
  | noBackend stage =>
    cases refused
    cases stage with
    | native => exact .inr (.inr (.inl ⟨rfl, rfl⟩))
    | first => exact .inr (.inr (.inr ⟨rfl, rfl⟩))
    | fallback => exact .inr (.inr (.inr ⟨rfl, rfl⟩))
    | archive => exact .inr (.inr (.inr ⟨rfl, rfl⟩))
  | fault stage fault => cases refused

/-- The texts of the proxy's own internal errors have buckets of their own. -/
theorem classifyInternalError_own (rawMsg : Bytes) :
    classifyInternalError (ascii "reverse proxy bad gateway") rawMsg = .upstreamBadGateway ∧
    classifyInternalError (ascii "no native backends available") rawMsg =
      .noNativeBackendsAvailable ∧
    classifyInternalError (ascii "no backends available") rawMsg = .noBackendsAvailable := by
  unfold classifyInternalError
  refine ⟨?_, ?_, ?_⟩
  · rw [if_neg (by decide +kernel), if_neg (by decide +kernel), if_pos (by decide +kernel)]
  · rw [if_pos (by decide +kernel)]
  · rw [if_neg (by decide +kernel), if_pos (by decide +kernel)]

theorem classify_badGateway (toLower : Bytes → Bytes) (text error : Bytes)
    (lower : toLower (badGateway text).error.data = (badGateway text).error.data) :
    classifyFailureReason toLower (badGateway text).error.code (badGateway text).error.message
        (.string (badGateway text).error.data) (some error) =
      classifyInternalError text (toLower (ascii "server error")) := by
  have same : classifyFailureReason toLower (badGateway text).error.code
      (badGateway text).error.message (.string (badGateway text).error.data) (some error) =
      classifyInternalError (toLower (badGateway text).error.data)
        (toLower (ascii "server error")) := rfl
  rw [same, lower]
  rfl

/-- The data of the error tells the stages apart, whatever else the error says. -/
theorem classify_refusal {reporter : Reporter} (own : ReadsOwn reporter requestBody)
    (refused : trial.refusal = some refusal) (error : Bytes) :
    classifyFailureReason reporter.toLower refusal.object.error.code refusal.object.error.message
      (.string refusal.object.error.data) (some error) = blame trial := by
  have lower := own.lower trial refusal refused
  rcases refusal_cases refused with ⟨blamed, object⟩ | ⟨blamed, object⟩ | ⟨blamed, object⟩ |
    ⟨blamed, object⟩
  · rw [object, blamed]
    rfl
  all_goals
    rw [object] at lower ⊢
    rw [classify_badGateway _ _ error lower, blamed]
  · exact (classifyInternalError_own _).1
  · exact (classifyInternalError_own _).2.1
  · exact (classifyInternalError_own _).2.2

end Refused

/-- The two errors at the end of a run that went through stages. -/
theorem settled_of_ran {reporter : Reporter} {session : Session} {last : Trial}
    (written : ∀ object, reporter.proxy.balancer.marshalResponse object ≠ [])
    (renders : reporter.RendersOwnCode)
    (ran : reporter.serveHTTP cache arrival headers = .ok (some (session, account)))
    (shown : session.trials.getLast? = some last) :
    account = Reporter.updatePostProcessorMetrics session ∧
    session.message = reporter.heldAfter session.context.requestBody last ∧
      (session.error, session.responseError) =
        reporter.settle session.message (Reporter.ownErrors last) := by
  obtain ⟨request, chainId, exchange, -, -, -, called, rfl, rfl⟩ := Reporter.serveHTTP_cases ran
  refine ⟨rfl, ?_⟩
  by_cases answered : exchange.response.body ≠ []
  · simp only [if_pos answered] at shown
    obtain ⟨trials, -⟩ := Reporter.usesCurrentAttempt_of_answered reporter cache
      (Proxy.routed request chainId) exchange rfl
    rw [trials] at shown
    cases shown
  · simp only [if_neg answered] at shown ⊢
    have silent := (Proxy.getPreProcessor_silent written called).resolve_right answered
    obtain ⟨final, -, current, -⟩ := Reporter.route_spec renders
      (Reporter.start_ready cache silent
        (show (Proxy.routed request chainId).memo.responseErrorKey = none from rfl))
      rfl rfl (arrival.encounter none) headers
    obtain ⟨-, trials, message, fixed, settled⟩ :=
      Reporter.parseJRPCResponseBody_spec current.sound reporter
    rw [trials, current.last] at shown
    cases shown
    rw [settled, message, Session.requestBody_eq fixed]
    refine ⟨current.message, ?_⟩
    rw [Reporter.ownErrors, current.error, current.responseError]

/-- Decoding its own answer brings the same error back; it may not come to that, and where it fails
the error of the response stays. -/
theorem settle_refusal {reporter : Reporter} {requestBody : List (Option RequestObject)}
    (own : ReadsOwn reporter requestBody) {last : Trial} {refusal : Refusal}
    (refused : last.refusal = some refusal) :
    let settled := reporter.settle (reporter.heldAfter requestBody last) (Reporter.ownErrors last)
    settled.1.isSome ∧ settled.2 = some refusal.object.error := by
  have held : (reporter.heldAfter requestBody last).body =
      reporter.render last.received.body (echoID requestBody refusal.object) := by
    simp only [Reporter.heldAfter, refused]
  dsimp only
  unfold Reporter.settle
  split_ifs
  · simp [Reporter.ownErrors, refused]
  · rw [held]
    cases decoded : reporter.unmarshalError
        (reporter.render last.received.body (echoID requestBody refusal.object)) with
    | none => simp [Reporter.ownErrors, refused]
    | some error =>
      rw [own.decodes last.received.body last refusal error refused decoded]
      exact ⟨rfl, rfl⟩

/-- A single request that the proxy itself had to refuse is counted as failed once, under the code
of the refusal, as related to the upstreams, with the bucket of the stage that was refused and the
node chosen in it, however many stages went before and whatever else the response says. -/
theorem own_failures_are_attributed (reporter : Reporter) (surroundings : Surroundings)
    (written : ∀ object, reporter.proxy.balancer.marshalResponse object ≠ [])
    (renders : reporter.RendersOwnCode) (cache : ArchiveHashCache) (arrival : Arrival)
    (headers : Lb.Stage → Bytes × Bytes) (session : Session) (account : Account)
    (own : ReadsOwn reporter session.context.requestBody)
    (ran : reporter.serveHTTP cache arrival headers = .ok (some (session, account)))
    (last : Trial) (shown : session.trials.getLast? = some last) (refusal : Refusal)
    (refused : last.refusal = some refusal) (single : session.context.isBatch = false) :
    account = .failed refusal.object.error.code ∧
    (surroundings.report arrival session).outcome reporter.toLower =
      .failed ((surroundings.report arrival session).key.common ++
        [session.context.method, itoa refusal.object.error.code, ascii "true", (blame last).label,
          blamedNode last]) := by
  obtain ⟨rfl, held, settled⟩ := settled_of_ran written renders ran shown
  obtain ⟨failed, response⟩ := settle_refusal own refused
  rw [← held, ← settled] at failed response
  dsimp only at failed response
  obtain ⟨failure, error⟩ := Option.isSome_iff_exists.mp failed
  have present : session.trials ≠ [] := by
    rintro empty
    rw [empty] at shown
    cases shown
  refine ⟨?_, ?_⟩
  · simp [Reporter.updatePostProcessorMetrics, countFor, single, error, response]
  · have node : (surroundings.report arrival session).failureNodeAddr = blamedNode last :=
      targetNodeAddr_of_last shown
    have related : formatBool (surroundings.report arrival session).upstreamRelated =
        ascii "true" := by
      simp [Surroundings.report, present, formatBool]
    have erroneous : (surroundings.report arrival session).error =
        some (surroundings.errorText failure) := by
      simp [Surroundings.report, error]
    have answered : (surroundings.report arrival session).responseError =
        some ⟨refusal.object.error.code, refusal.object.error.message,
          .string refusal.object.error.data⟩ := by
      simp [Surroundings.report, response]
    simp only [Report.outcome, erroneous, Report.failedLabels, answered, node, related,
      classify_refusal own refused]
    rfl

/-! A state node lacks the state, and the archive node behind it is broken. -/

/-- The answers of the proxy's own. -/
def refusals : List ResponseObject :=
  [gatewayTimeout (ascii "reverse proxy gateway timeout"),
    badGateway (ascii "reverse proxy bad gateway"),
    badGateway (ascii "no native backends available"), badGateway (ascii "no backends available")]

/-- The answer to a request with the id 1. -/
def refusalText (object : ResponseObject) : Bytes :=
  ResponseObject.text { object with id := ascii "1" }

/-- These answers are decoded, unless something else stands before them. -/
def refusingReporter : Reporter :=
  { Reporter.answerReporter with
    unmarshalError := fun body =>
      (refusals.find? fun object => trimSpace body = refusalText object).map
        fun object => some object.error }

def brokenNode (nodeType : Int) : Node :=
  ⟨ascii "n", ascii "10.0.0.1", 8545, ascii "10.0.0.1:8545", ascii "official", 1, stateAvailable,
    nodeType⟩

def brokenArrival : Arrival :=
  { Reporter.answerArrival Balancer.plainAnswer with
    upstream := fun stage => if stage = .first then ⟨200, Balancer.plainAnswer⟩ else ⟨502, []⟩ }

theorem mem_refusals {trial : Trial} {refusal : Refusal} (refused : trial.refusal = some refusal) :
    refusal.object ∈ refusals := by
  rcases refusal_cases refused with ⟨-, object⟩ | ⟨-, object⟩ | ⟨-, object⟩ | ⟨-, object⟩ <;>
    simp [object, refusals]

/-- An answer that is part of another has the same error, and no blank at its ends. -/
theorem refusalText_apart : ∀ object ∈ refusals,
    refusalText object = 123 :: ((refusalText object).tail.dropLast ++ [125]) ∧
    ∀ other ∈ refusals, refusalText object <:+: refusalText other → other.error = object.error := by
  decide +kernel

theorem refusingReporter_readsOwn {requestBody : List (Option RequestObject)}
    (ids : requestBody.map (·.bind RequestObject.id) = [some (ascii "1")]) :
    ReadsOwn refusingReporter requestBody where
  decodes := by
    intro old trial refusal error refused decoded
    have echoed : (echoID requestBody refusal.object).text = refusalText refusal.object := by
      obtain ⟨entry, rfl, named⟩ := List.map_eq_singleton_iff.mp ids
      obtain ⟨request, rfl, one⟩ := Option.bind_eq_some_iff.mp named
      simp only [echoID, one, Option.getD_some, refusalText]
    obtain ⟨other, found, rfl⟩ := Option.map_eq_some_iff.mp decoded
    have whole : trimSpace (old ++ (echoID requestBody refusal.object).text) =
        refusalText other := of_decide_eq_true (List.find?_some found :)
    obtain ⟨ends, apart⟩ := refusalText_apart refusal.object (mem_refusals refused)
    have inside : refusalText refusal.object <:+: refusalText other := by
      rw [← whole, echoed, ends]
      exact (infix_trimSpace (by decide) (by decide) _ _).mpr (List.suffix_append _ _).isInfix
    rw [apart other (List.mem_of_find?_eq_some found) inside]
  lower := by
    intro trial refusal refused
    have lower : ∀ object ∈ refusals, Reporter.lowerCase object.error.data = object.error.data := by
      decide +kernel
    exact lower _ (mem_refusals refused)

def testbed : Surroundings := ⟨ascii "h", ascii "t", 0, []⟩

theorem own_failures_are_attributed_archive :
    ∃ session account,
      refusingReporter.serveHTTP .empty brokenArrival (fun _ => (jsonContentType, [])) =
        .ok (some (session, account)) ∧
      session.trials.map Trial.stage = [.first, .archive] ∧ account = .failed (-32603) ∧
      (testbed.report brokenArrival session).outcome Reporter.lowerCase =
        .failed [ascii "h", ascii "t", ascii "1", [], ascii "eth_call", ascii "-32603", ascii "true",
          ascii "upstream_bad_gateway", ascii "10.0.0.1:8545"] := by
  obtain ⟨⟨session, account⟩, ran, seen⟩ := Checked.exists_of_view
    (show ((refusingReporter.serveHTTP .empty brokenArrival
        (fun _ => (jsonContentType, []))).toOption.join.map fun run =>
          (run.1.trials, run.1.context.requestBody.map (·.bind RequestObject.id),
            run.1.context.isBatch,
            run.1.context.method :: (testbed.report brokenArrival run.1).key.common)) =
      some ([.attempt .first (brokenNode nodeTypeState) false
            ⟨⟨200, Balancer.plainAnswer⟩, jsonContentType, []⟩,
          .attempt .archive (brokenNode nodeTypeArchive) true ⟨⟨502, []⟩, jsonContentType, []⟩],
        [some (ascii "1")], false, [ascii "eth_call", ascii "h", ascii "t", ascii "1", []])
      by decide +kernel)
  simp only [Prod.mk.injEq] at seen
  obtain ⟨tried, ids, single, labels⟩ := seen
  obtain ⟨method, key⟩ := List.cons.inj labels
  obtain ⟨counted, outcome⟩ := own_failures_are_attributed refusingReporter testbed
    ResponseObject.text_ne_nil Reporter.answerReporter_renders .empty brokenArrival
    (fun _ => (jsonContentType, [])) session account
    (refusingReporter_readsOwn ids) ran _ (by rw [tried]; rfl) _ rfl single
  refine ⟨session, account, ran, by rw [tried]; rfl, counted, outcome.trans ?_⟩
  rw [key, method]
  decide +kernel

end NodexProxy.Metrics
