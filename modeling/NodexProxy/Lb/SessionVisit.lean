import NodexProxy.Lb.CurrentAttempt

/-! A session seen from outside is the visit of the plain `ServeHTTP`: the same requests to the
same nodes, the same response and the same cache. -/

namespace NodexProxy.Lb

open NodexProxy.Foundation NodexProxy.Discovery NodexProxy.Jsonrpc

theorem Kept.requestBody_eq (kept : Kept context after) :
    after.requestBody = context.requestBody := by
  obtain ⟨_, _, _, rfl⟩ := kept
  rfl

theorem Balancer.parseRPCErrorCodes_requestBody (balancer : Balancer) (context : RoutedContext)
    (body : Bytes) :
    (balancer.parseRPCErrorCodes context body).2.requestBody = context.requestBody := by
  rw [← parseRPCErrorCodes_memo]

namespace Reporter

variable (reporter : Reporter)

/-- The request a stage sent, with the response the rest of the handler sees. -/
def attemptOf (requestBody : List (Option RequestObject)) : Trial → Option Attempt
  | .attempt stage node archive upstream =>
    some ⟨node, archive,
      (reporter.heldAfter requestBody (.attempt stage node archive upstream)).toResponse⟩
  | _ => none

def visitOf (requestBody : List (Option RequestObject)) (session : Session) : Visit where
  diverted := session.diverted
  attempts := session.trials.filterMap (reporter.attemptOf requestBody)
  response :=
    match session.trials.getLast? with
    | some (.fault _ fault) => .error fault
    | _ => .ok session.message.toResponse
  cache := session.cache

/-- An object is written behind what the body held, as `JSON` does. -/
def Appends : Prop :=
  ∀ old object, reporter.render old object = old ++ reporter.proxy.balancer.marshalResponse object

variable {reporter : Reporter} (appends : reporter.Appends)
include appends

theorem render_echoID (requestBody : List (Option RequestObject)) (old : Bytes) (status : Int)
    (object : ResponseObject) :
    (⟨status, reporter.render old (echoID requestBody object)⟩ : Response) =
      reporter.proxy.balancer.writeError old requestBody status object := by
  rw [appends]
  rcases requestBody with _ | ⟨_ | request, _ | ⟨next, rest⟩⟩
  all_goals rfl

theorem heldAfter_attempt (requestBody : List (Option RequestObject)) (stage : Stage) (node : Node)
    (archive : Bool) (upstream : Message) :
    (reporter.heldAfter requestBody (.attempt stage node archive upstream)).toResponse =
      reporter.proxy.balancer.receive requestBody upstream.toResponse := by
  have written := render_echoID appends requestBody upstream.body
  have status (status : Int) (object : ResponseObject) :
      (reporter.proxy.balancer.writeError upstream.body requestBody status object).status = status := by
    rw [← written]
  by_cases timeout : upstream.status = 504
  · have other : (504 : Int) ≠ 502 := by decide
    simp only [heldAfter, Trial.refusal, Trial.received, Balancer.receive, timeout, if_true, status,
      other, if_false]
    exact written _ _
  by_cases broken : upstream.status = 502
  · have other : (502 : Int) ≠ 504 := by decide
    simp only [heldAfter, Trial.refusal, Trial.received, Balancer.receive, broken, other, if_true,
      if_false]
    exact written _ _
  · simp [heldAfter, Trial.refusal, Trial.received, Balancer.receive, timeout, broken]

omit appends in
theorem parseRPCErrorCodes_eq (session : Session) :
    let parsed := reporter.proxy.balancer.parseRPCErrorCodes session.context session.message.body
    ∃ filtered, reporter.parseRPCErrorCodes session =
      (parsed.1, { session with context := parsed.2, filtered }) := by
  simp only [parseRPCErrorCodes, Balancer.parseRPCErrorCodes, Session.filter]
  by_cases empty : trimSpace session.message.body = []
  · simp only [empty, if_true]
    exact ⟨session.filtered, rfl⟩
  simp only [empty, if_false]
  by_cases present : (Balancer.cachedResponseContainsErrorKey session.context
    (trimSpace session.message.body)).1 = true
  all_goals
    simp only [present, Bool.not_true, Bool.not_false, Bool.false_eq_true, if_false, if_true]
    exact ⟨_, rfl⟩

/-- One more attempt. -/
theorem visitOf_attempt {session : Session} (same : session.context.requestBody = requestBody)
    (stage : Stage) (node : Node) (upstream : Message) :
    let sent := reporter.proxy.balancer.attemptRequest session.context node upstream.toResponse
    let after := reporter.attemptRequest session stage node upstream
    reporter.visitOf requestBody after =
        { reporter.visitOf requestBody session with
          attempts := (reporter.visitOf requestBody session).attempts ++ [sent.1]
          response := .ok sent.1.response } ∧
      after.context = sent.2 ∧ after.message.toResponse = sent.1.response := by
  subst same
  have held := heldAfter_attempt appends session.context.requestBody stage node
    session.context.archive upstream
  dsimp only
  rw [attemptRequest_eq]
  refine ⟨?_, rfl, held⟩
  simp [visitOf, attemptOf, held, Balancer.attemptRequest, Balancer.resetResponseErrorKey]

/-- One more attempt, with the error codes of its response. -/
theorem visitOf_parsed {session : Session} (same : session.context.requestBody = requestBody)
    (stage : Stage) (node : Node) (upstream : Message) :
    let sent := reporter.proxy.balancer.attemptRequest session.context node upstream.toResponse
    let parsed := reporter.proxy.balancer.parseRPCErrorCodes sent.2 sent.1.response.body
    let after := reporter.parseRPCErrorCodes (reporter.attemptRequest session stage node upstream)
    after.1 = parsed.1 ∧ after.2.context = parsed.2 ∧
      after.2.message.toResponse = sent.1.response ∧
      after.2.context.requestBody = requestBody ∧
      reporter.visitOf requestBody after.2 =
        { reporter.visitOf requestBody session with
          attempts := (reporter.visitOf requestBody session).attempts ++ [sent.1]
          response := .ok sent.1.response } := by
  obtain ⟨visit, context, response⟩ := visitOf_attempt appends same stage node upstream
  obtain ⟨filtered, parsed⟩ := @parseRPCErrorCodes_eq reporter
    (reporter.attemptRequest session stage node upstream)
  have body := congrArg Response.body response
  dsimp only at context body ⊢
  rw [parsed, context, body]
  refine ⟨rfl, rfl, response, ?_, visit⟩
  exact (Balancer.parseRPCErrorCodes_requestBody _ _ _).trans same

theorem visitOf_noBackend {session : Session} (same : session.context.requestBody = requestBody)
    (blank : session.message.body = []) (stage : Stage) (message : String) :
    reporter.visitOf requestBody (reporter.writeNoBackend session stage (ascii message)) =
      { reporter.visitOf requestBody session with
        response := .ok (reporter.proxy.balancer.writeNoBackend session.context message) } := by
  subst same
  have written := render_echoID appends session.context.requestBody [] 200
    (badGateway (ascii message))
  simp [visitOf, attemptOf, writeNoBackend, fail, writeError, Balancer.writeNoBackend, blank, written]

omit appends in
theorem visitOf_abort (session : Session) (stage : Stage) (fault : Fault) :
    reporter.visitOf requestBody (session.abort stage fault) =
      { reporter.visitOf requestBody session with response := .error fault } := by
  simp [visitOf, attemptOf, Session.abort]

/-- The native stage sends what the plain one sends. -/
theorem visitOf_retryWithNative {session : Session}
    (same : session.context.requestBody = requestBody) (encounter : Encounter)
    (headers : Stage → Bytes × Bytes) (codes : List Int) :
    reporter.visitOf requestBody (reporter.retryWithNative encounter headers codes session) =
      reporter.proxy.balancer.retryWithNative encounter session.context codes
        (reporter.visitOf requestBody session) := by
  unfold retryWithNative Balancer.retryWithNative
  split_ifs with asked
  · dsimp only [Session.forNative, Session.resetResponse, Session.choose]
    generalize chosen : reporter.proxy.balancer.chooseTargetNode _ _ _ = choice
    match choice, chosen with
    | .error fault, _ => exact (visitOf_abort _ _ _).trans rfl
    | .ok (none, context), chosen =>
      have kept := (chooseTargetNode_kept chosen).requestBody_eq
      exact (visitOf_noBackend appends (kept.trans same) rfl _ _).trans rfl
    | .ok (some node, context), chosen =>
      have kept := (chooseTargetNode_kept chosen).requestBody_eq
      exact (visitOf_attempt appends (kept.trans same) _ _ _).1.trans rfl
  · rfl

omit appends in
theorem visitOf_remembered (session : Session) (cache : ArchiveHashCache) (context : RoutedContext) :
    reporter.visitOf requestBody { session with cache, context } =
      { reporter.visitOf requestBody session with cache } := rfl

omit appends in
theorem rememberArchiveHash_eq (session : Session) (codes : List Int) :
    let kept := reporter.proxy.balancer.rememberArchiveHash session.cache session.context
      session.message.status codes
    reporter.rememberArchiveHash session codes =
      { session with cache := kept.1, context := kept.2 } := rfl

theorem visitOf_archived {session : Session} (same : session.context.requestBody = requestBody)
    (encounter : Encounter) (headers : Stage → Bytes × Bytes) (node : Node) :
    let balancer := reporter.proxy.balancer
    let visit := reporter.visitOf requestBody session
    let sent := balancer.attemptRequest session.context node (encounter.upstream .archive)
    let parsed := balancer.parseRPCErrorCodes sent.2 sent.1.response.body
    let kept := balancer.rememberArchiveHash visit.cache parsed.2 sent.1.response.status parsed.1
    let after := reporter.parseRPCErrorCodes
      (reporter.attemptRequest session .archive node (encounter.message headers .archive))
    reporter.visitOf requestBody (reporter.retryWithNative encounter headers after.1
        (reporter.rememberArchiveHash after.2 after.1)) =
      balancer.retryWithNative encounter kept.2 parsed.1
        { visit with
          attempts := visit.attempts ++ [sent.1], response := .ok sent.1.response, cache := kept.1 } := by
  obtain ⟨codes, context, response, unchanged, visit⟩ := visitOf_parsed appends same .archive node
    (encounter.message headers .archive)
  dsimp only at codes context response visit ⊢
  have cache : (reporter.parseRPCErrorCodes (reporter.attemptRequest session .archive node
      (encounter.message headers .archive))).2.cache = session.cache := congrArg Visit.cache visit
  have status := congrArg Response.status response
  refine (visitOf_retryWithNative appends ?_ encounter headers _).trans ?_
  · exact (rememberArchiveHash_kept _ _ _).requestBody_eq.trans unchanged
  · rw [rememberArchiveHash_eq, visitOf_remembered, visit, codes, context, cache, status]
    rfl

/-- The archive stage sends what the plain one sends, and remembers the same hash. -/
theorem visitOf_retryWithArchive {session : Session}
    (same : session.context.requestBody = requestBody) (encounter : Encounter)
    (headers : Stage → Bytes × Bytes) :
    reporter.visitOf requestBody (reporter.retryWithArchive encounter headers session) =
      reporter.proxy.balancer.retryWithArchive encounter session.context
        (reporter.visitOf requestBody session) := by
  unfold retryWithArchive Balancer.retryWithArchive
  dsimp only [Session.forArchive, Session.resetResponse, Session.choose]
  generalize chosen : reporter.proxy.balancer.chooseTargetNode _ _ _ = choice
  match choice, chosen with
  | .error fault, _ => exact (visitOf_abort _ _ _).trans rfl
  | .ok (none, context), chosen =>
    have kept := (chooseTargetNode_kept chosen).requestBody_eq
    exact (visitOf_noBackend appends (kept.trans same) rfl _ _).trans rfl
  | .ok (some node, context), chosen =>
    have kept := (chooseTargetNode_kept chosen).requestBody_eq
    exact (visitOf_archived appends (kept.trans same) encounter headers node).trans rfl

theorem visitOf_answered {session : Session} (same : session.context.requestBody = requestBody)
    (encounter : Encounter) (headers : Stage → Bytes × Bytes) (node : Node) :
    let balancer := reporter.proxy.balancer
    let visit := reporter.visitOf requestBody session
    let sent := balancer.attemptRequest session.context node (encounter.upstream .first)
    let parsed := balancer.parseRPCErrorCodes sent.2 sent.1.response.body
    let answered : Visit :=
      { visit with attempts := visit.attempts ++ [sent.1], response := .ok sent.1.response }
    let after := reporter.parseRPCErrorCodes
      (reporter.attemptRequest session .first node (encounter.message headers .first))
    reporter.visitOf requestBody
        (if shouldRetryWithArchive after.2.context after.1 then
          reporter.retryWithArchive encounter headers after.2
        else reporter.retryWithNative encounter headers after.1 after.2) =
      if shouldRetryWithArchive parsed.2 parsed.1 then
        balancer.retryWithArchive encounter parsed.2 answered
      else balancer.retryWithNative encounter parsed.2 parsed.1 answered := by
  obtain ⟨codes, context, -, unchanged, visit⟩ := visitOf_parsed appends same .first node
    (encounter.message headers .first)
  have archived := visitOf_retryWithArchive appends unchanged encounter headers
  have native := visitOf_retryWithNative appends unchanged encounter headers
  dsimp only at codes context visit archived native ⊢
  rw [apply_ite (reporter.visitOf requestBody), archived, native, visit, codes, context]
  rfl

/-- The session refines the plain handler: the same requests to the same nodes, the same response
and the same cache. -/
theorem visitOf_route {session : Session} (fresh : session.trials = [])
    (blank : session.message.body = []) (encounter : Encounter) (headers : Stage → Bytes × Bytes) :
    reporter.visitOf session.context.requestBody (reporter.route encounter headers session) =
      reporter.proxy.balancer.route session.cache encounter session.context := by
  have diverted := @routeCachedArchiveHash_kept reporter.proxy.balancer session.context session.cache
  unfold route Balancer.route
  dsimp only
  generalize chosen : reporter.proxy.balancer.chooseFirstNode _ _ _ = choice
  match choice, chosen with
  | .error fault, _ =>
    refine (visitOf_abort _ _ _).trans ?_
    simp [visitOf, Session.choose, fresh]
  | .ok (none, context), chosen =>
    have same := (chooseFirstNode_kept chosen).requestBody_eq.trans diverted.requestBody_eq
    refine Eq.trans (visitOf_noBackend appends same ?_ _ _) ?_
    · exact blank
    · simp [visitOf, Session.choose, fresh]
  | .ok (some node, context), chosen =>
    have same := (chooseFirstNode_kept chosen).requestBody_eq.trans diverted.requestBody_eq
    refine (visitOf_answered appends ?_ encounter headers node).trans ?_
    · split_ifs
      · exact same
      · exact same
    · simp [visitOf, Session.choose, fresh]

omit appends in
theorem visitOf_parseJRPCResponseBody (session : Session) :
    reporter.visitOf requestBody (reporter.parseJRPCResponseBody session) =
      reporter.visitOf requestBody session := by
  unfold parseJRPCResponseBody Session.filter
  dsimp only
  split_ifs
  · rfl
  · rfl
  · rfl
  · rfl
  · cases reporter.unmarshalError session.message.body with
    | none => rfl
    | some responseError => rfl

/-- A run with its processors shows the visit of the plain handler. -/
theorem visitOf_serveHTTP
    (ran : reporter.serveHTTP cache arrival headers = .ok (some (session, account))) :
    ∃ request,
      generateRequestContext reporter.proxy.balancer.sonic arrival.nodeType arrival.received =
        .ok request ∧
      reporter.visitOf request.requestBody session = (reporter.proxy.handle cache arrival).2 := by
  obtain ⟨request, chainId, exchange, received, valid, chain, called, rfl, rfl⟩ :=
    serveHTTP_cases ran
  refine ⟨request, received, ?_⟩
  have preprocessed := Proxy.preprocess_eq_some_iff.mpr
    ⟨request, chainId, received, valid, chain, called⟩
  rw [visitOf_parseJRPCResponseBody]
  simp only [Proxy.handle, preprocessed]
  by_cases answered : exchange.response.body ≠ []
  · simp only [if_pos answered]
    rw [Proxy.serveHTTP_of_valid received valid chain]
    rfl
  · simp only [if_neg answered]
    rw [Proxy.serveHTTP_of_valid received valid chain]
    exact visitOf_route appends rfl (not_not.mp answered) _ headers

omit appends in
theorem visitOf_serveHTTP_retried :
    ∃ session account, ∃ request : RequestContext,
      answerReporter.serveHTTP .empty (answerArrival Balancer.plainAnswer)
          (fun _ => (jsonContentType, [])) =
        .ok (some (session, account)) ∧
      session.trials.map Trial.stage = [.first, .archive] ∧
      answerReporter.visitOf request.requestBody session =
        (answerReporter.proxy.handle .empty (answerArrival Balancer.plainAnswer)).2 := by
  obtain ⟨⟨session, account⟩, ran, tried⟩ := Checked.exists_of_view
    (show ((answerReporter.serveHTTP .empty (answerArrival Balancer.plainAnswer)
        (fun _ => (jsonContentType, []))).toOption.join.map
          fun run => run.1.trials.map Trial.stage) =
      some [.first, .archive] by decide +kernel)
  have appends : answerReporter.Appends := fun _ _ => rfl
  obtain ⟨request, -, same⟩ := visitOf_serveHTTP appends ran
  exact ⟨session, account, request, ran, tried, same⟩

end Reporter

end NodexProxy.Lb
