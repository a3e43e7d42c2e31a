import NodexProxy.Lb.Accounting
import NodexProxy.Lb.Stages

/-! What each step of a session leaves: the response and the error of the current stage, and a
memo that is about that response. -/

namespace NodexProxy.Lb

open NodexProxy.Foundation NodexProxy.Discovery NodexProxy.Jsonrpc

namespace Trial

def stage : Trial → Stage
  | attempt stage _ _ _ => stage
  | noBackend stage => stage
  | fault stage _ => stage

/-- The flag of an attempt; a stage without one counts as unflagged. -/
def archive : Trial → Bool
  | attempt _ _ archive _ => archive
  | _ => false

def attempted : Trial → Bool
  | attempt .. => true
  | _ => false

end Trial

/-- An answer of the proxy's own in place of a response. -/
structure Refusal where
  status : Int
  object : ResponseObject
  text : Bytes
deriving DecidableEq, Repr

def noBackendText : Stage → Bytes
  | .native => ascii "no native backends available"
  | _ => ascii "no backends available"

/-- The error a stage itself sets. -/
def Trial.refusal : Trial → Option Refusal
  | attempt _ _ _ upstream =>
    if upstream.status = 504 then
      some ⟨504, gatewayTimeout (ascii "reverse proxy gateway timeout"),
        ascii "reverse proxy gateway timeout"⟩
    else if upstream.status = 502 then
      some ⟨502, badGateway (ascii "reverse proxy bad gateway"), ascii "reverse proxy bad gateway"⟩
    else none
  | noBackend stage => some ⟨200, badGateway (noBackendText stage), noBackendText stage⟩
  | fault _ _ => none

/-- The response before the proxy writes one of its own. -/
def Trial.received : Trial → Message
  | attempt _ _ _ upstream => upstream
  | _ => .reset

namespace Reporter

variable (reporter : Reporter)

/-- The response held after a stage. -/
def heldAfter (requestBody : List (Option RequestObject)) (trial : Trial) : Message :=
  match trial.refusal with
  | none => trial.received
  | some refusal =>
    { status := refusal.status
      body := reporter.render trial.received.body (echoID requestBody refusal.object)
      contentType := jsonContentType
      transferEncoding := trial.received.transferEncoding }

/-- The top-level error codes of a response. -/
def topLevelCodes (body : Bytes) : List Int :=
  let trimmed := trimSpace body
  if trimmed = [] then [] else reporter.proxy.balancer.decodeErrorCodes trimmed

/-- Those of a body in which one of the two error keys occurs. -/
def recognisedCodes (body : Bytes) : List Int :=
  if containsErrorKey body then reporter.topLevelCodes body else []

/-- The codes the plain handler reads are the recognised ones. -/
theorem codesOf_eq (body : Bytes) :
    reporter.proxy.balancer.codesOf body = reporter.recognisedCodes body := by
  simp only [Balancer.codesOf, recognisedCodes, topLevelCodes, containsErrorKey_trimmed]
  by_cases empty : trimSpace body = []
  · simp [empty]
  · cases containsErrorKey body <;> simp [empty]

/-- What the proxy writes decodes to no error code but its own. -/
def RendersOwnCode : Prop :=
  ∀ old object, ∀ code ∈ reporter.topLevelCodes (reporter.render old object),
    code = object.error.code

end Reporter

namespace Session

/-- Results of the filter, remembered or recorded, are about the body they were asked for. -/
structure Sound (session : Session) : Prop where
  memo : ∀ known ∈ session.context.memo.responseErrorKey,
    known = containsErrorKey session.message.body
  calls : ∀ call ∈ session.filtered, call.1 = containsErrorKey call.2

/-- Nothing is known of a response yet. -/
structure Ready (session : Session) : Prop where
  error : session.error = none
  responseError : session.responseError = none
  message : session.message = .reset
  memo : session.context.memo.responseErrorKey = none
  calls : ∀ call ∈ session.filtered, call.1 = containsErrorKey call.2

/-- The session shows this stage and nothing of the ones before it. -/
structure Current (reporter : Reporter) (session : Session) (trial : Trial) : Prop where
  last : session.trials.getLast? = some trial
  error : session.error = trial.refusal.map fun refusal => .gateway refusal.text
  responseError : session.responseError = trial.refusal.map fun refusal => refusal.object.error
  message : session.message = reporter.heldAfter session.context.requestBody trial
  sound : session.Sound

/-- The parts of a context that no stage changes. -/
def fixed (session : Session) : List (Option RequestObject) × Bool :=
  (session.context.requestBody, session.context.isBatch)

end Session

theorem Session.requestBody_eq {session other : Session} (same : session.fixed = other.fixed) :
    session.context.requestBody = other.context.requestBody := congrArg Prod.fst same

section Steps

variable {reporter : Reporter} {session : Session}

/-- An attempt leaves its own response, and its own error if it sets one. -/
theorem attemptRequest_eq (reporter : Reporter) (session : Session) (stage : Stage) (node : Node)
    (upstream : Message) :
    let trial := Trial.attempt stage node session.context.archive upstream
    reporter.attemptRequest session stage node upstream =
      { session with
        context := Balancer.resetResponseErrorKey session.context
        error := (trial.refusal.map fun refusal => .gateway refusal.text).or session.error
        responseError := (trial.refusal.map fun refusal => refusal.object.error).or
          session.responseError
        message := reporter.heldAfter session.context.requestBody trial
        trials := session.trials ++ [trial] } := by
  dsimp only
  by_cases timeout : upstream.status = 504
  · simp [Reporter.attemptRequest, Reporter.fail, Reporter.writeError, Trial.refusal,
      Reporter.heldAfter, Trial.received, timeout, Balancer.resetResponseErrorKey]
  by_cases broken : upstream.status = 502
  · simp [Reporter.attemptRequest, Reporter.fail, Reporter.writeError, Trial.refusal,
      Reporter.heldAfter, Trial.received, broken, Balancer.resetResponseErrorKey]
  · simp [Reporter.attemptRequest, Trial.refusal, Reporter.heldAfter, Trial.received, timeout, broken,
      Balancer.resetResponseErrorKey]

theorem Session.Ready.attempt (ready : session.Ready) (reporter : Reporter) (stage : Stage)
    (node : Node) (upstream : Message) :
    let after := reporter.attemptRequest session stage node upstream
    let trial := Trial.attempt stage node session.context.archive upstream
    after.trials = session.trials ++ [trial] ∧ after.Current reporter trial ∧
      after.fixed = session.fixed ∧ after.context.native = session.context.native ∧
      after.context.archive = session.context.archive := by
  rw [attemptRequest_eq]
  refine ⟨rfl, ⟨List.getLast?_concat, ?_, ?_, rfl, ?_, ready.calls⟩, rfl, rfl, rfl⟩
  · simp [ready.error]
  · simp [ready.responseError]
  · intro known held
    cases held

theorem Session.Ready.noBackend (ready : session.Ready) (reporter : Reporter) (stage : Stage) :
    let after := reporter.writeNoBackend session stage (noBackendText stage)
    after.trials = session.trials ++ [.noBackend stage] ∧
      after.Current reporter (.noBackend stage) ∧ after.fixed = session.fixed := by
  refine ⟨rfl, ⟨List.getLast?_concat, rfl, rfl, ?_, ?_, ready.calls⟩, rfl⟩
  · simp [Reporter.writeNoBackend, Reporter.fail, Reporter.writeError, ready.message,
      Reporter.heldAfter, Trial.refusal, Trial.received, Message.reset]
  · intro known held
    rw [show (reporter.writeNoBackend session stage (noBackendText stage)).context =
      session.context from rfl, ready.memo] at held
    cases held

theorem Session.Ready.fault (ready : session.Ready) (reporter : Reporter) (stage : Stage)
    (fault : Fault) :
    let after := session.abort stage fault
    after.trials = session.trials ++ [.fault stage fault] ∧
      after.Current reporter (.fault stage fault) ∧ after.fixed = session.fixed := by
  refine ⟨rfl, ⟨List.getLast?_concat, ready.error, ready.responseError, ready.message, ?_,
    ready.calls⟩, rfl⟩
  intro known held
  rw [show (session.abort stage fault).context = session.context from rfl, ready.memo] at held
  cases held

/-- The session once the filter was asked about its body. -/
def Session.recorded (session : Session) : Session :=
  { session with
    context := { session.context with
      memo := { session.context.memo with
        responseErrorKey := some (containsErrorKey session.message.body) } }
    filtered := session.filtered ++
      [(containsErrorKey session.message.body, session.message.body)] }

/-- The filter gives what it would compute from the body that is held. -/
theorem Session.Sound.filter_eq (sound : session.Sound)
    (same : containsErrorKey body = containsErrorKey session.message.body) :
    session.filter body = (containsErrorKey session.message.body, session.recorded) := by
  unfold Session.filter Balancer.cachedResponseContainsErrorKey
  cases known : session.context.memo.responseErrorKey with
  | none => simp [same, Session.recorded]
  | some present =>
    have held := sound.memo present known
    have memo : { session.context.memo with responseErrorKey := some present } =
      session.context.memo := by rw [← known]
    simp only [Session.recorded, ← held, memo]

theorem Session.Sound.recorded (sound : session.Sound) : session.recorded.Sound := by
  refine ⟨fun known held => by cases held; rfl, fun call member => ?_⟩
  rcases List.mem_append.mp member with earlier | new
  · exact sound.calls call earlier
  · rw [List.mem_singleton.mp new]

theorem Session.Sound.parse_eq (sound : session.Sound) (reporter : Reporter) :
    reporter.parseRPCErrorCodes session = (reporter.recognisedCodes session.message.body,
      if trimSpace session.message.body = [] then session else session.recorded) := by
  simp only [Reporter.parseRPCErrorCodes, Reporter.recognisedCodes, Reporter.topLevelCodes,
    sound.filter_eq (containsErrorKey_trimmed _)]
  by_cases empty : trimSpace session.message.body = []
  · simp [empty]
  · cases containsErrorKey session.message.body <;> simp [empty]

/-- What choosing a node and asking for the block hash may change in a context. -/
def Kept (context after : RoutedContext) : Prop :=
  ∃ archive blockContext done, after = { context with
    archive := archive
    memo := ⟨blockContext, done, context.memo.responseErrorKey⟩ }

theorem Kept.refl (context : RoutedContext) : Kept context context := ⟨_, _, _, rfl⟩

theorem Kept.trans (first : Kept context middle) (second : Kept middle after) :
    Kept context after := by
  obtain ⟨_, _, _, rfl⟩ := first
  obtain ⟨archive, blockContext, done, rfl⟩ := second
  exact ⟨archive, blockContext, done, rfl⟩

section Contexts

variable {balancer : Balancer} {context after : RoutedContext}

theorem getBlockContext_kept : Kept context (balancer.getBlockContext context).2 := by
  unfold Balancer.getBlockContext
  split_ifs
  · exact ⟨_, _, _, rfl⟩
  · exact .refl context

theorem chooseTargetNode_kept
    (chosen : balancer.chooseTargetNode selector context requestKey = .ok (node, after)) :
    Kept context after := by
  obtain ⟨found, -, chosen⟩ := Checked.of_bind_ok chosen
  cases chosen
  exact getBlockContext_kept

theorem chooseFirstNode_kept
    (chosen : balancer.chooseFirstNode encounter diverted context = .ok (node, after)) :
    Kept context after := by
  obtain ⟨⟨found, middle⟩, first, chosen⟩ := Checked.of_bind_ok chosen
  have kept := chooseTargetNode_kept first
  dsimp only at chosen
  split_ifs at chosen
  · have normal : Kept middle { middle with archive := false } := ⟨_, _, _, rfl⟩
    exact kept.trans (normal.trans (chooseTargetNode_kept chosen))
  · cases chosen
    exact kept

theorem routeCachedArchiveHash_kept (cache : ArchiveHashCache) :
    Kept context (balancer.routeCachedArchiveHash cache context).2 := by
  unfold Balancer.routeCachedArchiveHash Balancer.requestBlockHash
  dsimp only
  split_ifs
  · exact .refl context
  · exact .refl context
  · have kept : Kept context (balancer.getBlockContext context).2 := getBlockContext_kept
    split
    · exact kept
    · split_ifs
      · exact kept
      · have diverted : Kept (balancer.getBlockContext context).2
          { (balancer.getBlockContext context).2 with archive := true } := ⟨_, _, _, rfl⟩
        exact kept.trans diverted

theorem rememberArchiveHash_kept (cache : ArchiveHashCache) (status : Int) (codes : List Int) :
    Kept context (balancer.rememberArchiveHash cache context status codes).2 := by
  unfold Balancer.rememberArchiveHash Balancer.requestBlockHash
  dsimp only
  split_ifs
  · exact .refl context
  · exact .refl context
  · split
    · exact getBlockContext_kept
    · exact getBlockContext_kept

end Contexts

theorem Session.Current.recorded (current : session.Current reporter trial) :
    session.recorded.Current reporter trial :=
  ⟨current.last, current.error, current.responseError, current.message, current.sound.recorded⟩

/-- Reading the error codes leaves the session at the same stage. -/
theorem Session.Current.parsed (current : session.Current reporter trial) :
    let after := (reporter.parseRPCErrorCodes session).2
    after.Current reporter trial ∧ after.trials = session.trials ∧ after.fixed = session.fixed ∧
      after.message = session.message ∧ after.context.native = session.context.native ∧
      after.context.archive = session.context.archive := by
  rw [current.sound.parse_eq]
  dsimp only
  split_ifs
  · exact ⟨current, rfl, rfl, rfl, rfl, rfl⟩
  · exact ⟨current.recorded, rfl, rfl, rfl, rfl, rfl⟩

theorem Session.Current.remembered (current : session.Current reporter trial) (codes : List Int) :
    let after := reporter.rememberArchiveHash session codes
    after.Current reporter trial ∧ after.trials = session.trials ∧ after.fixed = session.fixed ∧
      after.message = session.message ∧ after.context.native = session.context.native := by
  obtain ⟨archive, blockContext, done, same⟩ := @rememberArchiveHash_kept
    reporter.proxy.balancer session.context session.cache session.message.status codes
  have context : (reporter.rememberArchiveHash session codes).context = _ := same
  refine ⟨⟨current.last, current.error, current.responseError, ?_, ?_, current.sound.calls⟩, rfl, ?_,
    rfl, ?_⟩
  · rw [context]
    exact current.message
  · intro known held
    rw [context] at held
    exact current.sound.memo known held
  · rw [Session.fixed, context]
    rfl
  · rw [context]

/-- A response is dropped only when the stage it came from set no error. -/
theorem Session.Current.forNative (current : session.Current reporter trial)
    (plain : trial.refusal = none) :
    session.forNative.Ready ∧ session.forNative.fixed = session.fixed := by
  refine ⟨⟨?_, ?_, rfl, rfl, current.sound.calls⟩, rfl⟩
  · exact current.error.trans (by rw [plain]; rfl)
  · exact current.responseError.trans (by rw [plain]; rfl)

theorem Session.Current.forArchive (current : session.Current reporter trial)
    (plain : trial.refusal = none) :
    session.forArchive.Ready ∧ session.forArchive.fixed = session.fixed ∧
      session.forArchive.context.native = session.context.native := by
  obtain ⟨ready, -⟩ := current.forNative plain
  exact ⟨⟨ready.error, ready.responseError, rfl, rfl, ready.calls⟩, rfl, rfl⟩

theorem Session.Ready.choose {context : RoutedContext} (ready : session.Ready)
    (kept : Kept session.context context) :
    (session.choose context).Ready ∧ (session.choose context).fixed = session.fixed ∧
      (session.choose context).context.native = session.context.native := by
  obtain ⟨archive, blockContext, done, rfl⟩ := kept
  exact ⟨⟨ready.error, ready.responseError, ready.message, ready.memo, ready.calls⟩, rfl, rfl⟩

/-- One stage from the choice of a node on. -/
def Reporter.tryStage (reporter : Reporter) (session : Session) (stage : Stage) (upstream : Message)
    (choice : Checked (Option Node × RoutedContext)) : Session :=
  match choice with
  | .error fault => session.abort stage fault
  | .ok (none, context) =>
    reporter.writeNoBackend (session.choose context) stage (noBackendText stage)
  | .ok (some node, context) =>
    reporter.attemptRequest (session.choose context) stage node upstream

/-- Whatever comes of a stage, the session shows it. -/
theorem Session.Ready.tryStage (ready : session.Ready) (reporter : Reporter) (stage : Stage)
    (upstream : Message) {choice : Checked (Option Node × RoutedContext)}
    (kept : ∀ node context, choice = .ok (node, context) → Kept session.context context) :
    let after := reporter.tryStage session stage upstream choice
    ∃ trial, trial.stage = stage ∧ after.trials = session.trials ++ [trial] ∧
      after.Current reporter trial ∧ after.fixed = session.fixed := by
  unfold Reporter.tryStage
  match choice, kept with
  | .error fault, _ =>
    obtain ⟨trials, current, fixed⟩ := ready.fault reporter stage fault
    exact ⟨.fault stage fault, rfl, trials, current, fixed⟩
  | .ok (none, context), kept =>
    obtain ⟨chosen, same, -⟩ := ready.choose (kept none context rfl)
    obtain ⟨trials, current, fixed⟩ := chosen.noBackend reporter stage
    exact ⟨.noBackend stage, rfl, trials, current, fixed.trans same⟩
  | .ok (some node, context), kept =>
    obtain ⟨chosen, same, -⟩ := ready.choose (kept (some node) context rfl)
    obtain ⟨trials, current, fixed, -⟩ := chosen.attempt reporter stage node upstream
    exact ⟨.attempt stage node _ upstream, rfl, trials, current, fixed.trans same⟩

/-- What a run that gets as far as the processors went through. -/
theorem Reporter.serveHTTP_cases
    (ran : reporter.serveHTTP cache arrival headers = .ok (some (session, account))) :
    ∃ request chainId exchange,
      generateRequestContext reporter.proxy.balancer.sonic arrival.nodeType arrival.received =
        .ok request ∧
      request.error = none ∧ effectiveChainID arrival.overrides arrival.chainID = some chainId ∧
      callProcessors (Proxy.routed request chainId) (reporter.proxy.getPreProcessor arrival)
        arrival.exchange = .ok exchange ∧
      session = reporter.parseJRPCResponseBody
        (if exchange.response.body ≠ [] then start cache (Proxy.routed request chainId) exchange
        else reporter.route (arrival.encounter none) headers
          (start cache (Proxy.routed request chainId) exchange)) ∧
      account = updatePostProcessorMetrics session := by
  unfold serveHTTP at ran
  obtain ⟨request, received, ran⟩ := Checked.of_bind_ok ran
  cases valid : request.error with
  | some error => simp [valid] at ran
  | none =>
    cases chain : effectiveChainID arrival.overrides arrival.chainID with
    | none => simp [valid, chain] at ran
    | some chainId =>
      simp only [valid, chain, Option.isSome_none, Bool.false_eq_true, if_false] at ran
      obtain ⟨exchange, called, ran⟩ := Checked.of_bind_ok ran
      cases ran
      exact ⟨request, chainId, exchange, received, valid, rfl, called, rfl, rfl⟩

end Steps

end NodexProxy.Lb
