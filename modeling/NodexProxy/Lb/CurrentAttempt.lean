import NodexProxy.Lb.CacheSoundness
import NodexProxy.Lb.Trials

/-! Retry decisions and the final accounting rest on the current attempt: on the response that is
held, and on the error the last stage itself has set. -/

namespace NodexProxy.Lb

open NodexProxy.Foundation NodexProxy.Discovery NodexProxy.Jsonrpc

/-- After an answer with these codes, a native stage exactly when they ask for one. -/
def NativeOnly (codes : List Int) (rest : List Trial) : Prop :=
  if codes.contains cosmosPrecompile then ∃ trial, rest = [trial] ∧ trial.stage = .native
  else rest = []

/-- The stages of a request, by the codes of the answers: first, archive and native, each of the
retries exactly when the answer before it asks for it, and none after a stage without a node. -/
def Follows (codes : Trial → List Int) : List Trial → Prop
  | [] => False
  | first :: rest =>
    first.stage = .first ∧
    if !first.attempted then rest = []
    else if !first.archive && (codes first).contains stateBlockNotFound then
      ∃ second more, rest = second :: more ∧ second.stage = .archive ∧
        if !second.attempted then more = [] else NativeOnly (codes second) more
    else NativeOnly (codes first) rest

theorem NativeOnly.alone (only : NativeOnly codes (before ++ trial :: after)) :
    before = [] ∧ after = [] ∧ cosmosPrecompile ∈ codes := by
  unfold NativeOnly at only
  split_ifs at only with asked
  · obtain ⟨native, single, -⟩ := only
    obtain ⟨first, same⟩ | ⟨-, last⟩ := List.append_eq_singleton_iff.mp single
    · exact ⟨first, (List.cons_eq_cons.mp same).2, List.contains_iff_mem.mp asked⟩
    · cases last
  · simp at only

/-- A stage that another one follows was answered, and its codes ask for the other one. -/
theorem Follows.asked {codes : Trial → List Int}
    (follows : Follows codes (before ++ trial :: next :: after)) :
    trial.attempted = true ∧
      (stateBlockNotFound ∈ codes trial ∨ cosmosPrecompile ∈ codes trial) := by
  rcases before with _ | ⟨first, before⟩
  · obtain ⟨-, follows⟩ := follows
    split_ifs at follows with silent retried
    · have asked := (Bool.and_eq_true_iff.mp retried).2
      exact ⟨by simpa using silent, .inl (List.contains_iff_mem.mp asked)⟩
    · obtain ⟨-, -, asked⟩ := @NativeOnly.alone _ [] _ _ follows
      exact ⟨by simpa using silent, .inr asked⟩
  · obtain ⟨-, follows⟩ := follows
    split_ifs at follows
    · simp at follows
    · obtain ⟨second, more, split, -, follows⟩ := follows
      rcases before with _ | ⟨other, before⟩
      · cases split
        split_ifs at follows with silent
        obtain ⟨-, -, asked⟩ := @NativeOnly.alone _ [] _ _ follows
        exact ⟨by simpa using silent, .inr asked⟩
      · cases split
        split_ifs at follows
        · simp at follows
        · cases follows.alone.2.1
    · cases follows.alone.2.1

theorem Follows.unasked {codes : Trial → List Int} (follows : Follows codes [first])
    (attempted : first.attempted = true) (unflagged : first.archive = false) :
    stateBlockNotFound ∉ codes first := by
  intro asked
  obtain ⟨-, follows⟩ := follows
  simp [attempted, unflagged, asked] at follows

namespace Reporter

variable {reporter : Reporter} {session : Session}

/-- The recognised codes of the response held after a stage. -/
def codesAfter (reporter : Reporter) (requestBody : List (Option RequestObject)) (trial : Trial) :
    List Int :=
  reporter.recognisedCodes (reporter.heldAfter requestBody trial).body

/-- An answer that asks for another stage is not an error of the proxy's own. -/
theorem refusal_eq_none (renders : reporter.RendersOwnCode) (attempted : trial.attempted = true)
    (asked : code ∈ reporter.codesAfter requestBody trial)
    (retried : code = stateBlockNotFound ∨ code = cosmosPrecompile) : trial.refusal = none := by
  cases trial with
  | noBackend stage => cases attempted
  | fault stage fault => cases attempted
  | attempt stage node archive upstream =>
    cases refused : (Trial.attempt stage node archive upstream).refusal with
    | none => rfl
    | some refusal =>
      have own : refusal.object.error.code = -41002 ∨ refusal.object.error.code = -32603 := by
        simp only [Trial.refusal] at refused
        split_ifs at refused
        · cases refused
          exact .inl rfl
        · cases refused
          exact .inr rfl
      have echoed : (echoID requestBody refusal.object).error = refusal.object.error := by
        unfold echoID
        split <;> rfl
      have decoded : code = refusal.object.error.code := by
        rw [← echoed]
        simp only [codesAfter, heldAfter, refused, recognisedCodes] at asked
        split_ifs at asked
        · exact renders _ _ code asked
        · cases asked
      rw [decoded] at retried
      rcases own with timeout | broken
      · simp [timeout, stateBlockNotFound, cosmosPrecompile] at retried
      · simp [broken, stateBlockNotFound, cosmosPrecompile] at retried

theorem retryWithNative_spec (renders : reporter.RendersOwnCode)
    (current : session.Current reporter trial) (attempted : trial.attempted = true)
    (native : session.context.native = false) (encounter : Encounter)
    (headers : Stage → Bytes × Bytes) :
    let codes := reporter.recognisedCodes session.message.body
    let after := reporter.retryWithNative encounter headers codes session
    ∃ rest last, after.trials = session.trials ++ rest ∧ NativeOnly codes rest ∧
      after.Current reporter last ∧ after.fixed = session.fixed := by
  dsimp only
  unfold retryWithNative NativeOnly shouldRetryWithNative
  rw [native, Bool.not_false, Bool.true_and]
  split_ifs with asked
  · have plain := refusal_eq_none renders attempted
      (show cosmosPrecompile ∈ reporter.codesAfter session.context.requestBody trial by
        rw [codesAfter, ← current.message]
        exact List.contains_iff_mem.mp asked) (.inr rfl)
    obtain ⟨ready, same⟩ := current.forNative plain
    obtain ⟨next, staged, trials, shown, fixed⟩ := ready.tryStage reporter .native
      (encounter.message headers .native) fun node context chosen => chooseTargetNode_kept chosen
    exact ⟨[next], next, trials, ⟨next, rfl, staged⟩, shown, fixed.trans same⟩
  · exact ⟨[], trial, by simp, rfl, current, rfl⟩

/-- From an answer on: what its codes ask for, whatever was done with the session meanwhile. -/
theorem native_after (renders : reporter.RendersOwnCode) {later : Session}
    (shown : session.Current reporter trial) (current : later.Current reporter trial)
    (attempted : trial.attempted = true) (native : later.context.native = false)
    (fixed : later.fixed = session.fixed) (encounter : Encounter)
    (headers : Stage → Bytes × Bytes) :
    let after := reporter.retryWithNative encounter headers
      (reporter.parseRPCErrorCodes session).1 later
    ∃ rest last, after.trials = later.trials ++ rest ∧
      NativeOnly (reporter.codesAfter session.context.requestBody trial) rest ∧
      after.Current reporter last ∧ after.fixed = session.fixed := by
  have same : later.message = session.message := by
    rw [current.message, shown.message, Session.requestBody_eq fixed]
  have codes : (reporter.parseRPCErrorCodes session).1 =
      reporter.recognisedCodes later.message.body := by
    rw [shown.sound.parse_eq, same]
  obtain ⟨rest, last, trials, only, ends, kept⟩ :=
    retryWithNative_spec renders current attempted native encounter headers
  rw [codes]
  refine ⟨rest, last, trials, ?_, ends, kept.trans fixed⟩
  rw [codesAfter, ← shown.message, ← same]
  exact only

theorem retryWithArchive_spec (renders : reporter.RendersOwnCode)
    (current : session.Current reporter trial) (plain : trial.refusal = none)
    (native : session.context.native = false) (encounter : Encounter)
    (headers : Stage → Bytes × Bytes) :
    let after := reporter.retryWithArchive encounter headers session
    ∃ second rest last, second.stage = .archive ∧ after.trials = session.trials ++ second :: rest ∧
      (if !second.attempted then rest = []
        else NativeOnly (reporter.codesAfter session.context.requestBody second) rest) ∧
      after.Current reporter last ∧ after.fixed = session.fixed := by
  obtain ⟨ready, same, flag⟩ := current.forArchive plain
  dsimp only
  unfold retryWithArchive
  dsimp only
  split
  · rename_i fault chosen
    obtain ⟨trials, shown, fixed⟩ := ready.fault reporter .archive fault
    exact ⟨_, [], _, rfl, trials, rfl, shown, fixed.trans same⟩
  · rename_i context chosen
    obtain ⟨chose, kept, -⟩ := ready.choose (chooseTargetNode_kept chosen)
    obtain ⟨trials, shown, fixed⟩ := chose.noBackend reporter .archive
    exact ⟨_, [], _, rfl, trials, rfl, shown, fixed.trans (kept.trans same)⟩
  · rename_i node context chosen
    obtain ⟨chose, kept, chosenFlag⟩ := ready.choose (chooseTargetNode_kept chosen)
    obtain ⟨trials, shown, fixed, servedFlag, -⟩ := chose.attempt reporter .archive node
      (encounter.message headers .archive)
    obtain ⟨parsed, parsedTrials, parsedFixed, -, parsedFlag, -⟩ := shown.parsed
    obtain ⟨remembered, rememberedTrials, rememberedFixed, -, rememberedFlag⟩ := parsed.remembered
      (reporter.parseRPCErrorCodes _).1
    have flags := rememberedFlag.trans (parsedFlag.trans (servedFlag.trans (chosenFlag.trans
      (flag.trans native))))
    obtain ⟨rest, last, more, only, ends, final⟩ := native_after renders shown remembered rfl flags
      (rememberedFixed.trans parsedFixed) encounter headers
    have whole := fixed.trans (kept.trans same)
    refine ⟨.attempt .archive node (session.forArchive.choose context).context.archive
      (encounter.message headers .archive), rest, last, rfl, ?_, ?_, ends, final.trans whole⟩
    · rw [more, rememberedTrials, parsedTrials, trials, List.append_assoc]
      rfl
    · rw [← Session.requestBody_eq whole]
      exact only

/-- From the first answer on. -/
theorem answered_spec (renders : reporter.RendersOwnCode)
    (shown : session.Current reporter first) (trials : session.trials = [first])
    (staged : first.stage = .first) (attempted : first.attempted = true)
    (archived : session.context.archive = first.archive)
    (native : session.context.native = false) (encounter : Encounter)
    (headers : Stage → Bytes × Bytes) :
    let parsed := reporter.parseRPCErrorCodes session
    let after :=
      if shouldRetryWithArchive parsed.2.context parsed.1 then
        reporter.retryWithArchive encounter headers parsed.2
      else reporter.retryWithNative encounter headers parsed.1 parsed.2
    ∃ last, Follows (reporter.codesAfter session.context.requestBody) after.trials ∧
      after.Current reporter last ∧ after.fixed = session.fixed := by
  obtain ⟨parsed, parsedTrials, fixed, -, flag, archive⟩ := shown.parsed
  have flags := flag.trans native
  have codes : (reporter.parseRPCErrorCodes session).1 =
      reporter.codesAfter session.context.requestBody first := by
    rw [shown.sound.parse_eq, shown.message]
    rfl
  dsimp only
  unfold shouldRetryWithArchive
  rw [archive, archived, codes]
  split_ifs with retried
  · have asked := Bool.and_eq_true_iff.mp retried
    have plain := refusal_eq_none renders attempted (List.contains_iff_mem.mp asked.2) (.inl rfl)
    obtain ⟨second, rest, last, stage, more, only, ends, final⟩ :=
      retryWithArchive_spec renders parsed plain flags encounter headers
    refine ⟨last, ?_, ends, final.trans fixed⟩
    rw [more, parsedTrials, trials]
    refine ⟨staged, ?_⟩
    rw [attempted, if_neg (by simp), if_pos retried]
    exact ⟨second, rest, rfl, stage, Session.requestBody_eq fixed ▸ only⟩
  · rw [← codes]
    obtain ⟨rest, last, more, only, ends, final⟩ :=
      native_after renders shown parsed attempted flags fixed encounter headers
    refine ⟨last, ?_, ends, final⟩
    rw [more, parsedTrials, trials]
    refine ⟨staged, ?_⟩
    rw [attempted, if_neg (by simp), if_neg retried]
    exact only

/-- From the choice of the first node on, the stages follow one another as their answers ask. -/
theorem route_spec (renders : reporter.RendersOwnCode) (ready : session.Ready)
    (fresh : session.trials = []) (native : session.context.native = false) (encounter : Encounter)
    (headers : Stage → Bytes × Bytes) :
    let after := reporter.route encounter headers session
    ∃ last, Follows (reporter.codesAfter session.context.requestBody) after.trials ∧
      after.Current reporter last ∧ after.fixed = session.fixed := by
  dsimp only
  unfold route
  dsimp only
  have routed := @routeCachedArchiveHash_kept reporter.proxy.balancer session.context session.cache
  have start : ({ session with diverted :=
      (reporter.proxy.balancer.routeCachedArchiveHash session.cache session.context).1 } :
      Session).Ready :=
    ⟨ready.error, ready.responseError, ready.message, ready.memo, ready.calls⟩
  split
  · rename_i fault chosen
    obtain ⟨chose, kept, -⟩ := start.choose routed
    obtain ⟨trials, shown, fixed⟩ := chose.fault reporter .first fault
    refine ⟨_, ?_, shown, fixed.trans kept⟩
    rw [trials, show Session.trials _ = [] from fresh]
    exact ⟨rfl, rfl⟩
  · rename_i context chosen
    obtain ⟨chose, kept, -⟩ := start.choose (routed.trans (chooseFirstNode_kept chosen))
    obtain ⟨trials, shown, fixed⟩ := chose.noBackend reporter .first
    refine ⟨_, ?_, shown, fixed.trans kept⟩
    rw [show noBackendText .first = ascii "no backends available" from rfl] at trials
    rw [trials, show Session.trials _ = [] from fresh]
    exact ⟨rfl, rfl⟩
  · rename_i node context chosen
    have flagged : Kept context
        (if node.nodeType = nodeTypeArchive then { context with archive := true } else context) := by
      split_ifs
      · exact ⟨_, _, _, rfl⟩
      · exact .refl context
    obtain ⟨chose, kept, chosenFlag⟩ := start.choose
      (routed.trans ((chooseFirstNode_kept chosen).trans flagged))
    generalize (if node.nodeType = nodeTypeArchive then { context with archive := true } else context) =
      context at chose kept chosenFlag ⊢
    obtain ⟨trials, shown, fixed, servedFlag, archived⟩ := chose.attempt reporter .first node
      (encounter.message headers .first)
    have alone := trials.trans (congrArg (· ++ _) fresh)
    have whole := fixed.trans kept
    obtain ⟨last, follows, ends, final⟩ := answered_spec renders shown alone rfl rfl archived
      (servedFlag.trans (chosenFlag.trans native)) encounter headers
    rw [Session.requestBody_eq whole] at follows
    exact ⟨last, follows, ends, final.trans whole⟩

/-- The error of the context and the error in the response after the post-processors, from those
before them and the response that is held. -/
def settle (reporter : Reporter) (message : Message)
    (own : Option Failure × Option ErrorObject) : Option Failure × Option ErrorObject :=
  if message.body = [] ∨ reporter.announcesJSON message = false ∨ isBatch message.body = true ∨
      containsErrorKey message.body = false then own
  else
    match reporter.unmarshalError message.body with
    | none => (some .undecodable, own.2)
    | some responseError => (responseError.map Failure.object, responseError)

/-- The post-processors settle the two errors, and may ask the filter before. -/
theorem parseJRPCResponseBody_eq (sound : session.Sound) (reporter : Reporter) :
    let settled := reporter.settle session.message (session.error, session.responseError)
    ∃ base, (base = session ∨ base = session.recorded) ∧ reporter.parseJRPCResponseBody session =
      { base with error := settled.1, responseError := settled.2 } := by
  simp only [parseJRPCResponseBody, settle, sound.filter_eq rfl]
  by_cases empty : session.message.body = []
  · exact ⟨session, .inl rfl, by simp [empty]⟩
  cases announced : reporter.announcesJSON session.message with
  | false => exact ⟨session, .inl rfl, by simp [empty]⟩
  | true =>
    cases batch : isBatch session.message.body with
    | true => exact ⟨session, .inl rfl, by simp [empty]⟩
    | false =>
      refine ⟨session.recorded, .inr rfl, ?_⟩
      cases present : containsErrorKey session.message.body with
      | false => simp [empty, Session.recorded]
      | true =>
        cases reporter.unmarshalError session.message.body with
        | none => simp [empty, Session.recorded]
        | some responseError => simp [empty]

theorem parseJRPCResponseBody_spec (sound : session.Sound) (reporter : Reporter) :
    let after := reporter.parseJRPCResponseBody session
    after.Sound ∧ after.trials = session.trials ∧ after.message = session.message ∧
      after.fixed = session.fixed ∧ (after.error, after.responseError) =
        reporter.settle session.message (session.error, session.responseError) := by
  obtain ⟨base, which, same⟩ := parseJRPCResponseBody_eq sound reporter
  dsimp only
  rw [same]
  rcases which with rfl | rfl
  · exact ⟨⟨sound.memo, sound.calls⟩, rfl, rfl, rfl, rfl⟩
  · exact ⟨⟨sound.recorded.memo, sound.recorded.calls⟩, rfl, rfl, rfl, rfl⟩

end Reporter

/-- Nothing has been answered. -/
def Exchange.Silent (exchange : Exchange) : Prop :=
  exchange.error = none ∧ exchange.response = ⟨200, []⟩

/-- Processors that answer or leave the exchange silent, called in a row, do the same. -/
theorem callProcessors_silent {processors : List (Option Processor)}
    (steps : ∀ processor, some processor ∈ processors → ∀ exchange next,
      exchange.Silent → processor context exchange = .ok next →
        next.Silent ∨ next.response.body ≠ [])
    (silent : exchange.Silent)
    (called : callProcessors context processors exchange = .ok result) :
    result.Silent ∨ result.response.body ≠ [] := by
  induction processors generalizing exchange with
  | nil =>
    cases called
    exact .inl silent
  | cons processor processors inductionHypothesis =>
    have later := fun processor (listed : some processor ∈ processors) =>
      steps processor (List.mem_cons_of_mem _ listed)
    cases processor with
    | none =>
      have quiet : exchange.response.body = [] := by rw [silent.2]
      simp only [callProcessors, quiet, ne_eq, not_true_eq_false, if_false] at called
      exact inductionHypothesis later silent called
    | some processor =>
      obtain ⟨next, processed, ⟨answered, rfl⟩ | ⟨quiet, called⟩⟩ := callProcessors_cases called
      · exact .inr answered
      · rcases steps processor (by simp) exchange next silent processed with still | answered
        · exact inductionHypothesis later still called
        · exact absurd quiet answered

namespace Proxy

variable {proxy : Proxy}

theorem getPreProcessor_silent (written : ∀ object, proxy.balancer.marshalResponse object ≠ [])
    (called : callProcessors context (proxy.getPreProcessor arrival) arrival.exchange = .ok exchange) :
    exchange.Silent ∨ exchange.response.body ≠ [] := by
  refine callProcessors_silent ?_ ⟨rfl, rfl⟩ called
  intro processor listed before next silent processed
  simp only [getPreProcessor, List.mem_cons, List.not_mem_nil, or_false] at listed
  rcases listed with same | same | same | same
  · cases same
    rcases jRPCMethodDenied_cases processed with rfl | ⟨-, rfl⟩
    · exact .inr (answer_body_ne_nil written _ _ _ _)
    · exact .inl silent
  · cases same
    cases processed
    exact .inl silent
  · cases same
    rcases getLatestBlock_cases processed with
      ⟨-, rfl⟩ | ⟨status, object, rfl⟩ | ⟨height, id, payload, -, -, -, -, rfl⟩
    · exact .inl silent
    · exact .inr (answer_body_ne_nil written _ _ _ _)
    · exact .inl silent
  · split_ifs at same
    cases same
    rcases requestMirror_cases processed with rfl | ⟨-, mirrored, rfl⟩
    · exact .inl silent
    · exact .inl silent

end Proxy

namespace Reporter

variable {reporter : Reporter}

/-- A stage that another one follows set no error. -/
theorem refusal_of_follows (renders : reporter.RendersOwnCode)
    (follows : Follows (reporter.codesAfter requestBody) (before ++ trial :: next :: after)) :
    trial.refusal = none := by
  obtain ⟨attempted, archive | native⟩ := follows.asked
  · exact refusal_eq_none renders attempted archive (.inl rfl)
  · exact refusal_eq_none renders attempted native (.inr rfl)

/-- What a stage itself leaves in the two errors. -/
def ownErrors (trial : Trial) : Option Failure × Option ErrorObject :=
  (trial.refusal.map fun refusal => .gateway refusal.text,
    trial.refusal.map fun refusal => refusal.object.error)

/-- Decisions and accounting by the current attempt. -/
structure UsesCurrentAttempt (reporter : Reporter) (session : Session) (account : Account) : Prop where
  /-- The filter answers for the body that is held. -/
  calls : ∀ call ∈ session.filtered, call.1 = containsErrorKey call.2
  /-- Nothing is tried after a stage that set an error. -/
  stops : ∀ before trial after, session.trials = before ++ trial :: after →
    trial.refusal ≠ none → after = []
  /-- The response is that of the last stage, or the answer that there was no node for it. -/
  held : ∀ last, session.trials.getLast? = some last →
    session.message = reporter.heldAfter session.context.requestBody last
  /-- The counter follows from that response and the error of the last stage alone. -/
  counted : ∀ last, session.trials.getLast? = some last →
    let settled := reporter.settle session.message (ownErrors last)
    account = countFor session.context.isBatch settled.1 settled.2
  /-- A success at the end is not counted as a failure. -/
  success : ∀ stage node archive upstream,
    session.trials.getLast? = some (.attempt stage node archive upstream) →
    upstream.status ≠ 502 → upstream.status ≠ 504 →
    (containsErrorKey upstream.body = false ∨ reporter.unmarshalError upstream.body = some none) →
    ∀ code, account ≠ .failed code

theorem settle_of_success {message : Message}
    (success : containsErrorKey message.body = false ∨
      reporter.unmarshalError message.body = some none) :
    (reporter.settle message (none, none)).1 = none := by
  unfold settle
  split_ifs with skipped
  · rfl
  · rcases success with absent | decoded
    · exact absurd (.inr (.inr (.inr absent))) skipped
    · rw [decoded]
      rfl

theorem countFor_ne_failed (isBatch : Bool) (responseError : Option ErrorObject) (code : Int) :
    countFor isBatch none responseError ≠ .failed code := by
  cases isBatch <;> simp [countFor]

/-- A session that shows its last stage, after the post-processors. -/
theorem usesCurrentAttempt_of_current (renders : reporter.RendersOwnCode) {session : Session}
    (current : session.Current reporter last)
    (follows : Follows (reporter.codesAfter session.context.requestBody) session.trials) :
    let after := reporter.parseJRPCResponseBody session
    Follows (reporter.codesAfter after.context.requestBody) after.trials ∧
      reporter.UsesCurrentAttempt after (updatePostProcessorMetrics after) := by
  obtain ⟨sound, trials, message, fixed, settled⟩ :=
    parseJRPCResponseBody_spec current.sound reporter
  generalize reporter.parseJRPCResponseBody session = after at sound trials message fixed settled ⊢
  have body := Session.requestBody_eq fixed
  have latest (other : Trial) (shown : after.trials.getLast? = some other) : other = last := by
    rw [trials, current.last] at shown
    exact (Option.some.inj shown).symm
  have counted : updatePostProcessorMetrics after = countFor after.context.isBatch
      (reporter.settle after.message (ownErrors last)).1
      (reporter.settle after.message (ownErrors last)).2 := by
    have own : ownErrors last = (session.error, session.responseError) := by
      rw [ownErrors, current.error, current.responseError]
    rw [message, own, ← settled]
    rfl
  refine ⟨?_, sound.calls, ?_, ?_, ?_, ?_⟩
  · rw [body, trials]
    exact follows
  · intro before trial rest split refused
    cases rest with
    | nil => rfl
    | cons next rest =>
      rw [trials.symm.trans split] at follows
      exact absurd (refusal_of_follows renders follows) refused
  · intro other shown
    rw [latest other shown, message, body]
    exact current.message
  · intro other shown
    rw [latest other shown]
    exact counted
  · intro stage node archive upstream shown timely whole succeeds code
    have same := latest _ shown
    have plain : last.refusal = none := by
      rw [← same]
      simp [Trial.refusal, timely, whole]
    have held : after.message = upstream := by
      rw [message, current.message, heldAfter, plain, ← same]
      rfl
    rw [counted, held, show ownErrors last = (none, none) by simp [ownErrors, plain],
      settle_of_success succeeds]
    exact countFor_ne_failed _ _ code

theorem start_ready (cache : ArchiveHashCache) {context : RoutedContext} {exchange : Exchange}
    (silent : exchange.Silent) (fresh : context.memo.responseErrorKey = none) :
    (start cache context exchange).Ready := by
  obtain ⟨error, response⟩ := silent
  refine ⟨?_, rfl, ?_, fresh, by simp [start]⟩
  · simp [start, error]
  · simp [start, response, Message.reset]

/-- Behind an answer of a pre-processor there are no stages, and one question to the filter. -/
theorem usesCurrentAttempt_of_answered (reporter : Reporter) (cache : ArchiveHashCache)
    (context : RoutedContext) (exchange : Exchange)
    (fresh : context.memo.responseErrorKey = none) :
    let after := reporter.parseJRPCResponseBody (start cache context exchange)
    after.trials = [] ∧ reporter.UsesCurrentAttempt after (updatePostProcessorMetrics after) := by
  have ready : (start cache context exchange).Sound := by
    refine ⟨fun known held => ?_, by simp [start]⟩
    rw [show (start cache context exchange).context = context from rfl, fresh] at held
    cases held
  obtain ⟨sound, trials, -⟩ := parseJRPCResponseBody_spec ready reporter
  have none : (reporter.parseJRPCResponseBody (start cache context exchange)).trials = [] := trials
  refine ⟨none, sound.calls, ?_, ?_, ?_, ?_⟩
  · intro before trial rest split
    simp [none] at split
  · intro last shown
    simp [none] at shown
  · intro last shown
    simp [none] at shown
  · intro stage node archive upstream shown
    simp [none] at shown

/-- Every run of `ServeHTTP` is answered by a pre-processor or goes through stages, each retry
exactly when the recognised codes of the answer before it ask for it; the filter is asked about the
body that is held, an error of the proxy's own ends the stages, and the counter at the end follows
from the last of them alone. -/
theorem serveHTTP_uses_current_attempt (reporter : Reporter)
    (written : ∀ object, reporter.proxy.balancer.marshalResponse object ≠ [])
    (renders : reporter.RendersOwnCode) (cache : ArchiveHashCache) (arrival : Arrival)
    (headers : Stage → Bytes × Bytes) (session : Session) (account : Account)
    (ran : reporter.serveHTTP cache arrival headers = .ok (some (session, account))) :
    ((∃ exchange, reporter.proxy.preprocess arrival = .ok (some exchange) ∧
        exchange.response.body ≠ [] ∧ session.trials = []) ∨
      Follows (reporter.codesAfter session.context.requestBody) session.trials) ∧
    reporter.UsesCurrentAttempt session account := by
  obtain ⟨request, chainId, exchange, received, valid, chain, called, rfl, rfl⟩ :=
    serveHTTP_cases ran
  by_cases answered : exchange.response.body ≠ []
  · simp only [if_pos answered]
    obtain ⟨trials, uses⟩ := usesCurrentAttempt_of_answered reporter cache
      (Proxy.routed request chainId) exchange rfl
    exact ⟨.inl ⟨exchange, Proxy.preprocess_eq_some_iff.mpr
      ⟨request, chainId, received, valid, chain, called⟩, answered, trials⟩, uses⟩
  · simp only [if_neg answered]
    have silent := (Proxy.getPreProcessor_silent written called).resolve_right answered
    obtain ⟨last, follows, current, fixed⟩ := route_spec renders
      (start_ready cache silent (show (Proxy.routed request chainId).memo.responseErrorKey = none
        from rfl)) rfl rfl (arrival.encounter none) headers
    rw [← Session.requestBody_eq fixed] at follows
    obtain ⟨stages, uses⟩ := usesCurrentAttempt_of_current renders current follows
    exact ⟨.inr stages, uses⟩

/-- The answer of a node that lacks the state, with one letter of the key escaped. -/
def escapedAnswer : Bytes :=
  ascii ("\x7b\"jsonrpc\":\"2.0\",\"id\":1," ++
    "\"err\\u006fr\":\x7b\"code\":-39006,\"message\":\"state block not found\"\x7d\x7d")

/-- The error a node gives, whichever way its key is spelled. -/
def errorOf (body : Bytes) : Option ErrorObject :=
  if body = Balancer.plainAnswer ∨ body = escapedAnswer then
    some ⟨stateBlockNotFound, ascii "state block not found", []⟩
  else none

def lowerCase (text : Bytes) : Bytes :=
  text.map fun byte => if 65 ≤ byte ∧ byte ≤ 90 then byte + 32 else byte

/-- What is written stands behind what was there. -/
def answerReporter : Reporter where
  proxy :=
    { balancer := { Balancer.sampleBalancer with
        errorCode := fun body => some ((errorOf body).map ErrorObject.code) }
      methodDenied := none
      mirrorEnable := false
      marshalPayload := fun _ _ => none }
  toLower := lowerCase
  render old object := old ++ object.text
  unmarshalError body := some (errorOf body)

/-- In what the proxy writes the error stands before the id, in what a node answers behind it. -/
theorem errorOf_written (old : Bytes) (object : ResponseObject) :
    errorOf (trimSpace (old ++ object.text)) = none := by
  have marked : ascii "\x7d,\"id\":" <:+: trimSpace (old ++ object.text) :=
    (infix_trimSpace (show spacing 125 = false by decide) (show spacing 58 = false by decide)
      (ascii ",\"id\"") (old ++ object.text)).mpr
      (object.mark_infix_text.trans (List.suffix_append _ _).isInfix)
  have unmarked : ¬ascii "\x7d,\"id\":" <:+: Balancer.plainAnswer ∧
      ¬ascii "\x7d,\"id\":" <:+: escapedAnswer := by decide +kernel
  refine if_neg ?_
  rintro (same | same)
  · exact unmarked.1 (same ▸ marked)
  · exact unmarked.2 (same ▸ marked)

theorem answerReporter_renders : answerReporter.RendersOwnCode := by
  intro old object code listed
  have decoded : answerReporter.proxy.balancer.errorCode (trimSpace (old ++ object.text)) =
      some none := congrArg (fun error => some (Option.map ErrorObject.code error))
    (errorOf_written old object)
  unfold topLevelCodes Balancer.decodeErrorCodes at listed
  dsimp only at listed
  rw [show answerReporter.render old object = old ++ object.text from rfl, decoded] at listed
  split_ifs at listed
  · cases listed
  · cases listed
  · cases listed

/-- A chain with a state node that gives this answer, and an archive node that has a result. -/
def answerArrival (answer : Bytes) : Arrival :=
  { Arrival.sample Balancer.sampleBody with
    selector := Balancer.sampleEncounter.selector
    upstream := fun stage =>
      if stage = .first then ⟨200, answer⟩ else ⟨200, Balancer.resultAnswer⟩ }

theorem serveHTTP_uses_current_attempt_sample :
    ∃ session account,
      answerReporter.serveHTTP .empty (answerArrival Balancer.plainAnswer)
          (fun _ => (jsonContentType, [])) =
        .ok (some (session, account)) ∧
      session.trials.map Trial.stage = [.first, .archive] ∧ account = .finished ∧
      Follows (answerReporter.codesAfter session.context.requestBody) session.trials ∧
      answerReporter.UsesCurrentAttempt session account := by
  obtain ⟨⟨session, account⟩, ran, seen⟩ := Checked.exists_of_view
    (show ((answerReporter.serveHTTP .empty (answerArrival Balancer.plainAnswer)
        (fun _ => (jsonContentType, []))).toOption.join.map
          fun run => (run.1.trials.map Trial.stage, run.2)) =
      some ([.first, .archive], .finished) by decide +kernel)
  obtain ⟨tried, counted⟩ := Prod.mk.inj seen
  obtain ⟨stages, uses⟩ := serveHTTP_uses_current_attempt answerReporter
    ResponseObject.text_ne_nil answerReporter_renders .empty (answerArrival Balancer.plainAnswer)
    (fun _ => (jsonContentType, [])) session account ran
  refine ⟨session, account, ran, tried, counted, stages.resolve_left ?_, uses⟩
  rintro ⟨exchange, -, -, none⟩
  simp [none] at tried

/-- The filter does not recognise an escaped key, so the error code under it asks for no retry. -/
theorem escaped_error_key_is_not_retried :
    ∃ session account,
      answerReporter.serveHTTP .empty (answerArrival escapedAnswer) (fun _ => (jsonContentType, [])) =
        .ok (some (session, account)) ∧
      session.trials.map Trial.stage = [.first] ∧ session.message.body = escapedAnswer ∧
      stateBlockNotFound ∈ answerReporter.topLevelCodes session.message.body ∧
      ¬Follows (fun trial => answerReporter.topLevelCodes
        (answerReporter.heldAfter session.context.requestBody trial).body) session.trials := by
  obtain ⟨⟨session, account⟩, ran, seen⟩ := Checked.exists_of_view
    (show ((answerReporter.serveHTTP .empty (answerArrival escapedAnswer)
        (fun _ => (jsonContentType, []))).toOption.join.map
          fun run => (run.1.trials, run.1.message.body)) =
      some ([.attempt .first
        ⟨ascii "n", ascii "10.0.0.1", 8545, ascii "10.0.0.1:8545", ascii "official", 1,
          stateAvailable, nodeTypeState⟩ false
        ⟨⟨200, escapedAnswer⟩, jsonContentType, []⟩], escapedAnswer) by decide +kernel)
  obtain ⟨tried, held⟩ := Prod.mk.inj seen
  have asked : stateBlockNotFound ∈ answerReporter.topLevelCodes escapedAnswer := by decide +kernel
  dsimp only at tried held
  refine ⟨session, account, ran, by rw [tried]; rfl, held, by rw [held]; exact asked,
    fun follows => ?_⟩
  rw [tried] at follows
  exact follows.unasked rfl rfl asked

end Reporter

end NodexProxy.Lb
