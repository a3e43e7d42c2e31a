import NodexProxy.Lb.BodyRewrite

/-! The handler over memory seen from outside: it sends the same requests to the same nodes, gives
the same response and leaves the same cache as the handler that works on what was parsed. -/

namespace NodexProxy.Lb

open NodexProxy.Foundation NodexProxy.Discovery NodexProxy.Jsonrpc

/-- Only what is memoised was changed. -/
def Noted (context after : RoutedContext) : Prop := { context with memo := after.memo } = after

theorem Balancer.getBlockContext_noted (balancer : Balancer) (context : RoutedContext) :
    Noted context (balancer.getBlockContext context).2 := by
  unfold getBlockContext
  split_ifs <;> rfl

theorem Balancer.parseRPCErrorCodes_noted (balancer : Balancer) (context : RoutedContext)
    (body : Bytes) : Noted context (balancer.parseRPCErrorCodes context body).2 :=
  parseRPCErrorCodes_memo context body balancer

theorem Balancer.writeError_eq (balancer : Balancer) (held : Bytes)
    (requestBody : List (Option RequestObject)) (status : Int) (object : ResponseObject) :
    balancer.writeError held requestBody status object =
      ⟨status, held ++ balancer.marshalResponse (echoID requestBody object)⟩ := by
  rcases requestBody with _ | ⟨_ | request, _ | ⟨next, rest⟩⟩
  all_goals rfl

namespace Proxy

variable {proxy : Proxy} {cache : ArchiveHashCache} {arrival : Arrival} {request : RequestContext}

theorem handle_of_fault
    (received : generateRequestContext proxy.balancer.sonic arrival.nodeType arrival.received =
      .error fault) : (proxy.handle cache arrival).2 = ⟨false, [], .error fault, cache⟩ := by
  simp [handle, preprocess, received]
  rfl

theorem handle_of_rejected
    (received : generateRequestContext proxy.balancer.sonic arrival.nodeType arrival.received =
      .ok request) (failed : request.error = some error) :
    (proxy.handle cache arrival).2 = ⟨false, [], .ok (proxy.balancer.writeError [] request.requestBody
      200 (badRequest error.error)), cache⟩ := by
  simp [handle, preprocess, Balancer.serveHTTP, Arrival.encounter, received, failed]

theorem handle_of_unchained
    (received : generateRequestContext proxy.balancer.sonic arrival.nodeType arrival.received =
      .ok request) (valid : request.error = none)
    (chain : effectiveChainID arrival.overrides arrival.chainID = none) :
    (proxy.handle cache arrival).2 = ⟨false, [], .ok (proxy.balancer.writeError [] request.requestBody
      200 (badRequest (ascii "invalid chain id"))), cache⟩ := by
  simp [handle, preprocess, Balancer.serveHTTP, Arrival.encounter, received, valid, chain]

/-- The visit after the processors: the request is routed unless one of them has answered it. -/
def resume (proxy : Proxy) (cache : ArchiveHashCache) (arrival : Arrival) (context : RoutedContext) :
    Checked Exchange → Visit
  | .error fault => ⟨false, [], .error fault, cache⟩
  | .ok exchange =>
    if exchange.response.body ≠ [] then ⟨false, [], .ok exchange.response, cache⟩
    else proxy.balancer.route cache (arrival.encounter none) context

theorem handle_of_routed
    (received : generateRequestContext proxy.balancer.sonic arrival.nodeType arrival.received =
      .ok request) (valid : request.error = none)
    (chain : effectiveChainID arrival.overrides arrival.chainID = some chainId) :
    (proxy.handle cache arrival).2 = proxy.resume cache arrival (routed request chainId)
      (callProcessors (routed request chainId) (proxy.getPreProcessor arrival) arrival.exchange) := by
  cases called : callProcessors (routed request chainId) (proxy.getPreProcessor arrival)
    arrival.exchange with
  | error fault =>
    simp [handle, preprocess, received, valid, chain, called]
    rfl
  | ok exchange =>
    by_cases silent : exchange.response.body = []
    · simp [handle, preprocess, Balancer.serveHTTP, Arrival.encounter, resume,
        received, valid, chain, called, silent]
      rfl
    · simp [handle, preprocess, Balancer.serveHTTP, Arrival.encounter, resume,
        received, valid, chain, called, silent]

end Proxy

namespace Live

def visit (live : Live) : Visit := ⟨live.diverted, live.attempts, .ok live.exchange.response, live.cache⟩

/-- Only flags and what is memoised were changed, to those of the context. -/
structure Reaches (live : Live) (context : RoutedContext) (after : Live) : Prop where
  exchange : after.exchange = live.exchange
  visit : after.visit = live.visit
  load : after.load = context

/-- A program over memory returns what a function of the context returns. -/
def Follows (outcome : Checked (Value × Live)) (live : Live)
    (reference : Checked (Value × RoutedContext)) : Prop :=
  Checked.Related (fun out ref => out.1 = ref.1 ∧ live.Reaches ref.2 out.2) outcome reference

/-- A program over memory ends as a visit does. -/
def Ends (outcome : Checked (Unit × Live)) (visit : Visit) : Prop :=
  match outcome with
  | .error fault => visit.response = .error fault
  | .ok (_, live) => live.visit = visit

variable {balancer : Balancer}

/-- The state `GetBlockContext` leaves. -/
def evaluate (balancer : Balancer) (live : Live) : Live :=
  { live with
    memo := (balancer.getBlockContext live.load).2.memo
    evaluated := live.evaluated ++ [(balancer.getBlockContext live.load).1] }

theorem evaluate_load (live : Live) :
    (live.evaluate balancer).load = (balancer.getBlockContext live.load).2 :=
  balancer.getBlockContext_noted live.load

theorem evaluate_reaches (live : Live) :
    live.Reaches (live.evaluate balancer).load (live.evaluate balancer) := ⟨rfl, rfl, rfl⟩

theorem requestBlockHash_run (live : Live) :
    (requestBlockHash balancer).run live =
      .ok (pinnedHash (balancer.getBlockContext live.load).1, live.evaluate balancer) := rfl

/-- The state in which a node is asked for, once one was found or not. -/
def choose (balancer : Balancer) (live : Live) (node : Option Node) : Live :=
  { live.evaluate balancer with targetNodeAddr := (node.map Node.addr).getD [] }

theorem chooseTargetNode_run (selector : Selector) (requestKey : Bytes) (live : Live) :
    (chooseTargetNode balancer selector requestKey).run live =
      getNode selector live.chainId live.method live.isBatch live.archive
        (balancer.getBlockContext live.load).1 requestKey >>= fun node =>
      .ok (node, live.choose balancer node) := by
  have cleared : (clearTargetNode).run live = .ok ((), { live with targetNodeAddr := [] }) := rfl
  have asked : (getBlockContext balancer).run { live with targetNodeAddr := [] } =
      .ok ((balancer.getBlockContext live.load).1, live.choose balancer none) := rfl
  have read : (get : Serving Live).run (live.choose balancer none) =
      .ok (live.choose balancer none, live.choose balancer none) := rfl
  unfold chooseTargetNode
  rw [run_bind_of_ok cleared, run_bind_of_ok asked, run_bind_of_ok read, run_lift_bind]
  refine bind_congr fun node => ?_
  cases node <;> rfl

theorem chooseTargetNode_follows (selector : Selector) (requestKey : Bytes) (live : Live) :
    Follows ((chooseTargetNode balancer selector requestKey).run live) live
      (balancer.chooseTargetNode selector live.load requestKey) := by
  unfold Balancer.chooseTargetNode
  rw [chooseTargetNode_run]
  dsimp only
  rw [← evaluate_load]
  exact .after fun node => .ok ⟨rfl, rfl, rfl, rfl⟩

theorem Reaches.refl (live : Live) : live.Reaches live.load live := ⟨rfl, rfl, rfl⟩

theorem Follows.earlier {live middle : Live} {outcome : Checked (Value × Live)}
    {reference : Checked (Value × RoutedContext)} (follows : Follows outcome middle reference)
    (exchange : middle.exchange = live.exchange) (visit : middle.visit = live.visit) :
    Follows outcome live reference := by
  cases follows with
  | error => exact .error
  | ok both =>
    obtain ⟨value, reaches⟩ := both
    exact .ok ⟨value, reaches.exchange.trans exchange, reaches.visit.trans visit, reaches.load⟩

theorem Follows.stay (value : Value) (live : Live) :
    Follows ((return value : Serving Value).run live) live (.ok (value, live.load)) :=
  .ok ⟨rfl, .refl live⟩

theorem routeCachedArchiveHash_follows (live : Live) :
    Follows ((routeCachedArchiveHash balancer).run live) live
      (.ok (balancer.routeCachedArchiveHash live.cache live.load)) := by
  unfold Balancer.routeCachedArchiveHash Balancer.requestBlockHash
  dsimp only
  rw [← evaluate_load]
  let same (outcome : Checked (Bool × Live)) (reference : Bool × RoutedContext) :=
    Follows outcome live (.ok reference)
  refine run_ite same (.stay false live) fun _ => run_ite same (.stay false live) fun _ => ?_
  rw [StateT.run_bind, requestBlockHash_run, Checked.ok_bind]
  cases pinnedHash (balancer.getBlockContext live.load).1 with
  | none => exact .ok ⟨rfl, evaluate_reaches live⟩
  | some hash =>
    exact run_ite same (.ok ⟨rfl, evaluate_reaches live⟩) fun _ => .ok ⟨rfl, rfl, rfl, rfl⟩

theorem chooseFirstNode_follows (arrival : Arrival) (cachedArchive : Bool) (live : Live) :
    Follows ((chooseFirstNode balancer arrival cachedArchive).run live) live
      (balancer.chooseFirstNode (arrival.encounter none) cachedArchive live.load) := by
  refine .bind (chooseTargetNode_follows (arrival.selector .first) [] live) fun out ref both => ?_
  obtain ⟨node, middle⟩ := out
  obtain ⟨_, context⟩ := ref
  obtain ⟨rfl, reaches⟩ := both
  obtain rfl := reaches.load
  dsimp only
  split_ifs
  · exact (chooseTargetNode_follows (arrival.selector .fallback) []
      { middle with archive := false }).earlier reaches.exchange reaches.visit
  · exact .ok ⟨rfl, reaches⟩

/-- An object is written as the response. -/
theorem writeError_ends (live : Live) (status : Int) (object : ResponseObject) :
    Ends ((writeError balancer status object).run live)
      { live.visit with response := .ok (balancer.writeError live.exchange.response.body
        live.load.requestBody status object) } := by
  rw [Balancer.writeError_eq]
  rfl

/-- The state `overwrite` leaves. -/
def reject (balancer : Balancer) (status : Int) (object : ResponseObject) (live : Live) : Live :=
  if live.exchange.response.status = status then
    { live.respond ⟨status, live.exchange.response.body ++
        balancer.marshalResponse (echoID live.requestBody object)⟩ with
      written := some (echoID live.requestBody object), held := live.exchange.response.body }
  else live

theorem overwrite_run (status : Int) (object : ResponseObject) (live : Live) :
    (overwrite balancer status object).run live = .ok ((), live.reject balancer status object) := by
  have ran : (overwrite balancer status object).run live =
      (if live.exchange.response.status = status then writeError balancer status object
        else return ()).run live := rfl
  rw [ran, reject]
  split_ifs <;> rfl

theorem reject_response (status : Int) (object : ResponseObject) (live : Live) :
    (live.reject balancer status object).exchange.response =
      if live.exchange.response.status = status then
        balancer.writeError live.exchange.response.body live.load.requestBody status object
      else live.exchange.response := by
  unfold reject
  split_ifs
  · exact (balancer.writeError_eq _ _ _ _).symm
  · rfl

theorem reject_kept (status : Int) (object : ResponseObject) (live : Live) :
    (live.reject balancer status object).load = live.load ∧
      (live.reject balancer status object).visit =
        { live.visit with response := .ok (live.reject balancer status object).exchange.response } := by
  unfold reject
  split_ifs <;> exact ⟨rfl, rfl⟩

/-- One more attempt. -/
theorem attemptRequest_run (node : Node) (upstream : Response) (live : Live) :
    ∃ after, (attemptRequest balancer node upstream).run live = .ok ((), after) ∧
      after.load = (balancer.attemptRequest live.load node upstream).2 ∧
      after.exchange.response = (balancer.attemptRequest live.load node upstream).1.response ∧
      after.visit =
        { live.visit with
          attempts := live.visit.attempts ++ [(balancer.attemptRequest live.load node upstream).1]
          response := .ok (balancer.attemptRequest live.load node upstream).1.response } := by
  let received := live.resetResponseErrorKey.respond upstream
  let timed := received.reject balancer 504
    (gatewayTimeout (ascii "reverse proxy gateway timeout"))
  let checked := timed.reject balancer 502 (badGateway (ascii "reverse proxy bad gateway"))
  have ran : (attemptRequest balancer node upstream).run live =
      .ok ((), { checked with attempts :=
        checked.attempts ++ [⟨node, checked.archive, checked.exchange.response⟩] }) := by
    simp only [attemptRequest, StateT.run_bind, StateT.run_modify, Checked.pure_eq, Checked.ok_bind,
      overwrite_run]
    rfl
  obtain ⟨timedLoad, timedVisit⟩ := @reject_kept balancer 504
    (gatewayTimeout (ascii "reverse proxy gateway timeout")) received
  obtain ⟨checkedLoad, checkedVisit⟩ := @reject_kept balancer 502
    (badGateway (ascii "reverse proxy bad gateway")) timed
  have load : checked.load = received.load := checkedLoad.trans timedLoad
  have response : checked.exchange.response = balancer.receive live.load.requestBody upstream := by
    have first := @reject_response balancer 504
      (gatewayTimeout (ascii "reverse proxy gateway timeout")) received
    have second := @reject_response balancer 502
      (badGateway (ascii "reverse proxy bad gateway")) timed
    rw [show timed.load = received.load from timedLoad, show timed.exchange.response = _ from first]
      at second
    exact second
  have visit : checked.visit = { live.visit with response := .ok checked.exchange.response } := by
    rw [show timed.visit = _ from timedVisit] at checkedVisit
    exact checkedVisit
  have attempt : (⟨node, checked.archive, checked.exchange.response⟩ : Attempt) =
      (balancer.attemptRequest live.load node upstream).1 := by
    rw [response, show checked.archive = checked.load.archive from rfl, load]
    rfl
  refine ⟨_, ran, load, response, ?_⟩
  rw [attempt]
  refine Eq.trans (b := { checked.visit with attempts := checked.visit.attempts ++
    [(balancer.attemptRequest live.load node upstream).1] }) rfl ?_
  rw [visit, response]
  rfl

/-- A program over memory changes at most the cache and what is memoised. -/
def Remembers (live : Live) (outcome : Checked (Unit × Live))
    (reference : ArchiveHashCache × RoutedContext) : Prop :=
  ∃ after, outcome = .ok ((), after) ∧ after.visit = { live.visit with cache := reference.1 } ∧
    after.load = reference.2

theorem rememberArchiveHash_remembers (codes : List Int) (live : Live) :
    live.Remembers ((rememberArchiveHash balancer codes).run live)
      (balancer.rememberArchiveHash live.cache live.load live.exchange.response.status codes) := by
  unfold Balancer.rememberArchiveHash Balancer.requestBlockHash
  dsimp only
  rw [← evaluate_load]
  refine run_ite live.Remembers ⟨live, rfl, rfl, rfl⟩ fun _ =>
    run_ite live.Remembers ⟨live, rfl, rfl, rfl⟩ fun _ => ?_
  rw [StateT.run_bind, requestBlockHash_run, Checked.ok_bind]
  cases pinnedHash (balancer.getBlockContext live.load).1 with
  | none => exact ⟨_, rfl, rfl, rfl⟩
  | some hash => exact ⟨_, rfl, rfl, rfl⟩

theorem parseRPCErrorCodes_run (live : Live) :
    ∃ after, (parseRPCErrorCodes balancer).run live =
        .ok ((balancer.parseRPCErrorCodes live.load live.exchange.response.body).1, after) ∧
      live.Reaches (balancer.parseRPCErrorCodes live.load live.exchange.response.body).2 after :=
  ⟨_, rfl, rfl, rfl, balancer.parseRPCErrorCodes_noted live.load live.exchange.response.body⟩

/-- A request is sent to a node, and the codes of its response are read. -/
theorem trial_run {node : Node} {upstream : Response} {live : Live} {attempt : Attempt}
    {context decoded : RoutedContext} {codes : List Int}
    (tries : balancer.attemptRequest live.load node upstream = (attempt, context))
    (decodes : balancer.parseRPCErrorCodes context attempt.response.body = (codes, decoded))
    (next : List Int → Serving Unit) :
    ∃ after : Live,
      (attemptRequest balancer node upstream >>= fun _ =>
        parseRPCErrorCodes balancer >>= next).run live = (next codes).run after ∧
      after.load = decoded ∧ after.exchange.response = attempt.response ∧
      after.visit = { live.visit with
        attempts := live.visit.attempts ++ [attempt], response := .ok attempt.response } := by
  obtain ⟨tried, ran, load, response, shown⟩ := @attemptRequest_run balancer node upstream live
  rw [tries] at load response shown
  obtain ⟨after, parsed, reaches⟩ := @parseRPCErrorCodes_run balancer tried
  rw [load, response, decodes] at parsed reaches
  refine ⟨after, ?_, reaches.load, ?_, reaches.visit.trans shown⟩
  · rw [run_bind_of_ok ran, run_bind_of_ok parsed]
  · rw [reaches.exchange]
    exact response

theorem Ends.of_eq {outcome other : Checked (Unit × Live)} {visit : Visit} (same : outcome = other)
    (ends : Ends other visit) : Ends outcome visit :=
  same ▸ ends

/-- A stage: its node is chosen, and there is none to send the request to, or the request goes on
with it. -/
theorem stage_ends {live : Live} (blank : live.exchange.response.body = []) {choice : Checked (Option Node × Live)}
    {reference : Checked (Option Node × RoutedContext)} (follows : Follows choice live reference)
    {visit : Visit} (same : ∀ response, { live.visit with response } = { visit with response })
    (message : String) {next : Node → Serving Unit} {after : Node → RoutedContext → Visit}
    (ends : ∀ node middle, middle.exchange = live.exchange → middle.visit = live.visit →
      Ends ((next node).run middle) (after node middle.load)) :
    Ends (choice >>= fun out =>
        (match out.1 with
        | none => writeNoBackend balancer message
        | some node => next node).run out.2)
      (match reference with
      | .error fault => { visit with response := .error fault }
      | .ok (none, context) =>
        { visit with response := .ok (balancer.writeNoBackend context message) }
      | .ok (some node, context) => after node context) := by
  cases follows with
  | error => rfl
  | @ok out ref both =>
    obtain ⟨node, middle⟩ := out
    obtain ⟨_, context⟩ := ref
    obtain ⟨rfl, reaches⟩ := both
    obtain rfl := reaches.load
    cases node with
    | none =>
      dsimp only
      rw [← same, ← reaches.visit]
      have ends := @writeError_ends balancer middle 200 (badGateway (ascii message))
      rw [reaches.exchange, blank] at ends
      exact ends
    | some node => exact ends node middle reaches.exchange reaches.visit

theorem retryWithNative_ends (arrival : Arrival) (codes : List Int) (live : Live) :
    Ends ((retryWithNative balancer arrival codes).run live)
      (balancer.retryWithNative (arrival.encounter none) live.load codes live.visit) := by
  unfold Balancer.retryWithNative
  refine run_ite Ends ?_ fun _ => rfl
  have follows := @chooseTargetNode_follows balancer (arrival.selector .native) (ascii "native")
    { live.resetResponseErrorKey.respond ⟨200, []⟩ with native := true }
  refine stage_ends rfl follows (fun _ => rfl) "no native backends available" fun node middle _ visit => ?_
  obtain ⟨after, ran, -, -, shown⟩ := @attemptRequest_run balancer node (arrival.upstream .native) middle
  rw [ran]
  rw [visit] at shown
  exact shown

theorem retryWithArchive_ends (arrival : Arrival) (live : Live) :
    Ends ((retryWithArchive balancer arrival).run live)
      (balancer.retryWithArchive (arrival.encounter none) live.load live.visit) := by
  unfold Balancer.retryWithArchive
  have follows := @chooseTargetNode_follows balancer (arrival.selector .archive) []
    { live.resetResponseErrorKey.respond ⟨200, []⟩ with archive := true }
  refine stage_ends rfl follows (fun _ => rfl) "no backends available" fun node middle _ visit => ?_
  dsimp only
  rcases tries : balancer.attemptRequest middle.load node
    ((arrival.encounter none).upstream .archive) with ⟨attempt, context⟩
  rcases decodes : balancer.parseRPCErrorCodes context attempt.response.body with ⟨codes, decoded⟩
  obtain ⟨tried, ran, load, response, shown⟩ := trial_run tries decodes fun codes => do
    rememberArchiveHash balancer codes
    retryWithNative balancer arrival codes
  obtain ⟨after, kept, visited, loaded⟩ := @rememberArchiveHash_remembers balancer codes tried
  rw [visit] at shown
  have cache : tried.cache = live.visit.cache := congrArg Visit.cache shown
  have ends := @retryWithNative_ends balancer arrival codes after
  rw [loaded, visited, load, cache, response, shown] at ends
  exact .of_eq (ran.trans (run_bind_of_ok kept _)) ends

theorem Follows.inv {outcome : Checked (Value × Live)} {live : Live}
    {reference : Value × RoutedContext} (follows : Follows outcome live (.ok reference)) :
    ∃ after, outcome = .ok (reference.1, after) ∧ live.Reaches reference.2 after := by
  cases follows with
  | @ok out ref both =>
    obtain ⟨value, after⟩ := out
    obtain ⟨rfl, reaches⟩ := both
    exact ⟨after, rfl, reaches⟩

theorem route_ends (arrival : Arrival) (live : Live) (fresh : live.attempts = [])
    (blank : live.exchange.response.body = []) :
    Ends ((route balancer arrival).run live)
      (balancer.route live.cache (arrival.encounter none) live.load) := by
  obtain ⟨middle, ran, reaches⟩ := (@routeCachedArchiveHash_follows balancer live).inv
  unfold Balancer.route Live.route
  rw [run_bind_of_ok ran]
  dsimp only
  rw [← reaches.load]
  generalize (balancer.routeCachedArchiveHash live.cache live.load).1 = cachedArchive
  let diverted : Live := { middle with diverted := cachedArchive }
  have cache : middle.cache = live.cache := congrArg Visit.cache reaches.visit
  have attempts : middle.attempts = [] := (congrArg Visit.attempts reaches.visit).trans fresh
  have start : diverted.visit = ⟨cachedArchive, [], .ok middle.exchange.response, live.cache⟩ := by
    rw [← cache, ← attempts]
    rfl
  have follows := @chooseFirstNode_follows balancer arrival cachedArchive diverted
  refine @stage_ends balancer diverted (reaches.exchange ▸ blank) _ _ follows ⟨cachedArchive, [], .ok ⟨0, []⟩, live.cache⟩
    (fun response => by rw [start]) "no backends available" _ _ fun node chosen _ visit => ?_
  let marked : Live := if node.nodeType = nodeTypeArchive then { chosen with archive := true } else chosen
  have load : marked.load =
      if node.nodeType = nodeTypeArchive then { chosen.load with archive := true } else chosen.load :=
    apply_ite Live.load ..
  have shows : marked.visit = diverted.visit := by
    rw [← visit, show marked.visit = _ from apply_ite Live.visit .., ite_eq_right_iff]
    exact fun _ => rfl
  rw [← load]
  rcases tries : balancer.attemptRequest marked.load node
    ((arrival.encounter none).upstream .first) with ⟨attempt, context⟩
  rcases decodes : balancer.parseRPCErrorCodes context attempt.response.body with ⟨codes, decoded⟩
  obtain ⟨tried, ran, load, response, shown⟩ := trial_run tries decodes fun codes => do
    let live ← get
    if shouldRetryWithArchive live.load codes then retryWithArchive balancer arrival
    else retryWithNative balancer arrival codes
  rw [shows, start] at shown
  refine .of_eq ran ?_
  rw [← load]
  refine run_ite Ends ?_ fun _ => ?_
  · have archive := @retryWithArchive_ends balancer arrival tried
    rw [shown] at archive
    exact archive
  · have native := @retryWithNative_ends balancer arrival codes tried
    rw [shown] at native
    exact native

section Processors

variable {proxy : Proxy} {cache : ArchiveHashCache}

/-- A request before it is routed, over memory and over what was parsed. -/
structure Shares (proxy : Proxy) (cache : ArchiveHashCache) (context : RoutedContext)
    (exchange : Exchange) (live : Live) : Prop where
  faithful : live.Faithful proxy.balancer context.requestBody
  load : live.load = context
  visit : live.visit = ⟨false, [], .ok exchange.response, cache⟩
  forwarded : live.exchange.forwarded = exchange.forwarded

/-- A processor over memory does what the one over the parsed requests does. -/
def Simulates (proxy : Proxy) (cache : ArchiveHashCache) (processor : Serving Unit)
    (reference : Processor) : Prop :=
  ∀ context exchange live, Shares proxy cache context exchange live →
    Checked.Related (fun out after => Shares proxy cache context after out.2)
      (processor.run live) (reference context exchange)

theorem updatePreprocessorMetrics_simulates :
    Simulates proxy cache (lift Proxy.updatePreprocessorMetrics) Proxy.updatePreprocessorMetrics := by
  intro context exchange live shares
  exact .ok { shares with faithful := { shares.faithful with } }

theorem requestMirror_simulates (mirroring : Mirroring) (tokens : Nat → Bool) :
    Simulates proxy cache (lift (Proxy.requestMirror mirroring tokens))
      (Proxy.requestMirror mirroring tokens) := by
  intro context exchange live shares
  obtain rfl := shares.load
  have ran : (lift (Proxy.requestMirror mirroring tokens)).run live =
      Proxy.requestMirror mirroring tokens live.load live.exchange >>= fun exchange =>
        .ok ((), { live with exchange }) := rfl
  rw [ran]
  unfold Proxy.requestMirror
  by_cases unset : mirroring.getMirrorURLs live.load.chainId = []
  · simp only [if_pos unset]
    exact .ok shares
  · simp only [if_neg unset]
    exact .ok { shares with faithful := { shares.faithful with } }

theorem answer_simulates (status : Int) (object : ErrorObject) :
    Simulates proxy cache (answer proxy status object)
      fun context exchange => return proxy.answer context exchange status object := by
  intro context exchange live shares
  obtain rfl := shares.load
  refine .ok ⟨answer_keeps status object live () _ shares.faithful rfl, rfl, ?_, shares.forwarded⟩
  let failed : Live := { live with exchange := { live.exchange with error := some object } }
  have before : failed.visit = ⟨false, [], .ok exchange.response, cache⟩ := shares.visit
  have written := @writeError_ends proxy.balancer failed status (errorResponse object)
  have body : failed.exchange.response = exchange.response :=
    Except.ok.inj (congrArg Visit.response before)
  rw [before, body] at written
  exact written

theorem jRPCMethodDenied_simulates :
    Simulates proxy cache (jRPCMethodDenied proxy) proxy.jRPCMethodDenied := by
  intro context exchange live shares
  obtain rfl := shares.load
  have ran : (jRPCMethodDenied proxy).run live = _ :=
    run_lift_bind (anyDenied (proxy.methodDenied.getD []) live.requestBody)
      (fun denied => if denied then answer proxy 400 methodNotAllowed else return ()) live
  rw [ran]
  refine .after fun denied => ?_
  cases denied with
  | true => exact answer_simulates _ _ _ _ _ shares
  | false => exact .ok shares

theorem rewrite_simulates (payload : Bytes) :
    Simulates proxy cache (rewrite payload) fun _ exchange => return exchange.setBody payload := by
  intro context exchange live shares
  have faithful := rewrite_keeps payload live () _ shares.faithful rfl
  refine .ok ⟨faithful, ?_, shares.visit, ?_⟩
  · have load := shares.load
    rw [← load] at faithful ⊢
    have shows := faithful.shows
    simp only [Live.load]
    exact congrArg (fun requestBody => { live.load with requestBody }) shows
  · exact (Exchange.forwarded_setBody _ payload).trans (exchange.forwarded_setBody payload).symm

theorem getLatestBlock_simulates (heights : Heights) :
    Simulates proxy cache (getLatestBlock proxy heights) (proxy.getLatestBlock heights) := by
  intro context exchange live shares
  obtain rfl := shares.load
  let related := Checked.Related fun (out : Unit × Live) after =>
    Shares proxy cache live.load after out.2
  refine run_ite related (.ok shares) fun _ => ?_
  cases found : heights.getHeight live.chainId with
  | none =>
    rw [show heights.getHeight live.load.chainId = none from found]
    exact answer_simulates _ _ _ _ _ shares
  | some height =>
    rw [show heights.getHeight live.load.chainId = some height from found]
    dsimp only
    rw [run_lift_bind]
    refine .after fun id => ?_
    cases proxy.marshalPayload height id with
    | none => exact answer_simulates _ _ _ _ _ shares
    | some payload => exact rewrite_simulates payload _ _ _ shares

theorem callProcessors_simulates {processors : List (Option (Serving Unit))}
    {references : List (Option Processor)}
    (all : List.Forall₂ (Option.Rel (Simulates proxy cache)) processors references) :
    Simulates proxy cache (callProcessors processors)
      (fun context => Lb.callProcessors context references) := by
  induction all with
  | nil =>
    intro context exchange live shares
    exact .ok shares
  | @cons processor reference processors references first _ inductionHypothesis =>
    intro context exchange live shares
    have rest (live : Live) (exchange : Exchange) (shares : Shares proxy cache context exchange live) :
        Checked.Related (fun out after => Shares proxy cache context after out.2)
          ((do let live ← get
               if live.exchange.response.body ≠ [] then return ()
               else callProcessors processors : Serving Unit).run live)
          (if exchange.response.body ≠ [] then return exchange
          else Lb.callProcessors context references exchange) := by
      have response : live.exchange.response = exchange.response :=
        Except.ok.inj (congrArg Visit.response shares.visit)
      rw [← response]
      exact run_ite (Checked.Related _) (.ok shares) fun _ =>
        inductionHypothesis context exchange live shares
    cases first with
    | none => exact rest live exchange shares
    | some simulates =>
      exact .bind (simulates context exchange live shares) fun out after shares => rest out.2 after shares

theorem getPreProcessor_simulates (arrival : Arrival) :
    List.Forall₂ (Option.Rel (Simulates proxy cache)) (getPreProcessor proxy arrival)
      (proxy.getPreProcessor arrival) := by
  refine .cons (.some jRPCMethodDenied_simulates) (.cons (.some updatePreprocessorMetrics_simulates)
    (.cons (.some (getLatestBlock_simulates arrival.heights)) (.cons ?_ .nil)))
  split_ifs
  · exact .some (requestMirror_simulates arrival.mirroring arrival.tokens)
  · exact .none

theorem processed_ends {context : RoutedContext} {outcome : Checked (Unit × Live)}
    {reference : Checked Exchange} (arrival : Arrival)
    (called : Checked.Related (fun out after => Shares proxy cache context after out.2) outcome
      reference) :
    Ends (outcome >>= fun out =>
        (do let live ← get
            if live.exchange.response.body ≠ [] then return ()
            else route proxy.balancer arrival : Serving Unit).run out.2)
      (proxy.resume cache arrival context reference) := by
  cases called with
  | error => rfl
  | @ok out exchange shares =>
    obtain ⟨_, live⟩ := out
    have response : live.exchange.response = exchange.response :=
      Except.ok.inj (congrArg Visit.response shares.visit)
    have cached : live.cache = cache := congrArg Visit.cache shares.visit
    unfold Proxy.resume
    dsimp only
    rw [← shares.visit, ← response, ← cached, ← shares.load]
    exact run_ite Ends rfl fun silent =>
      route_ends arrival live (congrArg Visit.attempts shares.visit) (not_not.mp silent)

theorem serve_ends {arrival : Arrival} {request : RequestContext} {live : Live}
    (received : generateRequestContext proxy.balancer.sonic arrival.nodeType arrival.received =
      .ok request) (shows : live.requestBody = request.requestBody)
    (visit : live.visit = ⟨false, [], .ok ⟨200, []⟩, cache⟩)
    (shares : ∀ chainId, request.error = none → Shares proxy cache (Proxy.routed request chainId)
      arrival.exchange { live with chainId }) :
    Ends ((serve proxy arrival request.error).run live) (proxy.handle cache arrival).2 := by
  have body : live.load.requestBody = request.requestBody := shows
  have blank : live.exchange.response = ⟨200, []⟩ := Except.ok.inj (congrArg Visit.response visit)
  unfold serve
  cases failed : request.error with
  | some error =>
    rw [Proxy.handle_of_rejected received failed, ← body]
    have ends := @writeError_ends proxy.balancer live 200 (badRequest error.error)
    rw [visit, blank] at ends
    exact ends
  | none =>
    cases chain : effectiveChainID arrival.overrides arrival.chainID with
    | none =>
      rw [Proxy.handle_of_unchained received failed chain, ← body]
      have ends := @writeError_ends proxy.balancer live 200 (badRequest (ascii "invalid chain id"))
      rw [visit, blank] at ends
      exact ends
    | some chainId =>
      rw [Proxy.handle_of_routed received failed chain]
      have called := callProcessors_simulates (getPreProcessor_simulates arrival) _ _ _
        (shares chainId failed)
      exact processed_ends arrival called

/-- A request that passed intake has no response yet. -/
theorem accept_clean {nodeType : Bytes} {parsed : Except ParseError (List (Option RequestObject))}
    (accepted : (beforeProcess nodeType).accept parsed = .ok request) (valid : request.error = none) :
    request.responseBody = none ∧ parsed = .ok request.requestBody := by
  obtain ⟨requests, rfl⟩ : ∃ requests, parsed = .ok requests :=
    ⟨_, RequestContext.accept_parsed accepted valid⟩
  refine ⟨?_, RequestContext.accept_parsed accepted valid⟩
  have clean (context : RequestContext) (fresh : context.responseBody = none)
      (valid : context.validate.error = none) : context.validate.responseBody = none := by
    revert valid
    unfold RequestContext.validate
    cases context.requestBody.findSome? validateRequest with
    | none => exact fun _ => fresh
    | some object => intro valid; cases valid
  rcases RequestContext.accept_cases accepted with ⟨-, rfl⟩ | ⟨object, -, rfl⟩
  all_goals exact clean _ rfl valid

theorem start_shares {arrival : Arrival} {views : List (Option RequestView)}
    (grows : arrival.arrays <+: arrays) (held : Views.RequestsHeld arrays views)
    {request : RequestContext} (shows : Views.readRequests arrays views = request.requestBody)
    (valid : request.error = none) (clean : request.responseBody = none) (chainId : Bytes) :
    Shares proxy cache (Proxy.routed request chainId) arrival.exchange
      { start cache arrival arrays views request with chainId } := by
  have faithful := @start_faithful proxy arrays cache arrival views grows held request
  obtain ⟨archive, method, isBatch, requestBody, error, responseBody⟩ := request
  subst shows valid clean
  have within : arrival.body.Held arrival.arrays := fun _ => arrival.within
  exact ⟨{ faithful with }, rfl, rfl, within.read_of_grows grows⟩

/-- What `generateRequestContext` makes of a body, with its requests in memory. -/
structure Received (proxy : Proxy) (arrival : Arrival) (arrays : List Bytes)
    (views : List (Option RequestView)) (request : RequestContext) : Prop where
  context : generateRequestContext proxy.balancer.sonic arrival.nodeType arrival.received =
    .ok request
  shows : Views.readRequests arrays views = request.requestBody
  shares : ∀ cache chainId, request.error = none → Shares proxy cache
    (Proxy.routed request chainId) arrival.exchange
    { start cache arrival arrays views request with chainId }

theorem Received.of_accepted {arrival : Arrival}
    {views : Except ParseError (List (Option RequestView))}
    {parsed : Except ParseError (List (Option RequestObject))} {request : RequestContext}
    (shown : Views.ShowsParsed arrival.arrays (views, arrays) parsed)
    (accepted : (beforeProcess arrival.nodeType).accept parsed = .ok request)
    (context : generateRequestContext proxy.balancer.sonic arrival.nodeType arrival.received =
      .ok request) : Received proxy arrival arrays (views.toOption.getD []) request := by
  obtain ⟨reads, grows, held⟩ := shown
  dsimp only at reads grows held
  have shows : Views.readRequests arrays (views.toOption.getD []) = request.requestBody := by
    cases views with
    | error error =>
      cases reads
      cases accepted
      rfl
    | ok views =>
      cases reads
      exact (RequestContext.accept_requestBody accepted).symm
  refine ⟨context, shows, fun cache chainId valid => ?_⟩
  obtain ⟨clean, same⟩ := accept_clean accepted valid
  cases views with
  | error error =>
    cases reads
    cases same
  | ok views => exact start_shares grows (held views rfl) shows valid clean chainId

/-- Intake faults, or the request is served from where it left it. -/
theorem serveHTTP_cases (proxy : Proxy) (arrival : Arrival) :
    (∃ fault,
      generateRequestContext proxy.balancer.sonic arrival.nodeType arrival.received = .error fault ∧
        ∀ cache, serveHTTP proxy cache arrival = .error fault) ∨
    ∃ arrays views request, Received proxy arrival arrays views request ∧
      ∀ cache, serveHTTP proxy cache arrival = (serve proxy arrival request.error).run
        (start cache arrival arrays views request) >>= fun out => .ok out.2 := by
  have shown := parseRequest_shows proxy.balancer.sonic arrival
  have received : generateRequestContext proxy.balancer.sonic arrival.nodeType arrival.received =
    Jsonrpc.parseRequest proxy.balancer.sonic arrival.received >>=
      (beforeProcess arrival.nodeType).accept := rfl
  unfold serveHTTP
  dsimp only
  generalize Views.parseRequest proxy.balancer.sonic arrival.arrays
    (if arrival.readable then some arrival.body else none) = outcome at shown ⊢
  generalize Jsonrpc.parseRequest proxy.balancer.sonic arrival.received = reference
    at shown received
  cases shown with
  | @error fault => exact .inl ⟨fault, received, fun _ => rfl⟩
  | @ok out parsed shown =>
    obtain ⟨views, arrays⟩ := out
    have reads : views.map (Views.readRequests arrays) = parsed := shown.reads
    have accepts := received.trans (Checked.ok_bind parsed (beforeProcess arrival.nodeType).accept)
    cases accepted : (beforeProcess arrival.nodeType).accept parsed with
    | error fault =>
      refine .inl ⟨fault, accepts.trans accepted, fun _ => ?_⟩
      rw [Checked.ok_bind]
      dsimp only
      rw [reads, accepted]
      rfl
    | ok request =>
      refine .inr ⟨arrays, _, request, .of_accepted shown accepted (accepts.trans accepted),
        fun _ => ?_⟩
      rw [Checked.ok_bind]
      dsimp only
      rw [reads, accepted]
      rfl

/-- The handler over memory ends as the one over the parsed requests does. -/
theorem serveHTTP_ends (proxy : Proxy) (cache : ArchiveHashCache) (arrival : Arrival) :
    Ends (Prod.mk () <$> serveHTTP proxy cache arrival)
      (proxy.handle cache arrival).2 := by
  rcases serveHTTP_cases proxy arrival with ⟨fault, context, faults⟩ |
    ⟨arrays, views, request, received, serves⟩
  · rw [faults, Proxy.handle_of_fault context]
    rfl
  · rw [serves]
    have ends := @serve_ends proxy cache arrival request (start cache arrival arrays views request)
      received.context received.shows rfl (received.shares cache)
    exact .of_eq (by rw [← bind_pure_comp, bind_assoc]; exact bind_pure _) ends

end Processors

end Live

end NodexProxy.Lb
