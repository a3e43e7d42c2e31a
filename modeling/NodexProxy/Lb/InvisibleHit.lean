import NodexProxy.Lb.BodyVisit
import NodexProxy.Lb.CacheSoundness
import NodexProxy.Lb.WeightedPick

/-! A cached hash that no archive node can be found for: the request ends as it does with an empty
cache. -/

namespace NodexProxy.Lb

open NodexProxy.Foundation NodexProxy.Discovery NodexProxy.Jsonrpc

/-- A choice that fails does so before it draws a number. -/
theorem drawNode_undrawn (failed : drawNode weight draw nodes = .ok none) :
    nodes = [] ∨ (nodes.map weight).sum = 0 := by
  by_contra drawable
  unfold drawNode int63n at failed
  dsimp only at failed
  rw [if_neg drawable] at failed
  split_ifs at failed with nonpositive
  · cases failed
  · have positive : 0 < (nodes.map weight).sum := not_le.mp nonpositive
    have below : (draw : Int) % (nodes.map weight).sum < 0 + (nodes.map weight).sum := by
      rw [zero_add]
      exact Int.emod_lt_of_pos _ positive
    have chosen := choose_isSome (Int.emod_nonneg _ positive.ne') below
    obtain ⟨index, found⟩ := Option.isSome_iff_exists.mp chosen
    have inside : index < nodes.length := by
      simpa using lt_length_of_choose found
    rw [Checked.ok_bind, selectByWeight_eq_choose, found, Option.bind_some,
      List.getElem?_eq_getElem inside] at failed
    cases failed

/-- While the archive flag is set, neither the number drawn nor the block context is looked at by a
choice that fails. -/
theorem getNode_forced_fails
    (failed : getNode selector chainId method batch true blockContext [] = .ok none) (draw : Nat)
    (other : Option BlockContext) :
    getNode { selector with draw } chainId method batch true other [] = .ok none :=
  if_pos (drawNode_undrawn failed)

/-- The numbers drawn before a choice, for a request that no archive node is found for: the node
of the first attempt took one, and a choice that fails takes none. -/
def Stage.drawn : Stage → Nat
  | .first => 0
  | .fallback => 0
  | .archive => 1
  | .native => 1

/-- The selector stays as it is while the request runs, and yields one number after the other. -/
def Arrival.Steady (random : Random) (gatewayStrategy : GatewayStrategy) (draws : Nat → Nat)
    (arrival : Arrival) : Prop :=
  ∀ stage, arrival.selector stage = ⟨random, gatewayStrategy, draws stage.drawn⟩

/-- No node is found for the request while the archive flag is set. -/
def Arrival.Unserved (arrival : Arrival) (balancer : Balancer) : Prop :=
  ∀ request chainId,
    generateRequestContext balancer.sonic arrival.nodeType arrival.received = .ok request →
    effectiveChainID arrival.overrides arrival.chainID = some chainId →
    getNode (arrival.selector .first) chainId request.method request.isBatch true
      (balancer.parseBlockContext request.requestBody) [] = .ok none

/-- What was evaluated once is kept. -/
theorem Balancer.getBlockContext_again (balancer : Balancer) (context : RoutedContext) :
    balancer.getBlockContext (balancer.getBlockContext context).2 =
      balancer.getBlockContext context := by
  by_cases fresh : context.memo.blockContext = none ∧ context.memo.blockContextDone = false
  · simp [getBlockContext, fresh]
  · simp only [getBlockContext, if_neg fresh]

theorem Balancer.getBlockContext_flagged (balancer : Balancer) (context : RoutedContext)
    (archive : Bool) :
    (balancer.getBlockContext { context with archive }).2.memo =
      (balancer.getBlockContext context).2.memo := by
  unfold getBlockContext
  dsimp only
  split_ifs <;> rfl

theorem Balancer.getBlockContext_memo (balancer : Balancer) (context : RoutedContext) :
    (balancer.getBlockContext context).1 =
      (balancer.getBlockContext context).2.memo.blockContext := by
  unfold getBlockContext
  split_ifs <;> rfl

namespace Live

/-- The request without what only the cache and the metrics know about it. -/
def seen (live : Live) : Live := { live with cache := .empty, diverted := false, evaluated := [] }

/-- No choice finds a node for the request while its archive flag is set. -/
def Unserved (arrival : Arrival) (live : Live) : Prop :=
  ∀ stage blockContext,
    getNode (arrival.selector stage) live.chainId live.method live.isBatch true blockContext [] =
      .ok none

/-- Two requests under way that no archive node is found for, and that look the same. -/
structure Alike (arrival : Arrival) (live other : Live) : Prop where
  seen : live.seen = other.seen
  unserved : live.Unserved arrival

section Blind

variable {balancer : Balancer} {arrival : Arrival} {random : Random}
  {gatewayStrategy : GatewayStrategy} {draws : Nat → Nat}

theorem modifyGet_parallel {change : Live → Value × Live}
    (value : ∀ live, (change live.seen).1 = (change live).1)
    (blind : ∀ live, (change live.seen).2.seen = (change live).2.seen)
    (kept : ∀ live, live.Unserved arrival → (change live).2.Unserved arrival) :
    Parallel (Alike arrival) (modifyGet change : Serving Value) := by
  refine .modifyGet fun live other alike => ⟨?_, ?_, kept live alike.unserved⟩
  · rw [← value live, ← value other, alike.seen]
  · rw [← blind live, ← blind other, alike.seen]

theorem modify_parallel {change : Live → Live}
    (blind : ∀ live, (change live.seen).seen = (change live).seen)
    (kept : ∀ live, live.Unserved arrival → (change live).Unserved arrival) :
    Parallel (Alike arrival) (modify change : Serving Unit) :=
  modifyGet_parallel (fun _ => rfl) blind kept

theorem inspect_parallel {next : Live → Serving Value} (blind : ∀ live, next live.seen = next live)
    (rest : ∀ live, Parallel (Alike arrival) (next live)) :
    Parallel (Alike arrival) (get >>= next) := by
  refine .inspect (fun live other alike => ?_) rest
  rw [← blind live, ← blind other, alike.seen]

theorem writeError_parallel (status : Int) (object : ResponseObject) :
    Parallel (Alike arrival) (writeError balancer status object) :=
  modify_parallel (fun _ => rfl) fun _ unserved => unserved

theorem overwrite_parallel (status : Int) (object : ResponseObject) :
    Parallel (Alike arrival) (overwrite balancer status object) :=
  inspect_parallel (fun _ => rfl) fun _ => .ite (writeError_parallel status object) (.pure _)

theorem attemptRequest_parallel (node : Node) (upstream : Response) :
    Parallel (Alike arrival) (attemptRequest balancer node upstream) := by
  refine .bind (modify_parallel (fun _ => rfl) fun _ unserved => unserved) fun _ => ?_
  refine .bind (modify_parallel (fun _ => rfl) fun _ unserved => unserved) fun _ => ?_
  refine .bind (overwrite_parallel _ _) fun _ => .bind (overwrite_parallel _ _) fun _ => ?_
  exact modify_parallel (fun _ => rfl) fun _ unserved => unserved

theorem parseRPCErrorCodes_parallel :
    Parallel (Alike arrival) (parseRPCErrorCodes balancer) :=
  modifyGet_parallel (fun _ => rfl) (fun _ => rfl) fun _ unserved => unserved

theorem resetResponse_parallel : Parallel (Alike arrival) resetResponse :=
  modify_parallel (fun _ => rfl) fun _ unserved => unserved

theorem setTargetNode_parallel (addr : Bytes) : Parallel (Alike arrival) (setTargetNode addr) :=
  modify_parallel (fun _ => rfl) fun _ unserved => unserved

theorem getBlockContext_parallel : Parallel (Alike arrival) (getBlockContext balancer) :=
  modifyGet_parallel (fun _ => rfl) (fun _ => rfl) fun _ unserved => unserved

theorem chooseTargetNode_parallel (selector : Selector) (requestKey : Bytes) :
    Parallel (Alike arrival) (chooseTargetNode balancer selector requestKey) := by
  refine .bind (setTargetNode_parallel []) fun _ => .bind getBlockContext_parallel fun _ => ?_
  refine inspect_parallel (fun _ => rfl) fun _ => .bind (.lift _) fun node => ?_
  cases node with
  | none => exact .pure _
  | some node => exact .bind (setTargetNode_parallel node.addr) fun _ => .pure _

theorem retryWithNative_parallel (codes : List Int) :
    Parallel (Alike arrival) (retryWithNative balancer arrival codes) := by
  refine inspect_parallel (fun _ => rfl) fun _ => .ite ?_ (.pure _)
  refine .bind resetResponse_parallel fun _ => ?_
  refine .bind (modify_parallel (fun _ => rfl) fun _ unserved => unserved) fun _ => ?_
  refine .bind (chooseTargetNode_parallel _ _) fun node => ?_
  cases node with
  | none => exact writeError_parallel _ _
  | some node => exact attemptRequest_parallel node _

/-- A choice while the archive flag is set finds nothing. -/
theorem chooseTargetNode_forced {live : Live} (unserved : live.Unserved arrival)
    (forced : live.archive = true) (stage : Stage) :
    (chooseTargetNode balancer (arrival.selector stage) []).run live =
      .ok (none, live.choose balancer none) := by
  rw [chooseTargetNode_run, forced, unserved stage _]
  rfl

/-- The request when an archive node is asked for again. -/
def force (live : Live) : Live :=
  { live.resetResponseErrorKey.respond ⟨200, []⟩ with archive := true }

theorem retryWithArchive_run {live : Live} (unserved : live.Unserved arrival) :
    (retryWithArchive balancer arrival).run live =
      (writeNoBackend balancer "no backends available").run (live.force.choose balancer none) := by
  have reset : resetResponse.run live =
      .ok ((), live.resetResponseErrorKey.respond ⟨200, []⟩) := rfl
  have flagged : (modify fun live => { live with archive := true } : Serving Unit).run
      (live.resetResponseErrorKey.respond ⟨200, []⟩) = .ok ((), live.force) := rfl
  have chosen := @chooseTargetNode_forced balancer arrival live.force unserved rfl .archive
  unfold retryWithArchive
  rw [run_bind_of_ok reset, run_bind_of_ok flagged, run_bind_of_ok chosen]

theorem Alike.symm {live other : Live} (alike : Alike arrival live other) :
    Alike arrival other live := by
  refine ⟨alike.seen.symm, ?_⟩
  have seen : live.seen.Unserved arrival := alike.unserved
  rw [alike.seen] at seen
  exact seen

theorem retryWithArchive_parallel :
    Parallel (Alike arrival) (retryWithArchive balancer arrival) := by
  intro live other alike
  rw [retryWithArchive_run alike.unserved, retryWithArchive_run alike.symm.unserved]
  have seen := congrArg (fun live => (live.force.choose balancer none).seen) alike.seen
  exact writeError_parallel _ _ _ _ ⟨seen, alike.unserved⟩

/-- The request as a selector is asked for its node. -/
def prepared (balancer : Balancer) (live : Live) : Live := (live.choose balancer none).seen

theorem evaluate_prepared (live : Live) :
    (live.evaluate balancer).prepared balancer = live.prepared balancer := by
  have memo : (balancer.getBlockContext (live.evaluate balancer).load).2.memo =
      (balancer.getBlockContext live.load).2.memo := by
    rw [evaluate_load, balancer.getBlockContext_again]
  exact congrArg (fun memo => { live.prepared balancer with memo }) memo

theorem prepared_archive (live : Live) (archive : Bool) :
    { live with archive }.prepared balancer = { live.prepared balancer with archive } :=
  congrArg (fun memo => { live.prepared balancer with archive, memo })
    (balancer.getBlockContext_flagged live.load archive)

/-- The node of a request without a cache, and the request as it then looks. -/
def settle (selector : Selector) (prepared : Live) : Checked (Option Node × Live) :=
  getNode selector prepared.chainId prepared.method prepared.isBatch prepared.archive
    prepared.memo.blockContext [] >>= fun node =>
  .ok (node, { prepared with targetNodeAddr := (node.map Node.addr).getD [] })

/-- An outcome that looks like the one without a cache. -/
def Settles (balancer : Balancer) (arrival : Arrival) (live : Live)
    (outcome : Checked (Option Node × Live)) : Prop :=
  Checked.Related (fun out ref => out.1 = ref.1 ∧ out.2.seen = ref.2 ∧ out.2.Unserved arrival)
    outcome (settle (arrival.selector .first) (live.prepared balancer))

theorem chooseTargetNode_settles {live later : Live}
    (same : later.prepared balancer = live.prepared balancer) (unserved : later.Unserved arrival) :
    Settles balancer arrival live
      ((chooseTargetNode balancer (arrival.selector .first) []).run later) := by
  rw [Settles, ← same, chooseTargetNode_run, balancer.getBlockContext_memo]
  exact .after fun node => .ok ⟨rfl, rfl, unserved⟩

/-- The request once its hash was found in the cache. -/
def divert (balancer : Balancer) (live : Live) : Live :=
  { live.evaluate balancer with archive := true }

theorem routeCachedArchiveHash_run (live : Live) :
    (routeCachedArchiveHash balancer).run live = .ok (false, live) ∨
      (routeCachedArchiveHash balancer).run live = .ok (false, live.evaluate balancer) ∨
      live.archive = false ∧
        (routeCachedArchiveHash balancer).run live = .ok (true, live.divert balancer) := by
  have read : (get : Serving Live).run live = .ok (live, live) := rfl
  unfold routeCachedArchiveHash
  rw [run_bind_of_ok read]
  split_ifs with flagged
  · exact .inl rfl
  · exact .inl rfl
  · refine .inr ?_
    have plain : live.archive = false := by
      cases on : live.archive with
      | false => rfl
      | true => exact absurd (by rw [on]; rfl) flagged
    rw [run_bind_of_ok (requestBlockHash_run live)]
    cases pinnedHash (balancer.getBlockContext live.load).1 with
    | none => exact .inl rfl
    | some hash =>
      dsimp only
      split_ifs
      · exact .inl rfl
      · exact .inr ⟨plain, rfl⟩

theorem chooseFirstNode_missed :
    chooseFirstNode balancer arrival false =
      chooseTargetNode balancer (arrival.selector .first) [] := by
  simp [chooseFirstNode]

/-- Where the cache asks for archive and there is none, the node of the normal path is chosen. -/
theorem chooseFirstNode_diverted {live : Live} (unserved : live.Unserved arrival)
    (forced : live.archive = true) :
    (chooseFirstNode balancer arrival true).run live =
      (chooseTargetNode balancer (arrival.selector .fallback) []).run
        { live.choose balancer none with archive := false } := by
  unfold chooseFirstNode
  rw [run_bind_of_ok (chooseTargetNode_forced unserved forced .first)]
  rfl

theorem divert_prepared {live diverted : Live} (plain : live.archive = false)
    (seen : diverted.seen = (live.divert balancer).seen) :
    { diverted.choose balancer none with archive := false }.prepared balancer =
      live.prepared balancer :=
  calc { diverted.choose balancer none with archive := false }.prepared balancer
      = { (diverted.evaluate balancer).prepared balancer with archive := false } :=
        prepared_archive (diverted.choose balancer none) false
    _ = { diverted.prepared balancer with archive := false } := by rw [evaluate_prepared]
    _ = { (live.divert balancer).prepared balancer with archive := false } :=
        congrArg (fun live => { prepared balancer live with archive := false }) seen
    _ = { (live.evaluate balancer).prepared balancer with archive := false } :=
        congrArg (fun live => { live with archive := false })
          (prepared_archive (live.evaluate balancer) true)
    _ = live.prepared balancer := by
        rw [evaluate_prepared, ← plain]
        rfl

/-- Whatever the cache holds, the first node is the one chosen without it. -/
theorem first_settles (steady : arrival.Steady random gatewayStrategy draws) {live : Live}
    (unserved : live.Unserved arrival) :
    ∃ hit after, (routeCachedArchiveHash balancer).run live = .ok (hit, after) ∧
      Settles balancer arrival live
        ((chooseFirstNode balancer arrival hit).run { after with diverted := hit }) := by
  rcases @routeCachedArchiveHash_run balancer live with missed | missed | ⟨plain, hit⟩
  · refine ⟨_, _, missed, ?_⟩
    rw [chooseFirstNode_missed]
    exact chooseTargetNode_settles rfl unserved
  · refine ⟨_, _, missed, ?_⟩
    rw [chooseFirstNode_missed]
    exact chooseTargetNode_settles (evaluate_prepared live) unserved
  · refine ⟨_, _, hit, ?_⟩
    have selector : arrival.selector .fallback = arrival.selector .first :=
      (steady .fallback).trans (steady .first).symm
    have still : { live.divert balancer with diverted := true }.Unserved arrival := unserved
    rw [chooseFirstNode_diverted still rfl, selector]
    exact chooseTargetNode_settles (divert_prepared plain rfl) unserved

theorem route_parallel (steady : arrival.Steady random gatewayStrategy draws) :
    Parallel (Alike arrival) (route balancer arrival) := by
  intro live other alike
  obtain ⟨hit, middle, routed, settles⟩ := @first_settles balancer _ _ _ _ steady _ alike.unserved
  obtain ⟨hits, final, reroutes, resettles⟩ :=
    @first_settles balancer _ _ _ _ steady _ alike.symm.unserved
  have same := congrArg (prepared balancer) alike.symm.seen
  rw [Settles, show other.prepared balancer = live.prepared balancer from same] at resettles
  have marks (hit : Bool) (live : Live) :
      (modify fun live => { live with diverted := hit } : Serving Unit).run live =
        .ok ((), { live with diverted := hit }) := rfl
  unfold route
  rw [run_bind_of_ok routed, run_bind_of_ok reroutes, run_bind_of_ok (marks hit middle),
    run_bind_of_ok (marks hits final)]
  refine Matches.resume (settles.join resettles ?_) fun node => ?_
  · rintro out next ref ⟨node, seen, unserved⟩ ⟨same, looks, _⟩
    exact ⟨node.trans same.symm, seen.trans looks.symm, unserved⟩
  · cases node with
    | none => exact writeError_parallel _ _
    | some node =>
      refine .bind (modify_parallel (fun live => ?_) fun live unserved => ?_) fun _ => ?_
      · split_ifs <;> rfl
      · split_ifs <;> exact unserved
      refine .bind (attemptRequest_parallel node _) fun _ => ?_
      refine .bind parseRPCErrorCodes_parallel fun codes => inspect_parallel (fun _ => rfl) fun _ => ?_
      exact .ite retryWithArchive_parallel (retryWithNative_parallel codes)

section Processors

variable {proxy : Proxy}

theorem lift_parallel (processor : Processor) : Parallel (Alike arrival) (lift processor) := by
  intro live other alike
  have load : live.load = other.load := (congrArg load alike.seen :)
  have exchange : live.exchange = other.exchange := (congrArg Live.exchange alike.seen :)
  have ran (live : Live) : (lift processor).run live =
      processor live.load live.exchange >>= fun exchange => .ok ((), { live with exchange }) := rfl
  rw [ran, ran, load, exchange]
  refine .after fun exchange => .ok ⟨rfl, ?_, alike.unserved⟩
  exact congrArg (fun live => { live with exchange }) alike.seen

theorem answer_parallel (status : Int) (object : ErrorObject) :
    Parallel (Alike arrival) (answer proxy status object) :=
  .bind (modify_parallel (fun _ => rfl) fun _ unserved => unserved) fun _ => writeError_parallel _ _

theorem jRPCMethodDenied_parallel : Parallel (Alike arrival) (jRPCMethodDenied proxy) := by
  refine inspect_parallel (fun _ => rfl) fun live => .bind (.lift _) fun denied => ?_
  exact .ite (answer_parallel _ _) (.pure _)

theorem rewrite_parallel (payload : Bytes) : Parallel (Alike arrival) (rewrite payload) :=
  modify_parallel (fun _ => rfl) fun _ unserved => unserved

theorem getLatestBlock_parallel (heights : Heights) :
    Parallel (Alike arrival) (getLatestBlock proxy heights) := by
  refine inspect_parallel (fun _ => rfl) fun live => .ite (.pure _) ?_
  cases heights.getHeight live.chainId with
  | none => exact answer_parallel _ _
  | some height =>
    refine .bind (.lift _) fun id => ?_
    cases proxy.marshalPayload height id with
    | none => exact answer_parallel _ _
    | some payload => exact rewrite_parallel payload

theorem callProcessors_parallel {processors : List (Option (Serving Unit))}
    (all : ∀ processor, some processor ∈ processors → Parallel (Alike arrival) processor) :
    Parallel (Alike arrival) (callProcessors processors) := by
  induction processors with
  | nil => exact .pure _
  | cons processor processors inductionHypothesis =>
    have rest := inductionHypothesis fun other listed => all other (List.mem_cons_of_mem _ listed)
    have first : Parallel (Alike arrival) (processor.getD (return ())) := by
      cases processor with
      | none => exact .pure _
      | some processor => exact all processor (List.mem_cons_self ..)
    exact .bind first fun _ => inspect_parallel (fun _ => rfl) fun live => .ite (.pure _) rest

theorem getPreProcessor_parallel (processor : Serving Unit)
    (listed : some processor ∈ getPreProcessor proxy arrival) :
    Parallel (Alike arrival) processor := by
  simp only [getPreProcessor, List.mem_cons, List.not_mem_nil, or_false, Option.some.injEq] at listed
  rcases listed with rfl | rfl | rfl | mirror
  · exact jRPCMethodDenied_parallel
  · exact lift_parallel _
  · exact getLatestBlock_parallel arrival.heights
  · split at mirror
    · cases mirror
      exact lift_parallel _
    · cases mirror

/-- An error is written alike over requests that look the same. -/
theorem writeError_same (status : Int) (object : ResponseObject) :
    Parallel (fun live other => live.seen = other.seen) (writeError balancer status object) := by
  refine .modify fun live other same => ?_
  let fail (live : Live) : Live :=
    let held := live.exchange.response.body
    let written := echoID live.requestBody object
    { live.respond ⟨status, held ++ balancer.marshalResponse written⟩ with
      written := some written, held }
  have failed := congrArg (fun live => (fail live).seen) same
  exact failed

theorem serve_same (steady : arrival.Steady random gatewayStrategy draws) {live other : Live}
    (same : live.seen = other.seen) {error : Option IntakeError}
    (unserved : ∀ chainId, effectiveChainID arrival.overrides arrival.chainID = some chainId →
      { live with chainId }.Unserved arrival) :
    Matches (fun live other => live.seen = other.seen) ((serve proxy arrival error).run live)
      ((serve proxy arrival error).run other) := by
  unfold serve
  cases error with
  | some error => exact writeError_same _ _ _ _ same
  | none =>
    cases chain : effectiveChainID arrival.overrides arrival.chainID with
    | none => exact writeError_same _ _ _ _ same
    | some chainId =>
      have alike : Alike arrival { live with chainId } { other with chainId } :=
        ⟨(congrArg (fun live => { live with chainId }) same :), unserved chainId chain⟩
      have called : Parallel (Alike arrival)
          (callProcessors (getPreProcessor proxy arrival) >>= fun _ => get >>= fun live =>
            if live.exchange.response.body ≠ [] then return () else route proxy.balancer arrival) :=
        .bind (callProcessors_parallel getPreProcessor_parallel) fun _ =>
          inspect_parallel (fun _ => rfl) fun _ => .ite (.pure _) (route_parallel steady)
      exact (called _ _ alike).mono fun _ _ both => ⟨both.1, both.2.seen⟩

/-- Where the choice fails for one draw and one block context it fails at every stage. -/
theorem Unserved.of_first (steady : arrival.Steady random gatewayStrategy draws) {live : Live}
    (failed : getNode (arrival.selector .first) live.chainId live.method live.isBatch true
      blockContext [] = .ok none) : live.Unserved arrival := by
  intro stage other
  rw [steady .first] at failed
  rw [steady stage]
  exact getNode_forced_fails failed (draws stage.drawn) other

theorem serveHTTP_same (steady : arrival.Steady random gatewayStrategy draws)
    (unserved : arrival.Unserved proxy.balancer) (cache other : ArchiveHashCache) :
    Checked.Related (fun live other => live.seen = other.seen) (serveHTTP proxy cache arrival)
      (serveHTTP proxy other arrival) := by
  rcases serveHTTP_cases proxy arrival with ⟨fault, -, faults⟩ |
    ⟨arrays, views, request, received, serves⟩
  · rw [faults, faults]
    exact .error
  · let starts (cache : ArchiveHashCache) : Live := start cache arrival arrays views request
    have fails (chainId : Bytes)
        (chain : effectiveChainID arrival.overrides arrival.chainID = some chainId) :
        { starts cache with chainId }.Unserved arrival :=
      .of_first steady (unserved request chainId received.context chain)
    have same : (starts cache).seen = (starts other).seen := rfl
    have served := @serve_same arrival _ _ _ proxy steady _ _ same request.error fails
    rw [serves, serves]
    exact .bind served fun _ _ both => .ok both.2

end Processors

end Blind

/-- What a client, the nodes and the metrics see of a request that was served. -/
structure Outcome where
  attempts : List Attempt
  response : Response
  archive : Bool
  native : Bool
  targetNodeAddr : Bytes
deriving DecidableEq, Repr

def outcome (live : Live) : Outcome where
  attempts := live.attempts
  response := live.exchange.response
  archive := live.archive
  native := live.native
  targetNodeAddr := live.targetNodeAddr

/-- As long as no node is found for the request while the archive flag is set, it makes no
difference whether its hash is in the cache. -/
theorem serveHTTP_hit_invisible (proxy : Proxy) (cache : ArchiveHashCache) (arrival : Arrival)
    (random : Random) (gatewayStrategy : GatewayStrategy) (draws : Nat → Nat)
    (steady : arrival.Steady random gatewayStrategy draws)
    (unserved : arrival.Unserved proxy.balancer) :
    (serveHTTP proxy cache arrival).map outcome = (serveHTTP proxy .empty arrival).map outcome := by
  have same := serveHTTP_same steady unserved cache .empty
  generalize serveHTTP proxy cache arrival = served at same ⊢
  generalize serveHTTP proxy .empty arrival = plain at same ⊢
  cases same with
  | error => rfl
  | ok same => exact congrArg Except.ok (congrArg outcome same :)

def hitProxy : Proxy := { Proxy.latestProxy with balancer := Balancer.sampleBalancer }

def hitRandom : Random :=
  { Random.empty with
    stateNodes := AList.insert (ascii "1")
      [⟨ascii "n", ascii "10.0.0.1", 8545, ascii "10.0.0.1:8545", ascii "official", 1, stateAvailable,
        nodeTypeState⟩] ∅ }

/-- A call pinned to a hash, on a chain that has a state node without the state and no other. -/
def hitArrival : Arrival :=
  { Arrival.sample Balancer.sampleBody with
    selector := fun _ => ⟨hitRandom, ⟨∅, ∅⟩, 0⟩
    upstream := fun _ => ⟨200, Balancer.plainAnswer⟩ }

/-- The state node is asked although the hash is cached, and once an archive node is asked for there
is none. -/
theorem serveHTTP_hit_invisible_stale :
    (serveHTTP hitProxy (ArchiveHashCache.empty.add (ascii "1") Balancer.sampleHash) hitArrival).map
        (fun live => (live.diverted, live.attempts.length, live.archive)) = .ok (true, 1, true) ∧
      (serveHTTP hitProxy (ArchiveHashCache.empty.add (ascii "1") Balancer.sampleHash) hitArrival).map outcome =
        (serveHTTP hitProxy .empty hitArrival).map outcome := by
  refine ⟨by decide +kernel, ?_⟩
  have steady : hitArrival.Steady hitRandom ⟨∅, ∅⟩ fun _ => 0 := fun _ => rfl
  refine serveHTTP_hit_invisible hitProxy _ hitArrival hitRandom ⟨∅, ∅⟩ (fun _ => 0) steady ?_
  intro request chainId _ _
  cases request.isBatch <;> rfl

end Live

end NodexProxy.Lb
