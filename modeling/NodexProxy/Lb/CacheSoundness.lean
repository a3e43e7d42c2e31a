import NodexProxy.Lb.BlockDecode
import NodexProxy.Lb.Stages

/-! The archive-hash cache over any sequence of requests: what an entry proves about an earlier
request, and which requests it can divert. -/

namespace NodexProxy.Lb

open NodexProxy.Foundation NodexProxy.Discovery NodexProxy.Jsonrpc

namespace ArchiveHashCache

theorem chain_add (cache : ArchiveHashCache) (chainId hash other : Bytes) :
    (cache.add chainId hash).chain other =
      if other = chainId then cache.chains.map fun _ => hash :: (cache.chain chainId).getD []
      else cache.chain other := by
  unfold add chain
  cases cache.chains with
  | none => simp
  | some chains =>
    split_ifs with same
    · subst same
      simp
    · simp [same]

theorem chain_evict (cache : ArchiveHashCache) (chainId hash other : Bytes) :
    (cache.evict chainId hash).chain other =
      if other = chainId then (cache.chain chainId).map (List.filter (· ≠ hash))
      else cache.chain other := by
  unfold evict chain
  cases cache.chains with
  | none => simp
  | some chains =>
    split_ifs with same
    · subst same
      cases held : chains.lookup other <;> simp [held]
    · cases held : chains.lookup chainId <;> simp [held, same]

theorem contains_add {cache : ArchiveHashCache} {chainId hash other key : Bytes}
    (present : (cache.add chainId hash).contains other key = true) :
    cache.contains other key = true ∨ other = chainId ∧ key = hash := by
  unfold contains at present ⊢
  rw [chain_add] at present
  split_ifs at present with same
  · subst same
    cases chains : cache.chains with
    | none => simp [chains] at present
    | some _ =>
      cases held : cache.chain other with
      | none =>
        right
        simpa [chains, held] using present
      | some hashes =>
        have found : key = hash ∨ key ∈ hashes := by simpa [chains, held] using present
        rcases found with rfl | listed
        · exact .inr ⟨rfl, rfl⟩
        · exact .inl (by simpa using listed)
  · exact .inl present

theorem contains_evict {cache : ArchiveHashCache} {chainId hash other key : Bytes}
    (present : (cache.evict chainId hash).contains other key = true) :
    cache.contains other key = true := by
  unfold contains at present ⊢
  rw [chain_evict] at present
  split_ifs at present with same
  · subst same
    cases held : cache.chain other with
    | none => simp [held] at present
    | some hashes =>
      have listed : key ∈ hashes ∧ key ≠ hash := by simpa [held] using present
      simpa using listed.1
  · exact present

theorem contains_empty (chainId hash : Bytes) : empty.contains chainId hash = false := rfl

theorem contains_new (size : Int) (chainId hash : Bytes) :
    (newArchiveHashCache size).contains chainId hash = false := by
  unfold newArchiveHashCache
  split_ifs <;> rfl

end ArchiveHashCache

theorem RequestContext.accept_isBatch {context request : RequestContext}
    (accepted : context.accept parsed = .ok request) (valid : request.error = none) :
    request.isBatch = decide (1 < request.requestBody.length) := by
  rw [RequestContext.accept_parsed accepted valid] at accepted
  rcases RequestContext.accept_cases accepted with ⟨several, same⟩ | ⟨object, single, same⟩
  · have isBatch : request.isBatch = true := by
      rw [same]
      exact (RequestContext.validate_spec _).1
    rw [isBatch, decide_eq_true several]
  · have isBatch : request.isBatch = false := by
      rw [same]
      exact (RequestContext.validate_spec _).1
    rw [isBatch, single]
    rfl

/-- What the cache could change about a request: everything but the cache afterwards. -/
def Visit.routing (visit : Visit) : Bool × List Attempt × Checked Response :=
  (visit.diverted, visit.attempts, visit.response)

namespace Balancer

section Definitions

variable (balancer : Balancer)

/-- A request that reached the choice of a node, on its effective chain. -/
structure Admitted (encounter : Encounter) (request : RequestContext) (chainId : Bytes) : Prop where
  received : generateRequestContext balancer.sonic encounter.nodeType encounter.body = .ok request
  valid : request.error = none
  chain : effectiveChainID encounter.overrides encounter.chainID = some chainId
  unanswered : encounter.preprocessed = none

/-- A request with at most one item whose own block context is pinned to a hash. -/
structure Pinned (encounter : Encounter) (request : RequestContext) (chainId hash : Bytes) : Prop
    extends balancer.Admitted encounter request chainId where
  single : request.requestBody.length ≤ 1
  pinned : pinnedHash (balancer.parseBlockContext request.requestBody) = some hash

/-- A first node that is no archive node lacks the state, and an archive node of the chain
serves it. -/
def Escalated (encounter : Encounter) (chainId : Bytes) (attempts : List Attempt) : Prop :=
  ∃ first retry rest, attempts = first :: retry :: rest ∧
    first.archive = false ∧ first.node.nodeType ≠ nodeTypeArchive ∧
    stateBlockNotFound ∈ balancer.codesOf first.response.body ∧
    retry.node ∈ (encounter.selector .archive).random.nodes .archive chainId ∧
    retry.response.status = 200 ∧
    stateBlockNotFound ∉ balancer.codesOf retry.response.body ∧
    invalidBlockID ∉ balancer.codesOf retry.response.body

/-- The visit that let a hash into the cache of a chain. -/
def Proves (encounter : Encounter) (visit : Visit) (chainId hash : Bytes) : Prop :=
  (∃ request, balancer.Pinned encounter request chainId hash) ∧
    balancer.Escalated encounter chainId visit.attempts

/-- A request the cache may divert. No request is forced to native before its first attempt. -/
def Eligible (cache : ArchiveHashCache) (encounter : Encounter) : Prop :=
  ∃ request chainId hash, balancer.Pinned encounter request chainId hash ∧
    request.archive = false ∧ cache.contains chainId hash = true

end Definitions

variable {balancer : Balancer} {encounter : Encounter} {context : RoutedContext}

theorem nativeStage_spec (encounter : Encounter) (context : RoutedContext) (archive : Bool)
    (codes : List Int) (visit : Visit) :
    (balancer.nativeStage encounter context archive codes visit).cache = visit.cache ∧
      (balancer.nativeStage encounter context archive codes visit).diverted = visit.diverted ∧
      ∃ rest, (balancer.nativeStage encounter context archive codes visit).attempts =
        visit.attempts ++ rest := by
  unfold nativeStage
  split_ifs
  · split
    · exact ⟨rfl, rfl, [], by simp⟩
    · exact ⟨rfl, rfl, [], by simp⟩
    · exact ⟨rfl, rfl, _, rfl⟩
  · exact ⟨rfl, rfl, [], by simp⟩

theorem nativeStage_routing (encounter : Encounter) (context : RoutedContext) (archive : Bool)
    (codes : List Int) {visit other : Visit} (same : visit.routing = other.routing) :
    (balancer.nativeStage encounter context archive codes visit).routing =
      (balancer.nativeStage encounter context archive codes other).routing := by
  obtain ⟨diverted, attempts, response, cache⟩ := visit
  obtain ⟨_, _, _, later⟩ := other
  obtain ⟨rfl, rfl, rfl⟩ : _ ∧ _ ∧ _ := by simpa [Visit.routing] using same
  unfold nativeStage
  split_ifs
  · split <;> rfl
  · rfl

theorem archiveStage_routing (encounter : Encounter) (context : RoutedContext)
    {visit other : Visit} (same : visit.routing = other.routing) :
    (balancer.archiveStage encounter context visit).routing =
      (balancer.archiveStage encounter context other).routing := by
  obtain ⟨diverted, attempts, response, cache⟩ := visit
  obtain ⟨_, _, _, later⟩ := other
  obtain ⟨rfl, rfl, rfl⟩ : _ ∧ _ ∧ _ := by simpa [Visit.routing] using same
  unfold archiveStage
  split
  · rfl
  · rfl
  · exact nativeStage_routing encounter context true _ rfl

theorem archiveStage_spec (encounter : Encounter) (context : RoutedContext) (visit : Visit) :
    (balancer.archiveStage encounter context visit).diverted = visit.diverted ∧
      ((balancer.archiveStage encounter context visit).cache = visit.cache ∨
        ∃ node response rest,
          balancer.nodeAt (encounter.selector .archive) context true [] = .ok (some node) ∧
          (balancer.archiveStage encounter context visit).attempts =
            visit.attempts ++ ⟨node, true, response⟩ :: rest ∧
          (balancer.archiveStage encounter context visit).cache =
            balancer.remember visit.cache context response) := by
  unfold archiveStage
  split
  · exact ⟨rfl, .inl rfl⟩
  · exact ⟨rfl, .inl rfl⟩
  next node chosen =>
    obtain ⟨cache, diverted, rest, attempts⟩ :=
      @nativeStage_spec balancer encounter context true _ _
    refine ⟨diverted, .inr ⟨node, _, rest, chosen, ?_, cache⟩⟩
    rw [attempts]
    simp

theorem stages_diverted (cache : ArchiveHashCache) (encounter : Encounter)
    (context : RoutedContext) :
    (balancer.stages cache encounter context).diverted = balancer.diverts cache context := by
  unfold stages
  dsimp only
  split
  · rfl
  · rfl
  · split_ifs
    · exact (archiveStage_spec ..).1
    · exact (nativeStage_spec ..).2.1

/-- Past the diversion the cache is only written. -/
theorem stages_routing (same : balancer.diverts cache context = balancer.diverts other context)
    (encounter : Encounter) :
    (balancer.stages cache encounter context).routing =
      (balancer.stages other encounter context).routing := by
  unfold stages
  rw [same]
  dsimp only
  split
  · rfl
  · rfl
  · split_ifs
    · exact archiveStage_routing encounter context rfl
    · exact nativeStage_routing encounter context _ _ rfl

/-- What `remember` adds, and when. -/
theorem remember_contains {cache : ArchiveHashCache} {response : Response} {chainId hash : Bytes}
    (present : (balancer.remember cache context response).contains chainId hash = true) :
    cache.contains chainId hash = true ∨
      chainId = context.chainId ∧ context.isBatch = false ∧ balancer.hashOf context = some hash ∧
        response.status = 200 ∧ stateBlockNotFound ∉ balancer.codesOf response.body ∧
        invalidBlockID ∉ balancer.codesOf response.body := by
  unfold remember at present
  dsimp only at present
  split_ifs at present with unfit
  · exact .inl present
  · cases hashed : balancer.hashOf context with
    | none => exact .inl (by simpa [hashed] using present)
    | some pinned =>
      rw [hashed] at present
      rcases ArchiveHashCache.contains_add present with held | ⟨rfl, rfl⟩
      · exact .inl held
      · simp only [Bool.or_eq_true, not_or] at unfit
        obtain ⟨⟨⟨⟨-, single⟩, status⟩, found⟩, valid⟩ := unfit
        exact .inr ⟨rfl, by simpa using single, rfl, by simpa using status, by simpa using found,
          by simpa using valid⟩

/-- A hash in the cache was there before, or this request put it there. -/
theorem stages_contains {cache : ArchiveHashCache} {chainId hash : Bytes}
    (present : (balancer.stages cache encounter context).cache.contains chainId hash = true) :
    cache.contains chainId hash = true ∨
      chainId = context.chainId ∧ context.isBatch = false ∧ balancer.hashOf context = some hash ∧
        balancer.Escalated encounter chainId (balancer.stages cache encounter context).attempts := by
  unfold stages at present ⊢
  dsimp only at present ⊢
  split at present
  · exact .inl present
  · exact .inl present
  next node archive _ =>
    split_ifs at present ⊢ with retried
    · obtain ⟨-, unchanged | ⟨node, response, rest, chosen, attempts, remembered⟩⟩ :=
        @archiveStage_spec balancer encounter context _
      · rw [unchanged] at present
        exact .inl present
      · rw [remembered] at present
        rcases remember_contains present with held | ⟨rfl, single, pinned, served⟩
        · exact .inl held
        · rw [Bool.and_eq_true, Bool.not_eq_true', Bool.or_eq_false_iff] at retried
          obtain ⟨⟨unset, kind⟩, missing⟩ := retried
          refine .inr ⟨rfl, single, pinned, _, _, rest, attempts, ?_, ?_, ?_, ?_, served⟩
          · simpa [unset] using kind
          · simpa using kind
          · simpa using missing
          · exact getNode_archive chosen
    · rw [(nativeStage_spec ..).1] at present
      exact .inl present

/-- A request is answered without the cache, or goes through the stages. -/
theorem serveHTTP_cases (balancer : Balancer) (encounter : Encounter) :
    (∃ response, ∀ cache, balancer.serveHTTP cache encounter = ⟨false, [], response, cache⟩) ∨
      ∃ request chainId, balancer.Admitted encounter request chainId ∧
        ∀ cache, balancer.serveHTTP cache encounter =
          balancer.stages cache encounter
            { request with chainId := chainId, native := false, memo := .fresh } := by
  unfold serveHTTP
  cases received : generateRequestContext balancer.sonic encounter.nodeType encounter.body with
  | error fault => exact .inl ⟨_, fun _ => rfl⟩
  | ok request =>
    cases valid : request.error with
    | some error => exact .inl ⟨_, fun _ => by simp only [valid]; rfl⟩
    | none =>
      cases chain : effectiveChainID encounter.overrides encounter.chainID with
      | none => exact .inl ⟨_, fun _ => by simp only [valid]; rfl⟩
      | some chainId =>
        cases unanswered : encounter.preprocessed with
        | some response => exact .inl ⟨_, fun _ => by simp only [valid]; rfl⟩
        | none =>
          refine .inr ⟨request, chainId, ⟨received, valid, chain, unanswered⟩, fun cache => ?_⟩
          simp only [valid]
          exact route_eq (.inl ⟨rfl, rfl⟩) cache encounter

theorem Admitted.isBatch_eq (admitted : balancer.Admitted encounter request chainId) :
    request.isBatch = decide (1 < request.requestBody.length) := by
  obtain ⟨parsed, -, accepted⟩ := Checked.of_bind_ok admitted.received
  exact RequestContext.accept_isBatch accepted admitted.valid

theorem Admitted.pinned {hash : Bytes} (admitted : balancer.Admitted encounter request chainId)
    (single : request.isBatch = false)
    (pinned : pinnedHash (balancer.parseBlockContext request.requestBody) = some hash) :
    balancer.Pinned encounter request chainId hash := by
  rw [admitted.isBatch_eq, decide_eq_false_iff_not] at single
  exact { admitted with single := Nat.le_of_not_lt single, pinned }

theorem Admitted.eligible {cache : ArchiveHashCache}
    (admitted : balancer.Admitted encounter request chainId)
    (diverted : balancer.diverts cache
      { request with chainId := chainId, native := false, memo := .fresh } = true) :
    balancer.Eligible cache encounter := by
  unfold diverts hashOf at diverted
  rw [Bool.and_eq_true, Bool.not_eq_true', Bool.or_eq_false_iff, Bool.or_eq_false_iff] at diverted
  obtain ⟨⟨⟨free, -⟩, single⟩, held⟩ := diverted
  cases pinned : pinnedHash (balancer.parseBlockContext request.requestBody) with
  | none => simp [pinned] at held
  | some hash =>
    exact ⟨request, chainId, hash, admitted.pinned single pinned, free, by simpa [pinned] using held⟩

theorem serveHTTP_contains {cache : ArchiveHashCache} {chainId hash : Bytes}
    (present : (balancer.serveHTTP cache encounter).cache.contains chainId hash = true) :
    cache.contains chainId hash = true ∨
      balancer.Proves encounter (balancer.serveHTTP cache encounter) chainId hash := by
  rcases balancer.serveHTTP_cases encounter with
    ⟨response, answered⟩ | ⟨request, own, admitted, staged⟩
  · rw [answered] at present
    exact .inl present
  · rw [staged] at present ⊢
    rcases stages_contains present with held | ⟨rfl, single, pinned, escalated⟩
    · exact .inl held
    · exact .inr ⟨⟨request, admitted.pinned single pinned⟩, escalated⟩

theorem serveHTTP_diverted {cache : ArchiveHashCache}
    (diverted : (balancer.serveHTTP cache encounter).diverted = true) :
    balancer.Eligible cache encounter := by
  rcases balancer.serveHTTP_cases encounter with
    ⟨response, answered⟩ | ⟨request, own, admitted, staged⟩
  · rw [answered] at diverted
    cases diverted
  · rw [staged, stages_diverted] at diverted
    exact admitted.eligible diverted

theorem serveHTTP_routing {cache : ArchiveHashCache}
    (ineligible : ¬balancer.Eligible cache encounter) :
    (balancer.serveHTTP cache encounter).routing = (balancer.serveHTTP .empty encounter).routing := by
  rcases balancer.serveHTTP_cases encounter with
    ⟨response, answered⟩ | ⟨request, own, admitted, staged⟩
  · rw [answered, answered]
    rfl
  · rw [staged, staged]
    apply stages_routing
    rw [Bool.eq_false_iff.mpr fun diverted => ineligible (admitted.eligible diverted)]
    unfold diverts
    split <;> simp [ArchiveHashCache.contains_empty]

end Balancer

/-- What can happen to the cache: a request is served, or an entry vanishes. -/
inductive CacheAction where
  | serve (encounter : Encounter)
  | vanish (chainId hash : Bytes)

/-- The cache, and the requests served so far with how each went. -/
structure Served where
  cache : ArchiveHashCache
  visits : List (Encounter × Visit)

namespace Balancer

def after (balancer : Balancer) (served : Served) : CacheAction → Served
  | .serve encounter =>
    let visit := balancer.serveHTTP served.cache encounter
    ⟨visit.cache, served.visits ++ [(encounter, visit)]⟩
  | .vanish chainId hash => { served with cache := served.cache.evict chainId hash }

/-- A proxy with a new cache after a sequence of actions. -/
def serveAll (balancer : Balancer) (size : Int) (actions : List CacheAction) : Served :=
  actions.foldl balancer.after ⟨newArchiveHashCache size, []⟩

/-- Every entry of the cache comes from a visit. -/
def Backed (balancer : Balancer) (served : Served) : Prop :=
  ∀ chainId hash, served.cache.contains chainId hash = true →
    ∃ encounter visit, (encounter, visit) ∈ served.visits ∧
      balancer.Proves encounter visit chainId hash

theorem Backed.after {balancer : Balancer} {served : Served} (backed : balancer.Backed served)
    (action : CacheAction) : balancer.Backed (balancer.after served action) := by
  intro chainId hash present
  cases action with
  | serve encounter =>
    rcases serveHTTP_contains present with held | proves
    · obtain ⟨earlier, visit, listed, proves⟩ := backed chainId hash held
      exact ⟨earlier, visit, List.mem_append_left _ listed, proves⟩
    · exact ⟨encounter, _, List.mem_append_right _ (List.mem_singleton_self _), proves⟩
  | vanish chain other =>
    exact backed chainId hash (ArchiveHashCache.contains_evict present)

theorem backed_serveAll (balancer : Balancer) (size : Int) (actions : List CacheAction) :
    balancer.Backed (balancer.serveAll size actions) := by
  unfold serveAll
  have start : balancer.Backed ⟨newArchiveHashCache size, []⟩ := by
    intro chainId hash present
    rw [ArchiveHashCache.contains_new] at present
    cases present
  generalize (⟨newArchiveHashCache size, []⟩ : Served) = served at start ⊢
  induction actions generalizing served with
  | nil => exact start
  | cons action actions inductionHypothesis => exact inductionHypothesis _ (start.after action)

def sampleHash : Bytes := List.replicate 32 0xAB

/-- A request pinned to the hash. -/
def sampleBody : Bytes :=
  ascii "\x7b\"jsonrpc\":\"2.0\",\"method\":\"eth_call\",\"params\":[\x7b\"block_id\":\"0x" ++
    (List.replicate 32 (ascii "ab")).flatten ++ ascii "\",\"type\":\"Equals\"\x7d],\"id\":1\x7d"

def plainAnswer : Bytes :=
  ascii ("\x7b\"jsonrpc\":\"2.0\",\"id\":1," ++
    "\"error\":\x7b\"code\":-39006,\"message\":\"state block not found\"\x7d\x7d")

def resultAnswer : Bytes := ascii "\x7b\"jsonrpc\":\"2.0\",\"id\":1,\"result\":\"0x1\"\x7d"

/-- The code in the answer of a node that lacks a state is decoded. -/
def sampleBalancer : Balancer where
  sonic := scanningSonic
  errorCode body := some (if body = plainAnswer then some stateBlockNotFound else none)
  errorCodes _ := none
  marshalResponse := ResponseObject.text
  parseBlockContext := readBlockContext

def sampleNodes (nodeType : Int) : Assoc Bytes (List Node) :=
  AList.insert (ascii "1")
    [⟨ascii "n", ascii "10.0.0.1", 8545, ascii "10.0.0.1:8545", ascii "official", 1, stateAvailable,
      nodeType⟩] ∅

/-- A state node lacks the state, an archive node has it. -/
def sampleEncounter : Encounter where
  nodeType := []
  body := some sampleBody
  chainID := ascii "1"
  overrides := ∅
  preprocessed := none
  selector _ := ⟨⟨sampleNodes nodeTypeArchive, sampleNodes nodeTypeState, ∅, ∅⟩, ⟨∅, ∅⟩, 0⟩
  upstream
    | .archive => ⟨200, resultAnswer⟩
    | _ => ⟨200, plainAnswer⟩

/-- A hash is cached for a chain only after a request on that chain showed that it needs archive
nodes and that they serve it. The cache diverts only requests pinned to a hash it holds for their
own chain, and any other request takes the path it would take with an empty cache. -/
theorem archiveHashCache_sound (balancer : Balancer) (size : Int) (actions : List CacheAction) :
    let served := balancer.serveAll size actions
    (∀ chainId hash, served.cache.contains chainId hash = true →
      ∃ encounter visit, (encounter, visit) ∈ served.visits ∧
        balancer.Proves encounter visit chainId hash) ∧
    ∀ encounter,
      ((balancer.serveHTTP served.cache encounter).diverted = true →
        balancer.Eligible served.cache encounter) ∧
      (¬balancer.Eligible served.cache encounter →
        (balancer.serveHTTP served.cache encounter).routing =
          (balancer.serveHTTP .empty encounter).routing) := by
  refine ⟨backed_serveAll balancer size actions, fun encounter => ⟨?_, ?_⟩⟩
  · exact serveHTTP_diverted
  · exact serveHTTP_routing

theorem archiveHashCache_sound_sample :
    let served := sampleBalancer.serveAll 1 [.serve sampleEncounter]
    (∃ encounter visit, (encounter, visit) ∈ served.visits ∧
      sampleBalancer.Proves encounter visit (ascii "1") sampleHash) ∧
    sampleBalancer.Eligible served.cache sampleEncounter := by
  have sound := archiveHashCache_sound sampleBalancer 1 [.serve sampleEncounter]
  refine ⟨sound.1 (ascii "1") sampleHash ?_, (sound.2 sampleEncounter).1 ?_⟩
  · decide +kernel
  · decide +kernel

end Balancer

end NodexProxy.Lb
