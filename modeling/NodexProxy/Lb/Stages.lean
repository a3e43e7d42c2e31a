import NodexProxy.Lb.Serve

/-! `ServeHTTP` without its memos: every block context and every list of error codes is computed
where it is used. The handler does the same. -/

namespace NodexProxy.Lb

open NodexProxy.Foundation NodexProxy.Discovery NodexProxy.Jsonrpc

theorem ArchiveHashCache.hasChain_of_contains {cache : ArchiveHashCache} {chainId hash : Bytes}
    (present : cache.contains chainId hash = true) : cache.hasChain chainId = true := by
  unfold contains at present
  unfold hasChain
  cases held : cache.chain chainId with
  | none => simp [held] at present
  | some hashes => rfl

namespace Balancer

section Stages

variable (balancer : Balancer)

def codesOf (body : Bytes) : List Int :=
  let trimmed := trimSpace body
  if trimmed = [] then []
  else if !containsErrorKey trimmed then []
  else balancer.decodeErrorCodes trimmed

/-- The hash a request's own block context is pinned to. -/
def hashOf (context : RoutedContext) : Option Bytes :=
  pinnedHash (balancer.parseBlockContext context.requestBody)

def nodeAt (selector : Selector) (context : RoutedContext) (archive : Bool) (requestKey : Bytes) :
    Checked (Option Node) :=
  getNode selector context.chainId context.method context.isBatch archive
    (balancer.parseBlockContext context.requestBody) requestKey

def diverts (cache : ArchiveHashCache) (context : RoutedContext) : Bool :=
  !(context.archive || context.native || context.isBatch) &&
    match balancer.hashOf context with
    | none => false
    | some hash => cache.contains context.chainId hash

def remember (cache : ArchiveHashCache) (context : RoutedContext) (response : Response) :
    ArchiveHashCache :=
  let codes := balancer.codesOf response.body
  if cache.chains.isNone || context.isBatch || response.status ≠ 200 ||
      codes.contains stateBlockNotFound || codes.contains invalidBlockID then cache
  else
    match balancer.hashOf context with
    | none => cache
    | some hash => cache.add context.chainId hash

def nativeStage (encounter : Encounter) (context : RoutedContext) (archive : Bool) (codes : List Int)
    (visit : Visit) : Visit :=
  if !context.native && codes.contains cosmosPrecompile then
    match balancer.nodeAt (encounter.selector .native) context archive (ascii "native") with
    | .error fault => { visit with response := .error fault }
    | .ok none =>
      { visit with response := .ok (balancer.writeNoBackend context "no native backends available") }
    | .ok (some node) =>
      let response := balancer.receive context.requestBody (encounter.upstream .native)
      { visit with attempts := visit.attempts ++ [⟨node, archive, response⟩], response := .ok response }
  else visit

def archiveStage (encounter : Encounter) (context : RoutedContext) (visit : Visit) : Visit :=
  match balancer.nodeAt (encounter.selector .archive) context true [] with
  | .error fault => { visit with response := .error fault }
  | .ok none =>
    { visit with response := .ok (balancer.writeNoBackend context "no backends available") }
  | .ok (some node) =>
    let response := balancer.receive context.requestBody (encounter.upstream .archive)
    balancer.nativeStage encounter context true (balancer.codesOf response.body)
      { visit with
        attempts := visit.attempts ++ [⟨node, true, response⟩]
        response := .ok response
        cache := balancer.remember visit.cache context response }

/-- The first node, and the archive flag it was chosen with. -/
def firstNode (encounter : Encounter) (context : RoutedContext) (diverted : Bool) :
    Checked (Option Node × Bool) := do
  let archive := context.archive || diverted
  let node ← balancer.nodeAt (encounter.selector .first) context archive []
  if node.isNone && diverted then
    let node ← balancer.nodeAt (encounter.selector .fallback) context false []
    return (node, false)
  else return (node, archive)

def stages (cache : ArchiveHashCache) (encounter : Encounter) (context : RoutedContext) : Visit :=
  let diverted := balancer.diverts cache context
  match balancer.firstNode encounter context diverted with
  | .error fault => ⟨diverted, [], .error fault, cache⟩
  | .ok (none, _) =>
    ⟨diverted, [], .ok (balancer.writeNoBackend context "no backends available"), cache⟩
  | .ok (some node, archive) =>
    let archive := archive || node.nodeType = nodeTypeArchive
    let response := balancer.receive context.requestBody (encounter.upstream .first)
    let codes := balancer.codesOf response.body
    let visit : Visit := ⟨diverted, [⟨node, archive, response⟩], .ok response, cache⟩
    if !archive && codes.contains stateBlockNotFound then balancer.archiveStage encounter context visit
    else balancer.nativeStage encounter context archive codes visit

end Stages

section Memos

variable {balancer : Balancer} {context : RoutedContext}

/-- The block context has not been asked for, or the memo holds the parser's result. -/
def Memoised (balancer : Balancer) (context : RoutedContext) : Prop :=
  context.memo.blockContext = none ∧ context.memo.blockContextDone = false ∨
    context.memo.blockContext = balancer.parseBlockContext context.requestBody

theorem getBlockContext_eq (memoised : balancer.Memoised context) :
    ∃ memo, balancer.Memoised { context with memo := memo } ∧
      balancer.getBlockContext context =
        (balancer.parseBlockContext context.requestBody, { context with memo := memo }) := by
  unfold getBlockContext
  split_ifs with unknown
  · exact ⟨_, .inr rfl, rfl⟩
  · rcases memoised with fresh | known
    · exact absurd fresh unknown
    · exact ⟨context.memo, .inr known, by rw [known]⟩

theorem requestBlockHash_eq (memoised : balancer.Memoised context) :
    ∃ memo, balancer.Memoised { context with memo := memo } ∧
      balancer.requestBlockHash context =
        (balancer.hashOf context, { context with memo := memo }) := by
  obtain ⟨memo, kept, same⟩ := getBlockContext_eq memoised
  refine ⟨memo, kept, ?_⟩
  unfold requestBlockHash
  rw [same]
  rfl

/-- The choice depends on the archive flag of the moment and not on the native one. -/
theorem chooseTargetNode_eq {archive native : Bool} {memo : Memo}
    (memoised : balancer.Memoised { context with archive, native, memo }) (selector : Selector)
    (requestKey : Bytes) :
    ∃ later, balancer.Memoised { context with archive, native, memo := later } ∧
      balancer.chooseTargetNode selector { context with archive, native, memo } requestKey =
        (balancer.nodeAt selector context archive requestKey).map
          fun node => (node, { context with archive, native, memo := later }) := by
  obtain ⟨later, kept, same⟩ := getBlockContext_eq memoised
  refine ⟨later, kept, ?_⟩
  unfold chooseTargetNode
  rw [same]
  rfl

theorem attemptRequest_fst (context : RoutedContext) (node : Node) (upstream : Response) :
    (balancer.attemptRequest context node upstream).1 =
      ⟨node, context.archive, balancer.receive context.requestBody upstream⟩ := rfl

/-- An attempt forgets what was known about the response before it. -/
theorem attempt_codes (memoised : balancer.Memoised context) (node : Node) (upstream : Response) :
    ∃ memo, balancer.Memoised { context with memo := memo } ∧
      balancer.parseRPCErrorCodes (balancer.attemptRequest context node upstream).2
          (balancer.attemptRequest context node upstream).1.response.body =
        (balancer.codesOf (balancer.receive context.requestBody upstream).body,
          { context with memo := memo }) := by
  unfold parseRPCErrorCodes codesOf
  dsimp only [attemptRequest, resetResponseErrorKey, cachedResponseContainsErrorKey]
  split_ifs
  all_goals
    refine ⟨_, ?_, rfl⟩
    exact memoised

theorem retryWithNative_eq (encounter : Encounter) (codes : List Int) (visit : Visit)
    (memoised : balancer.Memoised { context with archive := archive, memo := memo }) :
    balancer.retryWithNative encounter { context with archive := archive, memo := memo } codes visit =
      balancer.nativeStage encounter context archive codes visit := by
  unfold retryWithNative nativeStage shouldRetryWithNative
  dsimp only [resetResponseErrorKey]
  split_ifs
  · have ready : balancer.Memoised { context with
        archive, native := true, memo := { memo with responseErrorKey := none } } := memoised
    obtain ⟨later, -, chosen⟩ :=
      chooseTargetNode_eq ready (encounter.selector .native) (ascii "native")
    rw [chosen]
    cases balancer.nodeAt (encounter.selector .native) context archive (ascii "native") with
    | error fault => rfl
    | ok node =>
      cases node with
      | none => rfl
      | some node => rfl
  · rfl

theorem rememberArchiveHash_eq (memoised : balancer.Memoised context) (cache : ArchiveHashCache)
    (response : Response) :
    ∃ memo, balancer.Memoised { context with memo := memo } ∧
      balancer.rememberArchiveHash cache context response.status (balancer.codesOf response.body) =
        (balancer.remember cache context response, { context with memo := memo }) := by
  obtain ⟨memo, kept, same⟩ := requestBlockHash_eq memoised
  unfold rememberArchiveHash remember
  dsimp only
  rw [same]
  by_cases skipped : (cache.chains.isNone || context.isBatch) = true
  · exact ⟨context.memo, memoised, by simp [skipped]⟩
  by_cases unfit : (decide (response.status ≠ 200) ||
      (balancer.codesOf response.body).contains stateBlockNotFound ||
      (balancer.codesOf response.body).contains invalidBlockID) = true
  · refine ⟨context.memo, memoised, ?_⟩
    rw [if_neg skipped, if_pos unfit, if_pos]
    simpa [skipped] using unfit
  · refine ⟨memo, kept, ?_⟩
    rw [if_neg skipped, if_neg unfit, if_neg]
    · cases balancer.hashOf context with
      | none => rfl
      | some hash => rfl
    · simpa [skipped] using unfit

theorem retryWithArchive_eq (encounter : Encounter) (visit : Visit)
    (memoised : balancer.Memoised context) :
    balancer.retryWithArchive encounter context visit =
      balancer.archiveStage encounter context visit := by
  unfold retryWithArchive archiveStage
  dsimp only [resetResponseErrorKey]
  have ready : balancer.Memoised { context with
      archive := true, memo := { context.memo with responseErrorKey := none } } := memoised
  obtain ⟨memo, kept, chosen⟩ := chooseTargetNode_eq ready (encounter.selector .archive) []
  rw [chosen]
  cases balancer.nodeAt (encounter.selector .archive) context true [] with
  | error fault => rfl
  | ok node =>
    cases node with
    | none => rfl
    | some node =>
      obtain ⟨counted, kept, codes⟩ := attempt_codes kept node (encounter.upstream .archive)
      obtain ⟨looked, kept, remembered⟩ := rememberArchiveHash_eq kept visit.cache
        (balancer.receive context.requestBody (encounter.upstream .archive))
      dsimp only [Except.map]
      rw [codes, attemptRequest_fst]
      dsimp only
      rw [remembered]
      exact retryWithNative_eq encounter _ _ kept

theorem routeCachedArchiveHash_eq (memoised : balancer.Memoised context)
    (cache : ArchiveHashCache) :
    ∃ memo, balancer.Memoised { context with memo := memo } ∧
      balancer.routeCachedArchiveHash cache context =
        (balancer.diverts cache context,
          { context with archive := context.archive || balancer.diverts cache context, memo }) := by
  obtain ⟨memo, kept, same⟩ := requestBlockHash_eq memoised
  unfold routeCachedArchiveHash diverts
  rw [same]
  by_cases preset : (context.archive || context.native || context.isBatch) = true
  · refine ⟨context.memo, memoised, ?_⟩
    simp [preset]
  · simp only [preset]
    by_cases missing : cache.hasChain context.chainId = true
    · refine ⟨memo, kept, ?_⟩
      cases balancer.hashOf context with
      | none => simp [missing]
      | some hash => cases held : cache.contains context.chainId hash <;> simp [missing, held]
    · refine ⟨context.memo, memoised, ?_⟩
      cases balancer.hashOf context with
      | none => simp [missing]
      | some hash =>
        cases held : cache.contains context.chainId hash with
        | false => simp [missing, held]
        | true => exact absurd (ArchiveHashCache.hasChain_of_contains held) missing

theorem chooseFirstNode_eq (encounter : Encounter) (diverted : Bool)
    (memoised : balancer.Memoised { context with memo := memo }) :
    ∃ later, balancer.Memoised { context with memo := later } ∧
      balancer.chooseFirstNode encounter diverted
          { context with archive := context.archive || diverted, memo } =
        (balancer.firstNode encounter context diverted).map
          fun found => (found.1, { context with archive := found.2, memo := later }) := by
  have ready : balancer.Memoised
      { context with archive := context.archive || diverted, memo } := memoised
  obtain ⟨later, kept, chosen⟩ := chooseTargetNode_eq ready (encounter.selector .first) []
  unfold chooseFirstNode firstNode
  rw [chosen]
  dsimp only
  cases balancer.nodeAt (encounter.selector .first) context (context.archive || diverted) [] with
  | error fault => exact ⟨later, kept, rfl⟩
  | ok node =>
    dsimp only [Except.map, bind, Except.bind]
    by_cases unserved : (node.isNone && diverted) = true
    · have back : balancer.Memoised { context with archive := false, memo := later } := kept
      obtain ⟨last, kept, chosen⟩ := chooseTargetNode_eq back (encounter.selector .fallback) []
      refine ⟨last, kept, ?_⟩
      simp only [unserved, if_true, chosen]
      cases balancer.nodeAt (encounter.selector .fallback) context false [] with
      | error fault => rfl
      | ok node => rfl
    · refine ⟨later, kept, ?_⟩
      simp only [unserved]
      rfl

/-- The memos decide when something is computed, never which node is asked or what is kept. -/
theorem route_eq (memoised : balancer.Memoised context) (cache : ArchiveHashCache)
    (encounter : Encounter) :
    balancer.route cache encounter context = balancer.stages cache encounter context := by
  obtain ⟨memo, kept, looked⟩ := routeCachedArchiveHash_eq memoised cache
  unfold route stages
  rw [looked]
  obtain ⟨later, kept, chosen⟩ := chooseFirstNode_eq encounter (balancer.diverts cache context) kept
  dsimp only
  rw [chosen]
  cases balancer.firstNode encounter context (balancer.diverts cache context) with
  | error fault => rfl
  | ok found =>
    obtain ⟨node, archive⟩ := found
    cases node with
    | none => rfl
    | some node =>
      have typed : (if node.nodeType = nodeTypeArchive then
          { context with archive := true, memo := later }
        else { context with archive := archive, memo := later }) =
          { context with
            archive := archive || decide (node.nodeType = nodeTypeArchive), memo := later } := by
        split_ifs with holds <;> simp [holds]
      dsimp only [Except.map]
      rw [typed]
      have ready : balancer.Memoised { context with
        archive := archive || decide (node.nodeType = nodeTypeArchive), memo := later } := kept
      obtain ⟨counted, kept, codes⟩ := attempt_codes ready node (encounter.upstream .first)
      rw [codes, attemptRequest_fst]
      dsimp only [shouldRetryWithArchive]
      congr 1
      · exact retryWithArchive_eq encounter _ kept
      · exact retryWithNative_eq encounter _ _ kept

end Memos

end Balancer

end NodexProxy.Lb
