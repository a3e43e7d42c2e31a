import NodexProxy.Discovery.Key
import NodexProxy.Lb.Mirrors

/-! When the limiters follow the targets: a limiter left behind by a bulk deletion or by an
update without a limit applies to whatever target comes to its URL next. -/

namespace NodexProxy.Lb

open NodexProxy.Foundation NodexProxy.Discovery NodexProxy.Admin

/-- The target stored for a chain under an address key. -/
def Mirroring.target (state : Mirroring) (chainId addrKey : Bytes) : Option MirrorTarget :=
  ((state.mirrors.lookup chainId).getD ∅).lookup addrKey

/-- The positive limit of a target, if it has one. -/
def targetLimit (target : MirrorTarget) : Option Int := target.rateLimit.filter fun rps => 0 < rps

def Mirroring.limit (state : Mirroring) (chainId url : Bytes) : Option Int :=
  state.limiters.lookup (limiterKey chainId url)

/-- Every target has exactly the limiter its own limit asks for. -/
def Mirroring.Follows (state : Mirroring) : Prop :=
  ∀ chainId addrKey target, state.target chainId addrKey = some target →
    state.limit chainId (targetURL target) = targetLimit target

/-- Distinct address keys of a chain have distinct URLs. -/
def Mirroring.DistinctURLs (state : Mirroring) : Prop :=
  ∀ chainId addrKey other first second, state.target chainId addrKey = some first →
    state.target chainId other = some second → targetURL first = targetURL second → addrKey = other

section Stores

variable (state : Mirroring) (chainId addrKey : Bytes)

theorem Mirroring.target_addMirrorTarget (target : MirrorTarget) (chain key : Bytes) :
    (state.addMirrorTarget chainId addrKey target).target chain key =
      if chain = chainId ∧ key = addrKey then some target else state.target chain key := by
  simp only [Mirroring.target, Mirroring.addMirrorTarget, Assoc.lookup_insert_eq]
  by_cases here : chain = chainId
  · subst chain
    simp [Assoc.lookup_insert_eq]
  · simp [here]

theorem Mirroring.target_deleteMirrorTarget (chain key : Bytes) :
    (state.deleteMirrorTarget chainId addrKey).target chain key =
      if chain = chainId ∧ key = addrKey then none else state.target chain key := by
  simp only [Mirroring.target, Mirroring.deleteMirrorTarget]
  cases stored : state.mirrors.lookup chainId with
  | none =>
    by_cases here : chain = chainId
    · subst chain
      simp [stored]
    · simp [here]
  | some targets =>
    have erased := Assoc.lookup_erase_eq targets addrKey key
    dsimp only
    split
    · rename_i empty
      have nothing : (targets.erase addrKey).lookup key = none := by
        rw [AList.lookup_eq_none, AList.mem_keys, empty]
        simp
      by_cases here : chain = chainId
      · subst chain
        rw [nothing] at erased
        simpa [Assoc.lookup_erase_eq, stored] using erased
      · simp [here]
    · by_cases here : chain = chainId
      · subst chain
        simpa [Assoc.lookup_insert_eq, stored] using erased
      · simp [here]

theorem Mirroring.target_deleteChainMirrors (chain key : Bytes) :
    (state.deleteChainMirrors chainId).target chain key =
      if chain = chainId then none else state.target chain key := by
  simp only [Mirroring.target, Mirroring.deleteChainMirrors, Assoc.lookup_erase_eq]
  split <;> simp

end Stores

/-- What an operation does to the two stores. -/
inductive MirrorEffect where
  | nothing
  | add (chainId addrKey : Bytes) (target : MirrorTarget)
  | drop (chainId addrKey url : Bytes)
  | dropChain (chainId : Bytes)

def Mirroring.perform (state : Mirroring) : MirrorEffect → Mirroring
  | .nothing => state
  | .add chainId addrKey target => state.add chainId addrKey target
  | .drop chainId addrKey url => state.drop chainId addrKey url
  | .dropChain chainId => state.deleteChainMirrors chainId

/-- The effect of an operation; a request that fails its checks has none. -/
def MirrorOp.effect : MirrorOp → MirrorEffect
  | .event mirror =>
    if mirror.deleted then .drop mirror.chainId mirror.addrKey (targetURL mirror)
    else .add mirror.chainId mirror.addrKey mirror
  | .addLocal chainId bound =>
    match checkLocal chainId bound with
    | .error _ => .nothing
    | .ok request => .add chainId request.addrKey
      { address := request.address, port := request.port, rateLimit := request.rateLimit
        chainId, addrKey := request.addrKey, deleted := false }
  | .deleteLocal chainId bound =>
    match checkLocal chainId bound with
    | .error _ => .nothing
    | .ok request => .drop chainId request.addrKey (mirrorURL request.address request.port)
  | .deleteAllLocal chainId => if chainId = [] then .nothing else .dropChain chainId

theorem Mirroring.apply_eq_perform (state : Mirroring) (op : MirrorOp) :
    state.apply op = state.perform op.effect := by
  cases op with
  | event mirror =>
    simp only [Mirroring.apply, Mirroring.consume, MirrorOp.effect]
    split <;> rfl
  | addLocal chainId bound =>
    simp only [Mirroring.apply, Mirroring.addLocalMirror, MirrorOp.effect]
    cases checkLocal chainId bound <;> rfl
  | deleteLocal chainId bound =>
    simp only [Mirroring.apply, Mirroring.deleteLocalMirror, MirrorOp.effect]
    cases checkLocal chainId bound <;> rfl
  | deleteAllLocal chainId =>
    simp only [Mirroring.apply, Mirroring.deleteAllLocalMirrors, MirrorOp.effect]
    split <;> rfl

section Add

variable (state : Mirroring) (chainId addrKey : Bytes) (target : MirrorTarget)

theorem Mirroring.target_add (chain key : Bytes) :
    (state.add chainId addrKey target).target chain key =
      if chain = chainId ∧ key = addrKey then some target else state.target chain key := by
  rw [← state.target_addMirrorTarget]
  unfold Mirroring.add
  dsimp only
  split
  · rfl
  · split <;> rfl

/-- Only a positive limit on a named chain reaches the limiters. -/
theorem Mirroring.limiters_add :
    (state.add chainId addrKey target).limiters =
      match targetLimit target with
      | none => state.limiters
      | some rps =>
        if chainId = [] then state.limiters
        else state.limiters.insert (limiterKey chainId (targetURL target)) rps := by
  have url : targetURL target ≠ [] := by simp [targetURL, mirrorURL, ascii]
  unfold Mirroring.add targetLimit
  cases target.rateLimit with
  | none => rfl
  | some rps =>
    by_cases positive : 0 < rps
    · have valid : ¬ rps < 0 := by omega
      have nonzero : rps ≠ 0 := by omega
      by_cases unnamed : chainId = [] <;>
        simp [positive, unnamed, updateLimit, url, valid, nonzero, Mirroring.addMirrorTarget,
          Option.filter]
    · simp [positive, Mirroring.addMirrorTarget, Option.filter]

end Add

theorem Mirroring.target_drop (state : Mirroring) (chainId addrKey url chain key : Bytes) :
    (state.drop chainId addrKey url).target chain key =
      if chain = chainId ∧ key = addrKey then none else state.target chain key :=
  state.target_deleteMirrorTarget chainId addrKey chain key

theorem Mirroring.limiters_drop (state : Mirroring) (chainId addrKey url : Bytes) :
    (state.drop chainId addrKey url).limiters = state.limiters.erase (limiterKey chainId url) := by
  unfold Mirroring.drop Mirroring.removeLimit Mirroring.deleteMirrorTarget
  dsimp only
  split
  · rfl
  · split <;> rfl

/-- What an effect needs to find for the limiters to follow the targets after it. -/
def Mirroring.Meets (state : Mirroring) : MirrorEffect → Prop
  | .nothing | .dropChain _ => True
  | .add chainId _ target =>
    if (targetLimit target).isSome ∧ chainId ≠ [] then
      ∀ chain key other, state.target chain key = some other → chain ≠ chainId →
        limiterKey chain (targetURL other) = limiterKey chainId (targetURL target) →
        targetLimit other = targetLimit target
    else state.limit chainId (targetURL target) = targetLimit target
  | .drop chainId addrKey url =>
    ∀ chain key other, state.target chain key = some other →
      ¬ (chain = chainId ∧ key = addrKey) →
      limiterKey chain (targetURL other) = limiterKey chainId url → targetLimit other = none

theorem url_eq_of_limiterKey {chainId first second : Bytes}
    (same : limiterKey chainId first = limiterKey chainId second) : first = second := by
  simpa [limiterKey] using same

section FollowsAdd

variable {state : Mirroring} {chainId addrKey : Bytes} {target : MirrorTarget}

theorem Mirroring.target_add_self :
    (state.add chainId addrKey target).target chainId addrKey = some target := by
  simp [Mirroring.target_add]

/-- A new limiter is in the way of other targets under the same limiter key. -/
theorem Mirroring.follows_add_limited_iff (follows : state.Follows)
    (distinct : (state.add chainId addrKey target).DistinctURLs)
    (limit : targetLimit target = some rps) (named : chainId ≠ []) :
    (state.add chainId addrKey target).Follows ↔
      ∀ chain key other, state.target chain key = some other → chain ≠ chainId →
        limiterKey chain (targetURL other) = limiterKey chainId (targetURL target) →
        targetLimit other = targetLimit target := by
  have stored := state.target_add chainId addrKey target
  have limiters := state.limiters_add chainId addrKey target
  simp only [limit, named, if_false] at limiters
  constructor
  · intro after chain key other held elsewhere same
    have kept : (state.add chainId addrKey target).target chain key = some other := by
      rw [stored, if_neg (fun here => elsewhere here.1), held]
    rw [← after chain key other kept, Mirroring.limit, limiters, same, limit, AList.lookup_insert]
  · intro alone chain key other held
    rw [Mirroring.limit, limiters, Assoc.lookup_insert_eq]
    by_cases same : limiterKey chain (targetURL other) = limiterKey chainId (targetURL target)
    · rw [if_pos same, ← limit]
      by_cases here : chain = chainId
      · subst chain
        -- on the same chain the URL belongs to the added target alone
        have sameKey := distinct chainId key addrKey other target held target_add_self
          (url_eq_of_limiterKey same)
        subst key
        rw [target_add_self] at held
        cases held
        rfl
      · rw [stored, if_neg (fun addressed => here addressed.1)] at held
        exact (alone chain key other held here same).symm
    · rw [if_neg same]
      rw [stored] at held
      split at held
      · rename_i addressed
        cases held
        exact absurd (by rw [addressed.1]) same
      · exact follows chain key other held

/-- Without a new limiter the target gets the one its URL has. -/
theorem Mirroring.follows_add_unlimited_iff (follows : state.Follows)
    (unchanged : (state.add chainId addrKey target).limiters = state.limiters) :
    (state.add chainId addrKey target).Follows ↔
      state.limit chainId (targetURL target) = targetLimit target := by
  constructor
  · intro after
    have followed := after chainId addrKey target target_add_self
    rwa [Mirroring.limit, unchanged] at followed
  · intro fits chain key other held
    rw [Mirroring.limit, unchanged]
    rw [Mirroring.target_add] at held
    split at held
    · rename_i addressed
      cases held
      rw [addressed.1]
      exact fits
    · exact follows chain key other held

theorem Mirroring.follows_add_iff (follows : state.Follows)
    (distinct : (state.add chainId addrKey target).DistinctURLs) :
    (state.add chainId addrKey target).Follows ↔ state.Meets (.add chainId addrKey target) := by
  have limiters := state.limiters_add chainId addrKey target
  simp only [Mirroring.Meets]
  cases limit : targetLimit target with
  | none =>
    simp only [limit] at limiters
    simpa [limit] using follows_add_unlimited_iff follows limiters
  | some rps =>
    by_cases named : chainId = []
    · subst chainId
      simp only [limit, if_true] at limiters
      simpa [limit] using follows_add_unlimited_iff follows limiters
    · simpa [limit, named] using follows_add_limited_iff follows distinct limit named

end FollowsAdd

theorem Mirroring.follows_drop_iff {state : Mirroring} (follows : state.Follows)
    (chainId addrKey url : Bytes) :
    (state.drop chainId addrKey url).Follows ↔ state.Meets (.drop chainId addrKey url) := by
  have stored := state.target_drop chainId addrKey url
  have limiters := state.limiters_drop chainId addrKey url
  constructor
  · intro after chain key other held remaining same
    have kept : (state.drop chainId addrKey url).target chain key = some other := by
      rw [stored, if_neg remaining, held]
    rw [← after chain key other kept, Mirroring.limit, limiters, same, AList.lookup_erase]
  · intro meets chain key other held
    rw [Mirroring.limit, limiters, Assoc.lookup_erase_eq]
    rw [stored] at held
    obtain ⟨remaining, held⟩ := Option.ite_none_left_eq_some.mp held
    split
    · rename_i same
      exact (meets chain key other held remaining same).symm
    · exact follows chain key other held

/-- One operation keeps the limiters with the targets exactly when it meets what it needs. -/
theorem Mirroring.follows_perform_iff {state : Mirroring} (follows : state.Follows)
    (effect : MirrorEffect) (distinct : (state.perform effect).DistinctURLs) :
    (state.perform effect).Follows ↔ state.Meets effect := by
  cases effect with
  | nothing => exact iff_of_true follows trivial
  | add chainId addrKey target => exact follows_add_iff follows distinct
  | drop chainId addrKey url => exact follows_drop_iff follows chainId addrKey url
  | dropChain chainId =>
    refine iff_of_true (fun chain key other held => ?_) trivial
    rw [Mirroring.perform, Mirroring.target_deleteChainMirrors] at held
    exact follows chain key other (Option.ite_none_left_eq_some.mp held).2

/-- The stores after some operations. -/
def mirroringAfter (ops : List MirrorOp) : Mirroring := ops.foldl Mirroring.apply .new

theorem mirroringAfter_snoc (ops : List MirrorOp) (op : MirrorOp) :
    mirroringAfter (ops ++ [op]) = (mirroringAfter ops).perform op.effect := by
  simp [mirroringAfter, Mirroring.apply_eq_perform]

/-- In a run in which distinct address keys always have distinct URLs, limiters follow
targets in every state exactly when every operation meets what it needs. -/
theorem limits_follow_targets_iff {ops : List MirrorOp}
    (distinct : ∀ before, before <+: ops → (mirroringAfter before).DistinctURLs) :
    (∀ before, before <+: ops → (mirroringAfter before).Follows) ↔
      ∀ before op, before ++ [op] <+: ops → (mirroringAfter before).Meets op.effect := by
  have step : ∀ before op, before ++ [op] <+: ops → (mirroringAfter before).Follows →
      ((mirroringAfter (before ++ [op])).Follows ↔ (mirroringAfter before).Meets op.effect) := by
    intro before op inside follows
    have apart := distinct _ inside
    rw [mirroringAfter_snoc] at apart ⊢
    exact Mirroring.follows_perform_iff follows op.effect apart
  constructor
  · intro follows before op inside
    exact (step before op inside (follows before ((List.prefix_append _ _).trans inside))).mp
      (follows _ inside)
  · intro meets before inside
    induction before using List.reverseRecOn with
    | nil =>
      intro chainId addrKey target held
      simp [mirroringAfter, Mirroring.new, Mirroring.target] at held
    | append_singleton before op inductionHypothesis =>
      have earlier := inductionHypothesis ((List.prefix_append _ _).trans inside)
      exact (step before op inside earlier).mpr (meets before op inside)

/-- Limiter keys of chain ids without a slash do not meet across chains. -/
theorem limiterKey_chain {chainId other : Bytes} {first second : MirrorTarget}
    (noSlash : slash ∉ chainId) (noSlash' : slash ∉ other)
    (same : limiterKey chainId (targetURL first) = limiterKey other (targetURL second)) :
    chainId = other := by
  -- both keys go on with the same bytes up to their first slash
  have front : ∀ chain (target : MirrorTarget), limiterKey chain (targetURL target) =
      (chain ++ ascii ":http:") ++ slash :: (slash :: target.address ++ ascii ":" ++
        itoa target.port) := by
    intro chain target
    simp [limiterKey, targetURL, mirrorURL, ascii, slash]
  rw [front, front] at same
  have bare : ∀ {chain : Bytes}, slash ∉ chain → slash ∉ chain ++ ascii ":http:" := by
    intro chain absent member
    rcases List.mem_append.mp member with inside | behind
    · exact absent inside
    · exact absurd behind (by decide)
  have heads := segment_unique (bare noSlash) (bare noSlash') (by
    rw [← same]
    exact ⟨slash :: first.address ++ ascii ":" ++ itoa first.port, by simp⟩)
  exact List.append_cancel_right heads

/-- On chain ids without a slash, adding a target with a limit always works. -/
theorem Mirroring.meets_add_of_noSlash {state : Mirroring} {chainId : Bytes}
    {target : MirrorTarget} (addrKey : Bytes) (noSlash : slash ∉ chainId) (named : chainId ≠ [])
    (others : ∀ chain key other, state.target chain key = some other → slash ∉ chain)
    (limited : (targetLimit target).isSome) : state.Meets (.add chainId addrKey target) := by
  simp only [Mirroring.Meets]
  rw [if_pos ⟨limited, named⟩]
  intro chain key other held elsewhere same
  exact absurd (limiterKey_chain (others chain key other held) noSlash same) elsewhere

/-! A target added twice, the second time without its limit. -/

def relaxedTarget (rateLimit : Option Int) : MirrorTarget :=
  { address := ascii "10.0.0.1", port := 80, rateLimit, chainId := ascii "1"
    addrKey := ascii "10.0.0.1:80", deleted := false }

theorem relaxed_target_keeps_limiter :
    let ops := [.event (relaxedTarget (some 5)), .event (relaxedTarget none)]
    (mirroringAfter ops).target (ascii "1") (ascii "10.0.0.1:80") = some (relaxedTarget none) ∧
      (mirroringAfter ops).limit (ascii "1") (targetURL (relaxedTarget none)) = some 5 := by
  decide +kernel

theorem Mirroring.target_new (chain key : Bytes) : Mirroring.new.target chain key = none := by
  simp [Mirroring.target, Mirroring.new]

theorem limits_follow_limited_target :
    (mirroringAfter [.event (relaxedTarget (some 5))]).Follows := by
  have added : mirroringAfter [.event (relaxedTarget (some 5))] =
      Mirroring.new.add (ascii "1") (ascii "10.0.0.1:80") (relaxedTarget (some 5)) := rfl
  refine (limits_follow_targets_iff ?_).mpr ?_ _ (List.prefix_refl _)
  · intro before inside chainId addrKey other first second held held' _
    rcases List.prefix_cons_iff.mp inside with rfl | ⟨rest, rfl, none⟩
    · simp [mirroringAfter, Mirroring.target_new] at held
    · rw [List.prefix_nil.mp none] at held held'
      rw [added, Mirroring.target_add, Mirroring.target_new] at held held'
      exact (Option.ite_none_right_eq_some.mp held).1.2.trans
        (Option.ite_none_right_eq_some.mp held').1.2.symm
  · intro before op inside
    obtain ⟨rfl, rfl⟩ : before = [] ∧ op = .event (relaxedTarget (some 5)) := by
      have empty : before = [] := by simpa using inside.length_le
      subst before
      simpa using inside
    exact Mirroring.meets_add_of_noSlash _ (by decide) (by decide)
      (fun chain key other held => by simp [mirroringAfter, Mirroring.target_new] at held)
      (by decide)

end NodexProxy.Lb
