import NodexProxy.Foundation.Slices
import NodexProxy.Lb.Pick

/-! `PickNodes` on slices. Pools are slices of arrays of nodes, and the function tells a chain
with a single pool by the place its two slices start at, not by their nodes. -/

namespace NodexProxy.Lb.Shared

open NodexProxy.Foundation

abbrev Arrays := List (List Node)

/-- `preferAvailableNodes`: the input slice itself where it can be kept, else a new array. -/
def preferAvailableNodes (nodes : Slice) (arrays : Arrays) : Slice × Arrays :=
  if nodes.length = 0 then (nodes, arrays)
  else if (nodes.read arrays).all Node.available then (nodes, arrays)
  else
    let available := (nodes.read arrays).filter Node.available
    if 0 < available.length then
      (⟨arrays.length, 0, available.length⟩, arrays ++ [available])
    else (nodes, arrays ++ [available])

/-- Which of two pools a block context and a height ask for. -/
def routeByBlock {Pool : Type} (blockContext : Option BlockContext) (blockHeight : Option Int)
    (archiveNodes stateNodes : Pool) : Pool :=
  match blockContext with
  | none => stateNodes
  | some blockContext =>
    if blockContext.type ≠ ascii "Equals" then stateNodes
    else
      match blockContext.blockId.bind BlockId.blockNumber with
      | none => stateNodes
      | some blockNumber =>
        if blockNumber = latestBlockNumber ∨ blockNumber = pendingBlockNumber then stateNodes
        else
          match blockHeight with
          | none => archiveNodes
          | some height => if height - 64 ≤ blockNumber then stateNodes else archiveNodes

/-- What `PickNodes` leaves behind: the slice it returns, and whether it ran the getter. -/
structure Picked where
  slice : Slice
  arrays : Arrays
  asked : Bool

def Picked.nodes (picked : Picked) : List Node := picked.slice.read picked.arrays

/-- The getter may be nil, and so may the context it returns. -/
abbrev Getter := Option (Unit → Option BlockContext)

def Getter.blockContext (getter : Getter) : Option BlockContext := getter.bind fun get => get ()

def pickNodes (getBlockContext : Getter) (blockHeight : Option Int)
    (archiveNodes stateNodes nativeNodes : Slice) (forceArchive forceNative : Bool)
    (arrays : Arrays) : Picked :=
  let (archiveNodes, arrays) := preferAvailableNodes archiveNodes arrays
  let (stateNodes, arrays) := preferAvailableNodes stateNodes arrays
  let (nativeNodes, arrays) := preferAvailableNodes nativeNodes arrays
  if forceNative then ⟨nativeNodes, arrays, false⟩
  else if forceArchive then ⟨archiveNodes, arrays, false⟩
  else
    let stateNodes := if stateNodes.length = 0 then archiveNodes else stateNodes
    let archiveNodes := if archiveNodes.length = 0 then stateNodes else archiveNodes
    if stateNodes.length = archiveNodes.length ∧
        (stateNodes.length = 0 ∨ stateNodes.Aliases archiveNodes) then
      ⟨stateNodes, arrays, false⟩
    else
      ⟨routeByBlock getBlockContext.blockContext blockHeight archiveNodes stateNodes, arrays,
        getBlockContext.isSome⟩

/-- The pools of a chain in memory: every slice with items lies in its array, and the state and
archive pools have no cell in common. -/
structure Pools where
  arrays : Arrays
  archive : Slice
  state : Slice
  native : Slice
  archiveHeld : archive.Held arrays
  stateHeld : state.Held arrays
  nativeHeld : native.Held arrays
  apart : ¬ state.Shares archive

/-- One call of `preferAvailableNodes`: the nodes it prefers, in the old slice or a new array. -/
structure Prefers (nodes : Slice) (arrays : Arrays) (chosen : Slice) (after : Arrays) : Prop where
  grows : arrays <+: after
  held : chosen.Held after
  reads : chosen.read after = Lb.preferAvailableNodes (nodes.read arrays)
  place : chosen = nodes ∨ chosen.array = arrays.length ∧ arrays.length < after.length

theorem prefers_kept {nodes : Slice} (held : nodes.Held arrays) (grows : arrays <+: after)
    (same : Lb.preferAvailableNodes (nodes.read arrays) = nodes.read arrays) :
    Prefers nodes arrays nodes after :=
  ⟨grows, held.of_grows grows, by rw [held.read_of_grows grows, same], .inl rfl⟩

theorem preferAvailableNodes_prefers {nodes : Slice} {arrays : Arrays}
    (held : nodes.Held arrays) :
    Prefers nodes arrays (preferAvailableNodes nodes arrays).1
      (preferAvailableNodes nodes arrays).2 := by
  unfold preferAvailableNodes
  split_ifs with empty allAvailable
  · refine prefers_kept held List.prefix_rfl ?_
    rw [Slice.read_of_empty empty]
    rfl
  · exact prefers_kept held List.prefix_rfl (if_pos allAvailable)
  · dsimp only
    split_ifs with present
    · have nonempty : (nodes.read arrays).filter Node.available ≠ [] := List.ne_nil_of_length_pos present
      have reads : (⟨arrays.length, 0, ((nodes.read arrays).filter Node.available).length⟩ : Slice).read
          (arrays ++ [(nodes.read arrays).filter Node.available]) =
          (nodes.read arrays).filter Node.available := by
        simp [Slice.read, Slice.room]
      refine ⟨List.prefix_append _ _, fun _ => ⟨by simp, by simp [Slice.room]⟩, ?_, .inr ?_⟩
      · rw [reads, Lb.preferAvailableNodes, if_neg allAvailable, if_neg nonempty]
      · exact ⟨rfl, by simp⟩
    · have none_available : (nodes.read arrays).filter Node.available = [] :=
        List.length_eq_zero_iff.mp (Nat.eq_zero_of_not_pos present)
      refine prefers_kept held (List.prefix_append _ _) ?_
      rw [Lb.preferAvailableNodes, if_neg allAvailable, if_pos none_available]

/-- The slices the two pools are replaced by start at different places. -/
theorem Prefers.apart {archive archive' state state' : Slice} {arrays middle after : Arrays}
    (first : Prefers archive arrays archive' middle) (second : Prefers state middle state' after)
    (archiveHeld : archive.Held arrays) (stateHeld : state.Held arrays)
    (apart : ¬ state.Shares archive) (archiveItems : archive'.length ≠ 0)
    (stateItems : state'.length ≠ 0) : ¬ state'.Aliases archive' := by
  intro aliases
  rcases first.place with rfl | ⟨archiveNew, allocated⟩ <;>
    rcases second.place with rfl | ⟨stateNew, _⟩
  · exact apart (aliases.shares stateItems archiveItems)
  · have inside := (archiveHeld archiveItems).array
    rw [← aliases.1, stateNew] at inside
    exact absurd first.grows.length_le (Nat.not_le.mpr inside)
  · have inside := (stateHeld stateItems).array
    rw [aliases.1, archiveNew] at inside
    exact Nat.lt_irrefl _ inside
  · have same := aliases.1
    rw [stateNew, archiveNew] at same
    exact Nat.ne_of_gt allocated same

/-- A context that pins a block number state nodes no longer hold: not a tag that names the head
of the chain, and at an unknown height or more than 64 blocks below it. -/
def NeedsArchive (blockContext : Option BlockContext) (blockHeight : Option Int) : Prop :=
  ∃ context blockId blockNumber, blockContext = some context ∧ context.type = ascii "Equals" ∧
    context.blockId = some blockId ∧ blockId.blockNumber = some blockNumber ∧
    blockNumber ≠ latestBlockNumber ∧ blockNumber ≠ pendingBlockNumber ∧
    ∀ height, blockHeight = some height → blockNumber < height - 64

section Route

variable {Pool : Type} {blockContext : Option BlockContext} {blockHeight : Option Int}

theorem routeByBlock_of_needs (needs : NeedsArchive blockContext blockHeight)
    (archive state : Pool) : routeByBlock blockContext blockHeight archive state = archive := by
  obtain ⟨context, blockId, blockNumber, rfl, equals, pinned, numbered, notLatest, notPending, low⟩ :=
    needs
  simp only [routeByBlock, equals, pinned, numbered, Option.bind_some, notLatest, notPending,
    ne_eq, not_true_eq_false, or_self, if_false]
  cases blockHeight with
  | none => rfl
  | some height => exact if_neg (not_le.mpr (low height rfl))

theorem routeByBlock_of_not_needs (stays : ¬ NeedsArchive blockContext blockHeight)
    (archive state : Pool) : routeByBlock blockContext blockHeight archive state = state := by
  cases blockContext with
  | none => rfl
  | some context =>
    simp only [routeByBlock]
    split_ifs with other
    · rfl
    · cases numbered : context.blockId.bind BlockId.blockNumber with
      | none => rfl
      | some blockNumber =>
        dsimp only
        split_ifs with head
        · rfl
        · obtain ⟨blockId, pinned, number⟩ := Option.bind_eq_some_iff.mp numbered
          obtain ⟨notLatest, notPending⟩ := not_or.mp head
          have needs : (∀ height, blockHeight = some height → blockNumber < height - 64) →
              NeedsArchive (some context) blockHeight := fun low =>
            ⟨context, blockId, blockNumber, rfl, not_not.mp other, pinned, number, notLatest,
              notPending, low⟩
          cases blockHeight with
          | none => exact absurd (needs (by simp)) stays
          | some height =>
            refine if_pos ?_
            by_contra low
            exact stays (needs fun height' same => Option.some.inj same ▸ not_le.mp low)

theorem read_routeByBlock (archive state : Slice) (arrays : Arrays) :
    (routeByBlock blockContext blockHeight archive state).read arrays =
      pickByBlock blockContext blockHeight (archive.read arrays) (state.read arrays) := by
  change _ = routeByBlock blockContext blockHeight (archive.read arrays) (state.read arrays)
  by_cases needs : NeedsArchive blockContext blockHeight
  · rw [routeByBlock_of_needs needs, routeByBlock_of_needs needs]
  · rw [routeByBlock_of_not_needs needs, routeByBlock_of_not_needs needs]

end Route

/-- The slices pick the nodes of the value model, which compares no addresses. -/
theorem pickNodes_nodes (pools : Pools) (getBlockContext : Getter) (blockHeight : Option Int)
    (forceArchive forceNative : Bool) :
    (pickNodes getBlockContext blockHeight pools.archive pools.state pools.native forceArchive
        forceNative pools.arrays).nodes =
      Lb.pickNodes getBlockContext.blockContext blockHeight (pools.archive.read pools.arrays)
        (pools.state.read pools.arrays) (pools.native.read pools.arrays) forceArchive
        forceNative := by
  obtain ⟨arrays, archive, state, native, archiveHeld, stateHeld, nativeHeld, apart⟩ := pools
  have first := preferAvailableNodes_prefers archiveHeld
  simp only [pickNodes, Lb.pickNodes]
  generalize preferAvailableNodes archive arrays = firstRun at *
  obtain ⟨archive', middle⟩ := firstRun
  have second := preferAvailableNodes_prefers (stateHeld.of_grows first.grows)
  generalize preferAvailableNodes state middle = secondRun at *
  obtain ⟨state', later⟩ := secondRun
  have third := preferAvailableNodes_prefers
    ((nativeHeld.of_grows first.grows).of_grows second.grows)
  generalize preferAvailableNodes native later = thirdRun at *
  obtain ⟨native', after⟩ := thirdRun
  -- each pool reads, at the end of the call, the nodes it was to prefer
  have archiveReads : archive'.read after = Lb.preferAvailableNodes (archive.read arrays) :=
    (first.held.read_of_grows (second.grows.trans third.grows)).trans first.reads
  have stateReads : state'.read after = Lb.preferAvailableNodes (state.read arrays) := by
    rw [second.held.read_of_grows third.grows, second.reads, stateHeld.read_of_grows first.grows]
  have nativeReads : native'.read after = Lb.preferAvailableNodes (native.read arrays) := by
    rw [third.reads, nativeHeld.read_of_grows (first.grows.trans second.grows)]
  have archiveEmpty := (first.held.of_grows (second.grows.trans third.grows)).read_eq_nil
  have stateEmpty := (second.held.of_grows third.grows).read_eq_nil
  rw [← archiveReads, ← stateReads, ← nativeReads]
  dsimp only at archiveEmpty stateEmpty ⊢
  cases forceNative with
  | true => rfl
  | false =>
    cases forceArchive with
    | true => rfl
    | false =>
      simp only [Bool.false_eq_true, if_false, archiveEmpty, stateEmpty]
      by_cases noState : state'.length = 0
      · simp [noState, Picked.nodes, Slice.Aliases]
      · by_cases noArchive : archive'.length = 0
        · simp [noState, noArchive, Picked.nodes, Slice.Aliases]
        · have distinct := first.apart second archiveHeld stateHeld apart noArchive noState
          simp only [noState, noArchive, distinct, if_false, or_self, and_false]
          exact read_routeByBlock archive' state' after

section Routing

/-- The available nodes of a pool, or all of it when none is. -/
def available (nodes : List Node) : List Node :=
  if nodes.filter Node.available = [] then nodes else nodes.filter Node.available

theorem preferAvailableNodes_eq (nodes : List Node) :
    Lb.preferAvailableNodes nodes = available nodes := by
  unfold Lb.preferAvailableNodes available
  dsimp only
  split_ifs with all none_available
  · rfl
  · exact (List.filter_eq_self.mpr (List.all_eq_true.mp all)).symm
  · rfl
  · rfl

theorem available_eq_nil {nodes : List Node} : available nodes = [] ↔ nodes = [] := by
  unfold available
  split_ifs with none_available
  · rfl
  · refine iff_of_false none_available ?_
    rintro rfl
    exact none_available rfl

/-- A pool, or the other one when it is empty. -/
def orElse (nodes others : List Node) : List Node :=
  if nodes = [] then available others else available nodes

open Classical in
/-- What `PickNodes` is for. -/
noncomputable def route (blockContext : Option BlockContext) (blockHeight : Option Int)
    (archive state native : List Node) (forceArchive forceNative : Bool) : List Node :=
  if forceNative then available native
  else if forceArchive then available archive
  else if NeedsArchive blockContext blockHeight then orElse archive state
  else orElse state archive

theorem pickNodes_eq_route (blockContext : Option BlockContext) (blockHeight : Option Int)
    (archive state native : List Node) (forceArchive forceNative : Bool) :
    Lb.pickNodes blockContext blockHeight archive state native forceArchive forceNative =
      route blockContext blockHeight archive state native forceArchive forceNative := by
  simp only [Lb.pickNodes, route, orElse, preferAvailableNodes_eq, available_eq_nil]
  cases forceNative with
  | true => rfl
  | false =>
    cases forceArchive with
    | true => rfl
    | false =>
      simp only [Bool.false_eq_true, if_false]
      by_cases noState : state = []
      · by_cases noArchive : archive = [] <;> simp [noState, noArchive]
      · by_cases noArchive : archive = []
        · simp [noState, noArchive]
        · simp only [noState, noArchive, if_false]
          change routeByBlock blockContext blockHeight (available archive) (available state) = _
          split_ifs with needs
          · exact routeByBlock_of_needs needs _ _
          · exact routeByBlock_of_not_needs needs _ _

/-- The getter yields a context that pins a block number. -/
def Getter.Pins (getter : Getter) (number : Int) : Prop :=
  ∃ context blockId, getter.blockContext = some context ∧ context.type = ascii "Equals" ∧
    context.blockId = some blockId ∧ blockId.blockNumber = some number

theorem Getter.Pins.needsArchive_iff {getter : Getter} (pins : getter.Pins number)
    (height : Int) : NeedsArchive getter.blockContext (some height) ↔
      number ≠ latestBlockNumber ∧ number ≠ pendingBlockNumber ∧ number < height - 64 := by
  obtain ⟨context, blockId, got, equals, pinned, numbered⟩ := pins
  constructor
  · rintro ⟨context', blockId', number', got', _, pinned', numbered', notLatest, notPending, low⟩
    cases got.symm.trans got'
    cases pinned.symm.trans pinned'
    cases numbered.symm.trans numbered'
    exact ⟨notLatest, notPending, low height rfl⟩
  · rintro ⟨notLatest, notPending, low⟩
    exact ⟨context, blockId, number, got, equals, pinned, numbered, notLatest, notPending,
      fun height' same => Option.some.inj same ▸ low⟩

/-- An older block at a greater height needs an archive node all the more. -/
theorem needsArchive_mono {earlier later : Getter} (pins : earlier.Pins number)
    (pins' : later.Pins number') (nonneg : 0 ≤ number') (older : number' ≤ number)
    (higher : height ≤ height') (needs : NeedsArchive earlier.blockContext (some height)) :
    NeedsArchive later.blockContext (some height') := by
  obtain ⟨_, _, low⟩ := (pins.needsArchive_iff height).mp needs
  refine (pins'.needsArchive_iff height').mpr ⟨?_, ?_, by omega⟩
  · unfold latestBlockNumber
    omega
  · unfold pendingBlockNumber
    omega

/-- Where the getter is left alone, no block context changes the route. -/
theorem route_of_not_asked (pools : Pools) {get : Unit → Option BlockContext}
    {blockHeight : Option Int} {forceArchive forceNative : Bool}
    (skipped : (pickNodes (some get) blockHeight pools.archive pools.state pools.native forceArchive
      forceNative pools.arrays).asked = false) (blockContext : Option BlockContext) :
    (pickNodes (some get) blockHeight pools.archive pools.state pools.native forceArchive
        forceNative pools.arrays).nodes =
      (pickNodes (some fun _ => blockContext) blockHeight pools.archive pools.state pools.native
        forceArchive forceNative pools.arrays).nodes := by
  simp only [pickNodes] at skipped ⊢
  split_ifs at skipped ⊢ <;> first | rfl | exact Bool.noConfusion skipped

/-- `PickNodes` routes by pool, context and height. Skipping the block context where both pools
are one slice changes nothing, an unforced pick is empty only without any node, and a block that
goes to archive takes every older one with it, at that height and above. -/
theorem pickNodes_routes (pools : Pools) :
    (∀ (getBlockContext : Getter) (blockHeight : Option Int) (forceArchive forceNative : Bool),
      (pickNodes getBlockContext blockHeight pools.archive pools.state pools.native forceArchive
          forceNative pools.arrays).nodes =
        route getBlockContext.blockContext blockHeight (pools.archive.read pools.arrays)
          (pools.state.read pools.arrays) (pools.native.read pools.arrays) forceArchive
          forceNative) ∧
    (∀ (get : Unit → Option BlockContext) (blockHeight : Option Int)
        (forceArchive forceNative : Bool),
      (pickNodes (some get) blockHeight pools.archive pools.state pools.native forceArchive
          forceNative pools.arrays).asked = false →
        ∀ blockContext, (pickNodes (some get) blockHeight pools.archive pools.state pools.native
            forceArchive forceNative pools.arrays).nodes =
          (pickNodes (some fun _ => blockContext) blockHeight pools.archive pools.state
            pools.native forceArchive forceNative pools.arrays).nodes) ∧
    (∀ (getBlockContext : Getter) (blockHeight : Option Int),
      (pickNodes getBlockContext blockHeight pools.archive pools.state pools.native false false
          pools.arrays).nodes = [] →
        pools.archive.read pools.arrays = [] ∧ pools.state.read pools.arrays = []) ∧
    (∀ (earlier later : Getter) (number number' height height' : Int),
      earlier.Pins number → later.Pins number' → 0 ≤ number' → number' ≤ number →
      height ≤ height' →
      (pickNodes earlier (some height) pools.archive pools.state pools.native false false
          pools.arrays).nodes =
        orElse (pools.archive.read pools.arrays) (pools.state.read pools.arrays) →
      (pickNodes later (some height') pools.archive pools.state pools.native false false
          pools.arrays).nodes =
        orElse (pools.archive.read pools.arrays) (pools.state.read pools.arrays)) := by
  have exactly := fun getBlockContext blockHeight forceArchive forceNative =>
    (pickNodes_nodes pools getBlockContext blockHeight forceArchive forceNative).trans
      (pickNodes_eq_route _ _ _ _ _ _ _)
  refine ⟨exactly, fun get blockHeight forceArchive forceNative skipped blockContext =>
    route_of_not_asked pools skipped blockContext, ?_, ?_⟩
  · intro getBlockContext blockHeight empty
    rw [exactly] at empty
    simp only [route, orElse, Bool.false_eq_true, if_false] at empty
    split_ifs at empty <;> simp_all [available_eq_nil]
  · intro earlier later number number' height height' pins pins' nonneg older higher archived
    rw [exactly] at archived ⊢
    simp only [route, Bool.false_eq_true, if_false] at archived ⊢
    by_cases needs : NeedsArchive earlier.blockContext (some height)
    · rw [if_pos (needsArchive_mono pins pins' nonneg older higher needs)]
    · -- the state pool is the archive pool here, so either branch returns it
      rw [if_neg needs] at archived
      rw [archived, ite_self]

def poolNode (key source : Bytes) (stateType nodeType : Int) : Node :=
  ⟨key, ascii "10.0.0.1", 8545, ascii "10.0.0.1:8545", source, 1, stateType, nodeType⟩

/-- Three arrays: an archive node, two state nodes of which one is not available, and a native
node. -/
def samplePools : Pools where
  arrays :=
    [[poolNode (ascii "a") (ascii "official") stateAvailable Discovery.nodeTypeArchive],
      [poolNode (ascii "s") (ascii "official") 0 Discovery.nodeTypeState,
        poolNode (ascii "t") (ascii "official") stateAvailable Discovery.nodeTypeState],
      [poolNode (ascii "n") sourceNative stateAvailable Discovery.nodeTypeState]]
  archive := ⟨0, 0, 1⟩
  state := ⟨1, 0, 2⟩
  native := ⟨2, 0, 1⟩
  archiveHeld _ := ⟨by decide, by decide⟩
  stateHeld _ := ⟨by decide, by decide⟩
  nativeHeld _ := ⟨by decide, by decide⟩
  apart shares := absurd shares.1 (by decide)

def pinnedAt (number : Int) : Getter := some fun _ => some ⟨some ⟨some number, none⟩, ascii "Equals"⟩

/-- A block far behind the head goes to archive, and an older one with it. -/
theorem pickNodes_routes_older :
    let pick (number height : Int) :=
      (pickNodes (pinnedAt number) (some height) samplePools.archive samplePools.state
        samplePools.native false false samplePools.arrays).nodes.map Node.key
    pick 99 100 = [ascii "t"] ∧ pick 10 100 = [ascii "a"] ∧ pick 5 200 = [ascii "a"] := by
  have pins (number : Int) : (pinnedAt number).Pins number := ⟨_, _, rfl, rfl, rfl, rfl⟩
  have older := (pickNodes_routes samplePools).2.2.2 (pinnedAt 10) (pinnedAt 5) 10 5 100 200
    (pins 10) (pins 5) (by decide) (by decide) (by decide) (by decide +kernel)
  exact ⟨by decide +kernel, by decide +kernel,
    (congrArg (List.map Node.key) older).trans (by decide +kernel)⟩

end Routing

end NodexProxy.Lb.Shared
