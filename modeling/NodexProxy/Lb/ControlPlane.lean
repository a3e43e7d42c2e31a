import NodexProxy.Lb.Background

/-! From etcd to the tables that requests read. A cell is settled by the last event for it, the
events of a cell come from one key, and the last of them tells what etcd holds. So two proxies that
have caught up with the same revision hold the same tables, however they got there. -/

namespace NodexProxy.Lb

open NodexProxy.Foundation NodexProxy.Discovery

def MirrorOp.chainId : MirrorOp → Bytes
  | .event mirror => mirror.chainId
  | .addLocal chainId _ => chainId
  | .deleteLocal chainId _ => chainId
  | .deleteAllLocal chainId => chainId

theorem Mirroring.target_apply_of_ne (mirroring : Mirroring) {op : MirrorOp} {chainId : Bytes}
    (elsewhere : op.chainId ≠ chainId) (addrKey : Bytes) :
    (mirroring.apply op).target chainId addrKey = mirroring.target chainId addrKey := by
  rw [Mirroring.apply_eq_perform]
  have apart : chainId ≠ op.chainId := elsewhere.symm
  cases op with
  | event mirror =>
    have apart : chainId ≠ mirror.chainId := apart
    simp only [MirrorOp.effect]
    split <;> simp [Mirroring.perform, Mirroring.target_drop, Mirroring.target_add, apart]
  | addLocal chain bound =>
    have apart : chainId ≠ chain := apart
    simp only [MirrorOp.effect]
    split <;> simp [Mirroring.perform, Mirroring.target_add, apart]
  | deleteLocal chain bound =>
    have apart : chainId ≠ chain := apart
    simp only [MirrorOp.effect]
    split <;> simp [Mirroring.perform, Mirroring.target_drop, apart]
  | deleteAllLocal chain =>
    have apart : chainId ≠ chain := apart
    simp only [MirrorOp.effect]
    split <;> simp [Mirroring.perform, Mirroring.target_deleteChainMirrors, apart]

/-- No handler changes the cell in memory. -/
def Undisturbed (schedule : List ControlAction) : Cell → Prop
  | .mirror chainId _ => ∀ op, .mirror op ∈ schedule → op.chainId ≠ chainId
  | _ => True

theorem Undisturbed.of_append {schedule rest : List ControlAction} {cell : Cell}
    (undisturbed : Undisturbed (schedule ++ rest) cell) : Undisturbed schedule cell := by
  cases cell with
  | mirror chainId addrKey => exact fun op member => undisturbed op (List.mem_append_left _ member)
  | _ => trivial

/-- What an event tells a cell, if it is about that cell. -/
def tells (cell : Cell) (event : Event) : Option (Option Content) :=
  if event.cell = some cell then some (contentOf event) else none

section Runs

variable {decoder : Decoder} {history : History} {keyPrefix : Bytes} {proxied : Bytes → Bool}
  {schedule : List ControlAction} {state : ControlPlane}

/-- A cell holds what the last event for it told, among those the loop took. -/
theorem ControlPlane.read_of_run
    (run : exec (ControlPlane.step decoder history keyPrefix proxied) .new schedule = some state)
    (cell : Cell) (undisturbed : Undisturbed schedule cell) :
    state.background.read cell = settled (tells cell) none (state.taken cell.channel) := by
  refine exec_induction (motive := fun schedule state => Undisturbed schedule cell →
    state.background.read cell = settled (tells cell) none (state.taken cell.channel))
    (fun _ => ?_) ?_ run undisturbed
  · cases cell <;> rfl
  intro schedule state action final before holds stepped undisturbed
  have reads := holds undisturbed.of_append
  rcases ControlPlane.step_cases stepped with ⟨_, _, -, -, rfl⟩ |
    ⟨channel, event, rest, -, -, queued, rfl⟩ | ⟨_, _, -, -, -, rfl⟩ | ⟨_, -, -, rfl⟩ | ⟨op, rfl, rfl⟩ |
    ⟨_, -, rfl⟩
  · exact reads
  · have own : event.channel = channel :=
      ControlPlane.sorted_of_run before channel event (by rw [queued]; exact List.mem_cons_self)
    show (state.background.consume event).read cell = settled (tells cell) none
      (Function.update state.taken channel (state.taken channel ++ [event]) cell.channel)
    rw [Background.read_consume, reads]
    by_cases same : cell.channel = channel
    · subst channel
      rw [← same, Function.update_self, settled_snoc, tells]
      split <;> rfl
    · have silent : event.cell ≠ some cell := fun about =>
        same ((Event.channel_of_cell about).symm.trans own)
      rw [Function.update_of_ne same, if_neg silent]
  · exact reads
  · exact reads
  · refine Eq.trans ?_ reads
    cases cell with
    | mirror chainId addrKey =>
      have kept := Mirroring.target_apply_of_ne state.background.mirroring
        (undisturbed op (by simp)) addrKey
      exact congrArg (Option.map Content.mirror) kept
    | _ => rfl
  · exact reads

/-- The heights of the selector are those of the height map, but for one the loop is bringing
over. -/
theorem ControlPlane.chainHeight_of_run
    (run : exec (ControlPlane.step decoder history keyPrefix proxied) .new schedule = some state) :
    (∀ height, state.background.raising = some height →
      state.background.heightMap.lookup height.chainId = some height.latestBlockNumber) ∧
    ∀ chainId, (∀ height, state.background.raising = some height → height.chainId ≠ chainId) →
      state.background.chainHeight.lookup chainId =
        state.background.heightMap.lookup chainId := by
  refine exec_invariant (motive := fun state : ControlPlane =>
    (∀ height, state.background.raising = some height →
      state.background.heightMap.lookup height.chainId = some height.latestBlockNumber) ∧
    ∀ chainId, (∀ height, state.background.raising = some height → height.chainId ≠ chainId) →
      state.background.chainHeight.lookup chainId =
        state.background.heightMap.lookup chainId) ⟨by simp [ControlPlane.new, Background.new], fun _ _ => rfl⟩ ?_ run
  rintro state action final ⟨pending, equal⟩ stepped
  rcases ControlPlane.step_cases stepped with ⟨_, _, -, -, rfl⟩ |
    ⟨channel, event, rest, -, idle, -, rfl⟩ | ⟨_, _, -, -, -, rfl⟩ | ⟨height, -, raising, rfl⟩ |
    ⟨_, -, rfl⟩ | ⟨_, -, rfl⟩
  · exact ⟨pending, equal⟩
  · have settled := ((Background.idle_iff _).mp idle).2
    cases event with
    | height height =>
      refine ⟨?_, fun chainId other => ?_⟩
      · rintro _ ⟨⟩
        exact AList.lookup_insert _
      · have apart : chainId ≠ height.chainId := (other height rfl).symm
        refine (equal chainId ?_).trans (AList.lookup_insert_ne apart).symm
        simp [settled]
    | _ => exact ⟨pending, equal⟩
  · exact ⟨pending, equal⟩
  · refine ⟨nofun, fun chainId _ => ?_⟩
    show (state.background.chainHeight.insert height.chainId height.latestBlockNumber).lookup
      chainId = state.background.heightMap.lookup chainId
    rw [Assoc.lookup_insert_eq]
    split
    · rename_i same
      rw [same, pending height raising]
    · rename_i other
      refine equal chainId fun raised same => ?_
      cases raising.symm.trans same
      exact Ne.symm other
  · exact ⟨pending, equal⟩
  · exact ⟨pending, equal⟩

end Runs

/-! What etcd holds for a cell. -/

/-- The only key of the prefix that is ever written for the cell. -/
structure SoleKey (history : History) (keyPrefix : Bytes) (cell : Cell) (key : Bytes) : Prop where
  watched : keyPrefix <+: key
  about : keyCell key = some cell
  alone : ∀ other, keyPrefix <+: other → history.Writes other → keyCell other = some cell →
    other = key

/-- What a cell should hold at a revision. A value that does not decode leaves it open, and so does
a height that is gone. -/
inductive Determined (decoder : Decoder) (history : History) (keyPrefix : Bytes) (revision : Nat)
    (cell : Cell) : Option Content → Prop
  | unwritten (never : ∀ key, keyPrefix <+: key → history.Writes key → keyCell key ≠ some cell) :
    Determined decoder history keyPrefix revision cell none
  | stored (sole : SoleKey history keyPrefix cell key)
    (held : (history.storeAt revision).lookup key = some value)
    (decodes : putEvent decoder key value = some event) :
    Determined decoder history keyPrefix revision cell (contentOf event)
  | deleted (sole : SoleKey history keyPrefix cell key)
    (tracked : (parseKey key).1.tracked = true)
    (gone : (history.storeAt revision).lookup key = none) :
    Determined decoder history keyPrefix revision cell none

theorem contentOf_delete {event : Event} (deletes : event.changeType = .delete) :
    contentOf event = none := by
  cases event with
  | node node => rfl
  | height height => cases deletes
  | gateway gateway =>
    have kind : gateway.changeType = .delete := deletes
    simp [contentOf, kind]
  | mirror mirror =>
    have kind : mirror.deleted = true := by
      by_contra live
      simp [Event.changeType, live] at deletes
    simp [contentOf, kind]
  | version version =>
    have kind : version.changeType = .delete := deletes
    simp [contentOf, kind]

section Settling

variable {decoder : Decoder} {history : History} {keyPrefix key : Bytes} {proxied : Bytes → Bool}
  {schedule : List ControlAction} {state : ControlPlane} {cell : Cell} {content : Option Content}

/-- What was sent for the key last. -/
theorem lastFor_of_stored {loop : WatchLoop} {actions : List WatchAction}
    (run : exec (WatchLoop.step decoder history keyPrefix) .new actions = some loop)
    (watched : keyPrefix <+: key)
    (held : (history.storeAt loop.discover.watchRevision).lookup key = some value)
    (decodes : putEvent decoder key value = some event) :
    loop.discover.lastFor key = some ⟨key, some value, event⟩ := by
  have synced : loop.Synced decoder history keyPrefix :=
    exec_invariant .new (fun _ _ _ before stepped => before.step stepped) run
  cases tracked : (parseKey key).1.tracked with
  | false => exact (WatchLoop.follows_of_run tracked watched run).held value event held decodes
  | true =>
    have known := (synced.agrees key tracked watched).held value held (by rw [decodes]; rfl)
    have recorded := synced.recorded key tracked
    rw [Discover.Recorded, known] at recorded
    obtain ⟨sent, same, last⟩ := recorded
    rw [decodes] at same
    cases same
    exact last

theorem lastFor_of_deleted {loop : WatchLoop} {actions : List WatchAction}
    (run : exec (WatchLoop.step decoder history keyPrefix) .new actions = some loop)
    (watched : keyPrefix <+: key) (tracked : (parseKey key).1.tracked = true)
    (gone : (history.storeAt loop.discover.watchRevision).lookup key = none) :
    ∀ dispatch, loop.discover.lastFor key = some dispatch →
      dispatch.event.changeType = .delete := by
  have synced : loop.Synced decoder history keyPrefix :=
    exec_invariant .new (fun _ _ _ before stepped => before.step stepped) run
  have recorded := synced.recorded key tracked
  rwa [Discover.Recorded, (synced.agrees key tracked watched).absent gone] at recorded

/-- With nothing left in its channel, a cell holds what was sent for it last. -/
theorem ControlPlane.read_of_drained
    (run : exec (ControlPlane.step decoder history keyPrefix proxied) .new schedule = some state)
    (undisturbed : Undisturbed schedule cell) (drained : state.queues cell.channel = []) :
    state.background.read cell =
      settled (tells cell) none (state.watch.discover.dispatched.map Dispatch.event) := by
  have shared : cell.channel = .node → ∀ node, .submit node ∉ schedule := by
    cases cell <;> nofun
  have flow := ControlPlane.flow_of_run run cell.channel shared
  rw [drained, List.append_nil] at flow
  rw [ControlPlane.read_of_run run cell undisturbed, flow]
  refine settled_filter fun event _ speaks => ?_
  unfold tells at speaks
  split at speaks
  · rename_i about
    simpa using Event.channel_of_cell about
  · cases speaks

/-- And the last thing sent for it came from its only key. -/
theorem settled_of_sole {discover : Discover}
    (sourced : discover.Sourced decoder fun key => keyPrefix <+: key ∧ history.Writes key)
    (sole : SoleKey history keyPrefix cell key) :
    settled (tells cell) none (discover.dispatched.map Dispatch.event) =
      ((discover.lastFor key).bind fun dispatch => tells cell dispatch.event).getD none := by
  refine settled_map fun dispatch member => ?_
  obtain ⟨⟨watched, written⟩, made⟩ := sourced.sent dispatch member
  have speaks : (tells cell dispatch.event).isSome ↔ keyCell dispatch.key = some cell := by
    unfold tells
    rw [made.cell]
    split <;> simp [*]
  rw [speaks, decide_eq_true_iff]
  constructor
  · exact sole.alone dispatch.key watched written
  · rintro rfl
    exact sole.about

theorem ControlPlane.read_of_determined
    (run : exec (ControlPlane.step decoder history keyPrefix proxied) .new schedule = some state)
    (determined : Determined decoder history keyPrefix state.watch.discover.watchRevision cell
      content)
    (undisturbed : Undisturbed schedule cell) (drained : state.queues cell.channel = []) :
    state.background.read cell = content := by
  obtain ⟨actions, watching⟩ := ControlPlane.watch_of_run run
  have sourced := WatchLoop.sourced_of_run watching
  rw [ControlPlane.read_of_drained run undisturbed drained]
  cases determined with
  | unwritten never =>
    rw [← @settled_filter _ _ _ _ _ fun _ => false]
    · simp
    · intro event member speaks
      obtain ⟨dispatch, sent, rfl⟩ := List.mem_map.mp member
      obtain ⟨⟨watched, written⟩, made⟩ := sourced.sent dispatch sent
      unfold tells at speaks
      rw [made.cell, if_neg (never _ watched written)] at speaks
      cases speaks
  | stored sole held decodes =>
    rw [settled_of_sole sourced sole, lastFor_of_stored watching sole.watched held decodes]
    simp [tells, cell_of_putEvent decodes, sole.about]
  | deleted sole tracked gone =>
    rw [settled_of_sole sourced sole]
    have deletes := lastFor_of_deleted watching sole.watched tracked gone
    cases last : state.watch.discover.lastFor _ with
    | none => rfl
    | some dispatch =>
      have content := contentOf_delete (deletes dispatch last)
      rw [Option.bind_some, tells]
      split <;> simp [content]

/-- At every moment of every run, a cell whose channel is empty holds what etcd holds for it at the
revision discovery has reached, and then the selector knows the height the height map has. Between
the two lie snapshots, watches, resyncs, five channels and a loop, in any interleaving. -/
theorem tables_follow_etcd (decoder : Decoder) (history : History) (keyPrefix : Bytes)
    (proxied : Bytes → Bool) (schedule : List ControlAction) (state : ControlPlane)
    (run : exec (ControlPlane.step decoder history keyPrefix proxied) .new schedule = some state)
    (cell : Cell) (content : Option Content)
    (determined : Determined decoder history keyPrefix state.watch.discover.watchRevision cell
      content)
    (undisturbed : Undisturbed schedule cell) (drained : state.queues cell.channel = []) :
    state.background.read cell = content ∧
      (state.background.raising = none → ∀ chainId, cell = .height chainId →
        (state.background.chainHeight.lookup chainId).map Content.height = content) := by
  have reads := ControlPlane.read_of_determined run determined undisturbed drained
  refine ⟨reads, ?_⟩
  rintro settled chainId rfl
  rw [(ControlPlane.chainHeight_of_run run).2 chainId (by simp [settled])]
  exact reads

/-- The version of chain 1 is written, and the loop takes it. -/
def versionSchedule : List ControlAction :=
  [.watch (.init 0 []), .watch (.response 1 [.put (ascii "1/version") (ascii "v2")]),
    .select .version]

theorem shortHistory_writes {key : Bytes} (written : shortHistory.Writes key) :
    key = ascii "1/version" := by
  obtain ⟨revision, change, listed, rfl⟩ := written
  unfold shortHistory at listed
  split at listed
  · rw [List.mem_singleton.mp listed]
    rfl
  · rw [List.mem_singleton.mp listed]
    rfl
  · cases listed

theorem shortHistory_sole : SoleKey shortHistory [] (.version (ascii "1")) (ascii "1/version") where
  watched := List.nil_prefix
  about := by decide +kernel
  alone := fun _ _ written _ => shortHistory_writes written

theorem tables_follow_etcd_version :
    ∃ state, exec (ControlPlane.step plainDecoder shortHistory [] fun _ => false) .new
        versionSchedule = some state ∧
      state.background.read (.version (ascii "1")) = some (.version (ascii "1-v2")) := by
  refine ⟨_, rfl, (tables_follow_etcd plainDecoder shortHistory [] (fun _ => false) versionSchedule _
    rfl _ _ (.stored shortHistory_sole rfl rfl) trivial rfl).1.trans ?_⟩
  rfl

end Settling

/-! Two proxies. -/

def Background.selector (state : Background) (draw : Nat) : Selector where
  random := state.nodeSelector
  gatewayStrategy := state.gatewayStrategy
  draw

/-- Nothing waits but node events, and no height is on its way to the selector. -/
structure ControlPlane.CaughtUp (state : ControlPlane) : Prop where
  drained : ∀ channel, channel ≠ .node → state.queues channel = []
  raised : state.background.raising = none

theorem GatewayStrategy.content_inj {first second : GatewayStrategy} {chainId : Bytes}
    (same : first.content chainId = second.content chainId) :
    first.weightMap.lookup chainId = second.weightMap.lookup chainId ∧
      first.methodRouteMap.lookup chainId = second.methodRouteMap.lookup chainId := by
  unfold GatewayStrategy.content at same
  cases weights : first.weightMap.lookup chainId <;>
    cases routes : first.methodRouteMap.lookup chainId <;>
    cases otherWeights : second.weightMap.lookup chainId <;>
    cases otherRoutes : second.methodRouteMap.lookup chainId <;>
    simp_all

theorem effectiveChainID_congr {overrides others : Assoc Bytes Bytes} {chainID : Bytes}
    (same : overrides.lookup (trimSpace (splitChainIdentifier chainID).1) =
      others.lookup (trimSpace (splitChainIdentifier chainID).1)) :
    effectiveChainID overrides chainID = effectiveChainID others chainID := by
  simp only [effectiveChainID, resolve, same]

/-- `GetNode` reads the pools, the height and the gateway of its chain. -/
theorem getNode_congr {first second : Selector} {chain : Bytes} (draw : first.draw = second.draw)
    (pools : ∀ slot, first.random.nodes slot chain = second.random.nodes slot chain)
    (height : first.random.chainHeight.lookup chain = second.random.chainHeight.lookup chain)
    (gateway : first.gatewayStrategy.content chain = second.gatewayStrategy.content chain)
    (method : Bytes) (batch archive : Bool) (blockContext : Option BlockContext)
    (requestKey : Bytes) :
    getNode first chain method batch archive blockContext requestKey =
      getNode second chain method batch archive blockContext requestKey := by
  obtain ⟨weights, routes⟩ := GatewayStrategy.content_inj gateway
  have weigh : first.gatewayStrategy.nodeWeight chain = second.gatewayStrategy.nodeWeight chain := by
    funext node
    simp only [GatewayStrategy.nodeWeight, weights]
  have filter (nodes : List Node) : first.gatewayStrategy.filterNodesByMethod chain method nodes =
      second.gatewayStrategy.filterNodesByMethod chain method nodes := by
    simp only [GatewayStrategy.filterNodesByMethod, routes]
  simp only [getNode, candidates, weigh, filter, draw, pools, height]

section Replicas

variable {decoder : Decoder} {history : History} {keyPrefix : Bytes}
  {proxied otherProxied : Bytes → Bool} {schedule otherSchedule : List ControlAction}
  {first second : ControlPlane} {cell : Cell}

theorem ControlPlane.read_eq_of_determined
    (run : exec (ControlPlane.step decoder history keyPrefix proxied) .new schedule = some first)
    (otherRun : exec (ControlPlane.step decoder history keyPrefix otherProxied) .new otherSchedule =
      some second)
    (together : first.watch.discover.watchRevision = second.watch.discover.watchRevision)
    (caughtUp : first.CaughtUp) (otherCaughtUp : second.CaughtUp)
    (determined : ∃ content, Determined decoder history keyPrefix
      first.watch.discover.watchRevision cell content)
    (undisturbed : Undisturbed schedule cell) (otherUndisturbed : Undisturbed otherSchedule cell) :
    first.background.read cell = second.background.read cell := by
  obtain ⟨content, determined⟩ := determined
  have apart : cell.channel ≠ .node := by cases cell <;> nofun
  rw [ControlPlane.read_of_determined run determined undisturbed (caughtUp.drained _ apart)]
  rw [together] at determined
  exact (ControlPlane.read_of_determined otherRun determined otherUndisturbed
    (otherCaughtUp.drained _ apart)).symm

/-- The watch of the second proxy is lost before the write, and it finds it in a snapshot. -/
def resyncedSchedule : List ControlAction :=
  [.watch (.init 0 []), .watch (.fails true),
    .watch (.resync 1 [] [(ascii "1/version", ascii "v2")]), .select .version]

theorem shortHistory_unwritten {cell : Cell} (other : cell ≠ .version (ascii "1")) (revision : Nat) :
    Determined plainDecoder shortHistory [] revision cell none := by
  refine .unwritten fun key _ written about => other ?_
  have own : keyCell (ascii "1/version") = some (.version (ascii "1")) := by decide +kernel
  rw [shortHistory_writes written, own] at about
  exact (Option.some.inj about).symm

end Replicas

end NodexProxy.Lb
