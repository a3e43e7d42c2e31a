import NodexProxy.Lb.ControlPlane
import NodexProxy.Lb.Namespaces
import NodexProxy.Lb.PoolContents

/-! From a node in etcd to its entry in the pools. The PUT of a node is being handled, its check is
in flight, or the pools show it, as long as no check fails. So once the loop has caught up and all
checks are through, the pools show the nodes that etcd holds. -/

namespace NodexProxy.Lb

open NodexProxy.Foundation NodexProxy.Discovery

/-- The loop is handling the PUT, which is the last event it consumed. -/
def Refresh.Handling (state : Refresh) (position : Nat) (event : TargetNode) : Prop :=
  position + 1 = state.log.length ∧
    ((∃ gen, state.phase = .bumped event gen) ∨ state.phase = .downgrading event)

/-- The pools show the node in the place of the event. -/
def Random.ShowsAt (selector : Random) (event : TargetNode) (node : Node) : Prop :=
  ∃ entry, selector.at (eventPlace event) = [entry] ∧ entry.Publishes node

/-- Every PUT that is the latest event of its node and describes one is on its way or shown. -/
def Refresh.RolledOut (proxied : Bytes → Bool) (state : Refresh) : Prop :=
  ∀ position event node, state.log[position]? = some event → event.changeType = .put →
    Latest state.log position (nodeIdentity event) → eventNode proxied event = some node →
    state.Handling position event ∨ (∃ check ∈ state.checks, check.origin = position) ∨
      state.selector.ShowsAt event node

section Steps

variable {proxied : Bytes → Bool} {state : Refresh} {event put : TargetNode} {node target : Node}
  {position origin : Nat}

theorem Refresh.RolledOut.consume (rolled : state.RolledOut proxied) (idle : state.phase = .idle)
    (event : TargetNode) : (state.consume event).RolledOut proxied := by
  intro position put node found kind latest built
  rw [Refresh.consume_log] at found latest
  by_cases newest : position = state.log.length
  · subst position
    simp only [List.getElem?_concat_length, Option.some.injEq] at found
    subst put
    refine .inl ⟨by simp, .inl ?_⟩
    simp [Refresh.consume, kind]
  · have inside : position < state.log.length := by
      have bound := (List.getElem?_eq_some_iff.mp found).1
      simp at bound
      omega
    have other : nodeIdentity event ≠ nodeIdentity put := by
      intro same
      exact newest (latest.unique (same ▸ latest_last state.log event))
    rw [List.getElem?_append_left inside] at found
    rcases rolled position put node found kind ((latest_append_ne event other).mp latest) built with
      handling | pending | shown
    · -- nothing is being handled at the `select`
      obtain ⟨-, ⟨gen, bumped⟩ | downgrading⟩ := handling
      · rw [idle] at bumped
        cases bumped
      · rw [idle] at downgrading
        cases downgrading
    · exact .inr (.inl (by rwa [Refresh.consume_checks]))
    · exact .inr (.inr (by rwa [Refresh.consume_selector]))

theorem Refresh.RolledOut.inspect (rolled : state.RolledOut proxied)
    (bumped : state.phase = .bumped event gen) : (state.inspect event gen).RolledOut proxied := by
  intro position put node found kind latest built
  rw [Refresh.inspect_log] at found latest
  have before := rolled position put node found kind latest built
  unfold Refresh.inspect
  split
  · refine before.imp_left fun handling => ⟨handling.1, .inr ?_⟩
    obtain ⟨-, ⟨other, same⟩ | downgrading⟩ := handling
    · rw [bumped] at same
      cases same
      rfl
    · rw [bumped] at downgrading
      cases downgrading
  · refine .inr ?_
    rcases before with ⟨last, -⟩ | ⟨check, member, origin⟩ | shown
    · exact .inl ⟨_, List.mem_append_right _ (List.mem_singleton_self _), by dsimp only; omega⟩
    · exact .inl ⟨check, List.mem_append_left _ member, origin⟩
    · exact .inr shown

/-- Publishing the latest PUT of a node shows it and keeps what is shown elsewhere. -/
theorem Random.ShowsAt.publish {selector : Random} {log : List TargetNode}
    (wellFormed : selector.WellFormed) (found : log[origin]? = some event)
    (latest : Latest log origin (nodeIdentity event))
    (built : eventNode proxied event = some target) :
    (selector.upsertNode event.chainId event.nodeType target).ShowsAt event target ∧
    ∀ position put node, log[position]? = some put → Latest log position (nodeIdentity put) →
      eventNode proxied put = some node → selector.ShowsAt put node →
      (selector.upsertNode event.chainId event.nodeType target).ShowsAt put node := by
  obtain ⟨entry, publishes, written⟩ := wellFormed.at_upsert built
  have here : (selector.upsertNode event.chainId event.nodeType target).ShowsAt event target :=
    ⟨entry, by rw [written, if_pos rfl], publishes⟩
  refine ⟨here, ?_⟩
  rintro position put node held newest described ⟨shown, listed, same⟩
  by_cases place : eventPlace put = eventPlace event
  · have identity := nodeIdentity_of_place place
    obtain rfl := newest.unique (identity ▸ latest)
    rw [found] at held
    cases held
    rw [built] at described
    cases described
    exact here
  · exact ⟨shown, by rw [written, if_neg place, listed], same⟩

theorem Refresh.RolledOut.downgrade (rolled : state.RolledOut proxied) (regular : state.Regular)
    (traced : state.Traced) (downgrading : state.phase = .downgrading event) :
    Refresh.RolledOut proxied { state with
      selector := applyNodeState proxied event state.selector, phase := .idle } := by
  have current := traced.phase
  rw [downgrading] at current
  have found := current.1
  have newest : Latest state.log (state.log.length - 1) (nodeIdentity event) := by
    refine ⟨⟨event, found, rfl⟩, fun later other beyond held => ?_⟩
    have bound := (List.getElem?_eq_some_iff.mp held).1
    omega
  intro position put node held kind latest built
  rcases rolled position put node held kind latest built with ⟨last, handling⟩ | pending | shown
  · have same : put = event := by
      rcases handling with ⟨gen, bumped⟩ | again
      · rw [downgrading] at bumped
        cases bumped
      · rw [downgrading] at again
        cases again
        rfl
    subst put
    refine .inr (.inr ?_)
    simp only [applyNodeState, built]
    exact (Random.ShowsAt.publish regular.pools found newest built).1
  · exact .inr (.inl pending)
  · refine .inr (.inr ?_)
    show (applyNodeState proxied event state.selector).ShowsAt put node
    unfold applyNodeState
    split
    · exact shown
    · rename_i described
      exact (Random.ShowsAt.publish regular.pools found newest described).2 position put node held
        latest built shown

theorem Refresh.RolledOut.remove (rolled : state.RolledOut proxied) (regular : state.Regular)
    (traced : state.Traced) (forgotten : state.phase = .forgotten event) :
    Refresh.RolledOut proxied { state with
      selector := removeEventNode proxied event state.selector, phase := .idle } := by
  have current := traced.phase
  rw [forgotten] at current
  obtain ⟨found, notPut⟩ := current
  intro position put node held kind latest built
  rcases rolled position put node held kind latest built with ⟨-, handling⟩ | pending | shown
  · rw [forgotten] at handling
    rcases handling with ⟨gen, bumped⟩ | downgrading
    · cases bumped
    · cases downgrading
  · exact .inr (.inl pending)
  · refine .inr (.inr ?_)
    obtain ⟨entry, listed, publishes⟩ := shown
    rcases regular.pools.at_remove event (eventPlace put) with same | ⟨place, -⟩
    · exact ⟨entry, same.trans listed, publishes⟩
    · -- the DELETE would be a later event of the same node
      have held : state.log[position]? = some put := held
      have inside := (List.getElem?_eq_some_iff.mp held).1
      have apart : position ≠ state.log.length - 1 := by
        rintro rfl
        rw [found] at held
        cases held
        simp [isPut, kind] at notPut
      exact absurd (nodeIdentity_of_place place).symm
        (latest.2 (state.log.length - 1) event (by omega) found)

theorem Refresh.RolledOut.complete (rolled : state.RolledOut proxied) (regular : state.Regular)
    (traced : state.Traced) (pending : state.checks[index]? = some check)
    (described : eventNode proxied check.node = some target) :
    (state.complete index check target).RolledOut proxied := by
  have member := List.mem_of_getElem? pending
  obtain ⟨found, -, identity, -⟩ := traced.checks check member
  intro position put node held kind latest built
  have before := rolled position put node held kind latest built
  by_cases own : check.origin = position
  · -- its own check is through, and it is the latest
    subst position
    have same : check.node = put := Option.some.inj (found.symm.trans held)
    subst put
    have current := (traced.current_iff member).mpr (identity ▸ latest)
    refine .inr (.inr ?_)
    rw [Refresh.complete_selector, if_pos current]
    cases described.symm.trans built
    exact (Random.ShowsAt.publish regular.pools found latest built).1
  · rcases before with handling | ⟨other, listed, origin⟩ | shown
    · exact .inl handling
    · refine .inr (.inl ⟨other, ?_, origin⟩)
      show other ∈ state.checks.eraseIdx index
      refine (List.mem_eraseIdx_iff_getElem?).mpr ?_
      obtain ⟨place, there⟩ := List.mem_iff_getElem?.mp listed
      refine ⟨place, ?_, there⟩
      rintro rfl
      cases pending.symm.trans there
      exact own origin
    · refine .inr (.inr ?_)
      rw [Refresh.complete_selector]
      split
      · rename_i current
        have newest := (traced.current_iff member).mp current
        rw [identity] at newest
        exact (Random.ShowsAt.publish regular.pools found newest described).2 position put node
          held latest built shown
      · exact shown

theorem Refresh.rolledOut_of_run {schedule : List RefreshAction}
    (run : exec (Refresh.step proxied) Refresh.init schedule = some state)
    (bound : state.log.countP isPut < 2 ^ 64) (passing : ∀ index, .fail index ∉ schedule) :
    state.RolledOut proxied := by
  refine exec_induction (motive := fun schedule state => state.log.countP isPut < 2 ^ 64 →
    (∀ index, .fail index ∉ schedule) → state.RolledOut proxied) (fun _ _ => ?_) ?_ run bound passing
  · intro position event node found
    simp [Refresh.init] at found
  intro schedule middle action final before holds last bound passing
  have grown := (Refresh.step_log_prefix last).sublist.countP_le (p := isPut)
  have rolled := holds (by omega) fun index member => passing index (List.mem_append_left _ member)
  have regular := Refresh.regular_of_run before (by omega)
  have traced := Refresh.traced_of_run before (by omega)
  rcases Refresh.step_cases last with ⟨event, _, idle, rfl⟩ | ⟨event, gen, _, bumped, rfl⟩ |
    ⟨event, _, downgrading, rfl⟩ | ⟨event, _, forgotten, rfl⟩ | ⟨index, rfl, -⟩ |
    ⟨_, _, _, _, pending, built, rfl⟩
  · exact rolled.consume idle event
  · exact rolled.inspect bumped
  · exact rolled.downgrade regular traced downgrading
  · exact rolled.remove regular traced forgotten
  · exact absurd (List.mem_append_right _ (List.mem_singleton_self _)) (passing index)
  · exact rolled.complete regular traced pending built

end Steps

/-! Together with discovery and the node channel. -/

section EndToEnd

variable {decoder : Decoder} {history : History} {keyPrefix key value : Bytes}
  {proxied : Bytes → Bool} {schedule : List ControlAction} {state : ControlPlane}
  {event : TargetNode}

theorem Refresh.step_log {state final : Refresh} {action : RefreshAction}
    (last : state.step proxied action = some final) (other : ∀ event, action ≠ .consume event) :
    final.log = state.log := by
  rcases Refresh.step_cases last with ⟨event, same, _, rfl⟩ | ⟨event, gen, _, _, rfl⟩ |
    ⟨_, _, _, rfl⟩ | ⟨_, _, _, rfl⟩ | ⟨_, _, rfl⟩ | ⟨_, _, _, _, _, _, rfl⟩
  · exact absurd same (other event)
  · exact Refresh.inspect_log ..
  all_goals rfl

/-- The log is what was taken from the node channel. -/
theorem ControlPlane.log_of_run
    (run : exec (ControlPlane.step decoder history keyPrefix proxied) .new schedule = some state) :
    state.taken .node = state.background.refresh.log.map Event.node := by
  refine exec_induction (motive := fun _ state =>
    state.taken .node = state.background.refresh.log.map Event.node) rfl ?_ run
  intro schedule state action final before logged stepped
  rcases ControlPlane.step_cases stepped with ⟨_, _, -, -, rfl⟩ |
    ⟨channel, event, rest, -, -, queued, rfl⟩ | ⟨_, refresh, -, other, moved, rfl⟩ |
    ⟨_, -, -, rfl⟩ | ⟨_, -, rfl⟩ | ⟨_, -, rfl⟩
  · exact logged
  · have own : event.channel = channel :=
      ControlPlane.sorted_of_run before channel event (by rw [queued]; exact List.mem_cons_self)
    subst channel
    cases event with
    | node node => simp [ControlPlane.take, Event.channel, Background.consume, logged]
    | _ => simpa [ControlPlane.take, Event.channel, Background.consume] using logged
  · show state.taken .node = refresh.log.map Event.node
    rw [Refresh.step_log moved other]
    exact logged
  all_goals exact logged

/-- Whatever is sent for the identity comes from the one key. -/
def SoleIdentity (decoder : Decoder) (history : History) (keyPrefix key : Bytes)
    (id : NodeIdentity) : Prop :=
  ∀ dispatch : Dispatch, dispatch.Made decoder → keyPrefix <+: dispatch.key →
    history.Writes dispatch.key → ∀ node, dispatch.event = .node node → nodeIdentity node = id →
    dispatch.key = key

/-- With the node channel empty, the PUT of a stored node is the latest event of its identity. -/
theorem ControlPlane.latest_of_stored
    (run : exec (ControlPlane.step decoder history keyPrefix proxied) .new schedule = some state)
    (watched : keyPrefix <+: key)
    (stored : (history.storeAt state.watch.discover.watchRevision).lookup key = some value)
    (decodes : putEvent decoder key value = some (.node event))
    (sole : SoleIdentity decoder history keyPrefix key (nodeIdentity event))
    (unsubmitted : ∀ node, .submit node ∉ schedule) (drained : state.queues .node = []) :
    ∃ position, state.background.refresh.log[position]? = some event ∧
      Latest state.background.refresh.log position (nodeIdentity event) := by
  obtain ⟨actions, watching⟩ := ControlPlane.watch_of_run run
  have sourced := WatchLoop.sourced_of_run watching
  have last := lastFor_of_stored watching watched stored decodes
  obtain ⟨-, behind, before, split, silent⟩ := List.find?_eq_some_iff_append.mp last
  -- the log, cut at the last dispatch for the key
  have flow := ControlPlane.flow_of_run run .node fun _ => unsubmitted
  rw [drained, List.append_nil, ControlPlane.log_of_run run] at flow
  have cut : state.watch.discover.dispatched =
      before.reverse ++ ⟨key, some value, .node event⟩ :: behind.reverse := by
    have reversed := congrArg List.reverse split
    simpa using reversed
  rw [cut, List.map_append, List.filter_append, List.map_cons,
    List.filter_cons_of_pos (by rfl)] at flow
  generalize (before.reverse.map Dispatch.event).filter _ = early at flow
  have entry (index : Nat) := congrArg (fun events : List Event => events[index]?) flow
  simp only [List.getElem?_map] at entry
  have found : state.background.refresh.log[early.length]? = some event := by
    have here := entry early.length
    rw [List.getElem?_append_right le_rfl, Nat.sub_self, List.getElem?_cons_zero] at here
    obtain ⟨held, found, isEvent⟩ := Option.map_eq_some_iff.mp here
    cases isEvent
    exact found
  refine ⟨early.length, found, ⟨event, found, rfl⟩, fun later other beyond held same => ?_⟩
  have there := entry later
  obtain ⟨distance, rfl⟩ := Nat.exists_eq_add_of_lt beyond
  rw [List.getElem?_append_right (by omega), held, Option.map_some,
    show early.length + distance + 1 - early.length = distance + 1 by omega,
    List.getElem?_cons_succ] at there
  have member := (List.mem_filter.mp (List.mem_of_getElem? there.symm)).1
  obtain ⟨dispatch, listed, isNode⟩ := List.mem_map.mp member
  have sent : dispatch ∈ state.watch.discover.dispatched := by
    rw [cut]
    exact List.mem_append_right _ (List.mem_cons_of_mem _ listed)
  obtain ⟨⟨under, written⟩, made⟩ := sourced.sent dispatch sent
  have again := sole dispatch made under written other isNode same
  simpa [again] using silent dispatch (List.mem_reverse.mp listed)

/-- Once the node channel is empty, the loop is at its `select` and every check has passed, the
pools show each node that etcd holds: one entry in its place, with the address, source, type,
weight and state that are stored. -/
theorem pools_converge_to_etcd (decoder : Decoder) (history : History) (keyPrefix : Bytes)
    (proxied : Bytes → Bool) (schedule : List ControlAction) (state : ControlPlane)
    (run : exec (ControlPlane.step decoder history keyPrefix proxied) .new schedule = some state)
    (bound : state.background.refresh.log.countP isPut < 2 ^ 64)
    (unsubmitted : ∀ node, .submit node ∉ schedule)
    (passing : ∀ index, .refresh (.fail index) ∉ schedule)
    (drained : state.queues .node = []) (idle : state.background.idle = true)
    (finished : state.background.refresh.checks = []) (key value : Bytes) (event : TargetNode)
    (node : Node) (watched : keyPrefix <+: key)
    (stored : (history.storeAt state.watch.discover.watchRevision).lookup key = some value)
    (decodes : putEvent decoder key value = some (.node event))
    (built : eventNode proxied event = some node)
    (sole : SoleIdentity decoder history keyPrefix key (nodeIdentity event)) :
    state.background.nodeSelector.ShowsAt event node := by
  obtain ⟨position, found, latest⟩ :=
    ControlPlane.latest_of_stored run watched stored decodes sole unsubmitted drained
  obtain ⟨actions, refreshing, origins⟩ := ControlPlane.refresh_of_run run
  have passed : ∀ index, .fail index ∉ actions := by
    intro index member
    rcases origins _ member with listed | ⟨_, isConsume⟩
    · exact passing index listed
    · cases isConsume
  have put : event.changeType = .put := putEvent_changeType decodes
  rcases Refresh.rolledOut_of_run refreshing bound passed position event node found put latest built
    with ⟨-, handling⟩ | ⟨check, member, -⟩ | shown
  · rw [((Background.idle_iff _).mp idle).1] at handling
    rcases handling with ⟨gen, bumped⟩ | downgrading
    · cases bumped
    · cases downgrading
  · rw [finished] at member
    cases member
  · exact shown

/-- An archive node is written, and its check passes. -/
def rolloutDecoder : Decoder :=
  { plainDecoder with
    node := fun _ => (⟨1, ascii "10.0.0.1", 8545, nodeTypeArchive, 0, ascii "official"⟩, true) }

def rolloutEvent : TargetNode :=
  { stateType := 1, address := ascii "10.0.0.1", port := 8545, nodeType := nodeTypeArchive
    weight := 0, source := ascii "official", chainId := ascii "1", nodeKey := ascii "a"
    changeType := .put }

def rolloutNode : Node :=
  { key := ascii "a", ip := ascii "10.0.0.1", port := 8545, addr := ascii "10.0.0.1:8545"
    source := ascii "official", weight := 1, stateType := 1, nodeType := nodeTypeArchive }

def rolloutHistory : History
  | 1 => [.put (ascii "1/nodes/a") (ascii "up")]
  | _ => []

def rolloutSchedule : List ControlAction :=
  [.watch (.init 0 []), .watch (.response 1 [.put (ascii "1/nodes/a") (ascii "up")]),
    .select .node, .refresh .inspect, .refresh (.complete 0)]

theorem rolloutEvent_put :
    putEvent rolloutDecoder (ascii "1/nodes/a") (ascii "up") = some (.node rolloutEvent) := by
  have parsed : parseKey (ascii "1/nodes/a") = (.node, ascii "1", ascii "a") := by decide +kernel
  simp [putEvent, parsed, rolloutDecoder, rolloutEvent]

theorem rolloutHistory_writes {key : Bytes} (written : rolloutHistory.Writes key) :
    key = ascii "1/nodes/a" := by
  obtain ⟨revision, change, listed, rfl⟩ := written
  unfold rolloutHistory at listed
  split at listed
  · rw [List.mem_singleton.mp listed]
    rfl
  · cases listed

theorem pools_converge_to_etcd_archive :
    ∃ state, exec (ControlPlane.step rolloutDecoder rolloutHistory [] fun _ => true) .new
        rolloutSchedule = some state ∧
      ∃ entry, state.background.nodeSelector.at ⟨.archive, ascii "1", ascii "a"⟩ = [entry] ∧
        entry.addr = ascii "10.0.0.1:8545" := by
  have reached : (exec (ControlPlane.step rolloutDecoder rolloutHistory [] fun _ => true) .new
      rolloutSchedule).map (fun state => (state.background.refresh.log.countP isPut,
        (state.queues .node).length, state.background.idle, state.background.refresh.checks.length,
        state.watch.discover.watchRevision)) = some (1, 0, true, 0, 1) := by
    decide +kernel
  obtain ⟨state, run, facts⟩ := Option.map_eq_some_iff.mp reached
  simp only [Prod.mk.injEq, List.length_eq_zero_iff] at facts
  obtain ⟨puts, drained, idle, finished, revision⟩ := facts
  refine ⟨state, run, ?_⟩
  obtain ⟨entry, listed, publishes⟩ :=
    pools_converge_to_etcd rolloutDecoder rolloutHistory [] (fun _ => true) rolloutSchedule state
      run (by omega) (by simp [rolloutSchedule]) (by simp [rolloutSchedule]) drained idle finished
      (ascii "1/nodes/a") (ascii "up") rolloutEvent rolloutNode List.nil_prefix
      (by rw [revision]; decide +kernel) rolloutEvent_put (by decide +kernel)
      fun _ _ _ written _ _ _ => rolloutHistory_writes written
  exact ⟨entry, listed, publishes.2.1⟩

end EndToEnd

end NodexProxy.Lb
