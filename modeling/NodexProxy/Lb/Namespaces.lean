import NodexProxy.Discovery.NodeSources
import NodexProxy.Lb.Removal

/-! Regular and native nodes as two namespaces. Discovery tells them apart by the key, the loop by
the source of the event; an action for an event of one namespace leaves the other alone. -/

namespace NodexProxy.Lb

open NodexProxy.Foundation NodexProxy.Discovery

/-- The lists, the generations and the checks in flight of one namespace are as before. -/
structure Refresh.Spares (native : Bool) (before after : Refresh) : Prop where
  lists : ∀ slot chainId, (slot == .native) = native →
    after.selector.nodes slot chainId = before.selector.nodes slot chainId
  generations : ∀ id, id.native = native →
    after.nodeGens.gens.lookup id = before.nodeGens.gens.lookup id
  checks : after.checks.filter (fun check => check.nodeId.native == native) =
    before.checks.filter (fun check => check.nodeId.native == native)

/-- The event whose handling an action is, by its position in the log after the action. -/
def Refresh.cause (state : Refresh) : RefreshAction → Option Nat
  | .consume _ => some state.log.length
  | .inspect | .downgrade | .remove => some (state.log.length - 1)
  | .fail index | .complete index => state.checks[index]?.map HealthCheck.origin

/-- The event the loop is handling. -/
def Phase.event : Phase → Option TargetNode
  | .idle => none
  | .bumped event _ | .downgrading event | .forgotten event => some event

/-- The event being handled is the last of the log, and a check knows the one that started it. -/
structure Refresh.Anchored (state : Refresh) : Prop where
  phase : ∀ event, state.phase.event = some event → state.log[state.log.length - 1]? = some event
  checks : ∀ check ∈ state.checks,
    state.log[check.origin]? = some check.node ∧ check.nodeId = nodeIdentity check.node

section Anchored

variable {state final : Refresh} {event : TargetNode}

theorem Refresh.consume_phase (state : Refresh) (event : TargetNode) :
    (state.consume event).phase.event = some event := by
  unfold Refresh.consume
  cases event.changeType <;> rfl

theorem Refresh.consume_checks (state : Refresh) (event : TargetNode) :
    (state.consume event).checks = state.checks := by
  unfold Refresh.consume
  cases event.changeType <;> rfl

theorem Refresh.Anchored.consume (anchored : state.Anchored) (event : TargetNode) :
    (state.consume event).Anchored := by
  refine ⟨fun held phase => ?_, fun check member => ?_⟩
  · rw [Refresh.consume_phase] at phase
    cases phase
    simp
  · rw [Refresh.consume_checks] at member
    obtain ⟨found, identity⟩ := anchored.checks check member
    rw [Refresh.consume_log, List.getElem?_append_left (List.getElem?_eq_some_iff.mp found).1]
    exact ⟨found, identity⟩

theorem Refresh.Anchored.inspect (anchored : state.Anchored)
    (bumped : state.phase = .bumped event gen) : (state.inspect event gen).Anchored := by
  have found := anchored.phase event (by rw [bumped]; rfl)
  unfold Refresh.inspect
  split
  · refine ⟨fun held phase => ?_, anchored.checks⟩
    cases phase
    exact found
  · refine ⟨fun held phase => (by cases phase), fun check member => ?_⟩
    rcases List.mem_append.mp member with old | fresh
    · exact anchored.checks check old
    · cases List.mem_singleton.mp fresh
      exact ⟨found, rfl⟩

theorem Refresh.Anchored.step (anchored : state.Anchored)
    (last : state.step proxied action = some final) : final.Anchored := by
  rcases Refresh.step_cases last with ⟨event, _, _, rfl⟩ | ⟨event, gen, _, bumped, rfl⟩ |
    ⟨_, _, _, rfl⟩ | ⟨_, _, _, rfl⟩ | ⟨_, _, rfl⟩ | ⟨_, _, _, _, _, _, rfl⟩
  · exact anchored.consume event
  · exact anchored.inspect bumped
  · exact ⟨fun held phase => (by cases phase), anchored.checks⟩
  · exact ⟨fun held phase => (by cases phase), anchored.checks⟩
  · exact ⟨anchored.phase,
      fun check member => anchored.checks check (List.mem_of_mem_eraseIdx member)⟩
  · exact ⟨anchored.phase,
      fun check member => anchored.checks check (List.mem_of_mem_eraseIdx member)⟩

theorem Refresh.anchored_of_run {schedule : List RefreshAction}
    (run : exec (Refresh.step proxied) Refresh.init schedule = some state) : state.Anchored :=
  exec_invariant ⟨fun _ phase => (by cases phase), by simp [Refresh.init]⟩
    (fun _ _ _ anchored last => anchored.step last) run

end Anchored

section Spares

variable {selector : Random} {event : TargetNode} {slot : Slot}

/-- Whether an event has the native source, as the identity has it. -/
theorem nodeIdentity_native : (nodeIdentity event).native = (event.source == sourceNative) := rfl

theorem Slot.of_ne (other : (slot == .native) = !(nodeIdentity event).native) (role : Int) :
    slot ≠ Slot.of event.source role := by
  rintro rfl
  have same : (Slot.of event.source role == .native) = (nodeIdentity event).native := by
    rw [Bool.eq_iff_iff, beq_iff_eq, Slot.of_eq_native, nodeIdentity_native, beq_iff_eq]
  rw [same] at other
  exact Bool.not_ne_self _ other.symm

theorem upsert_spares (built : eventNode proxied event = some target)
    (other : (slot == .native) = !(nodeIdentity event).native) (role : Int) (chainId : Bytes) :
    (selector.upsertNode event.chainId role target).nodes slot chainId =
      selector.nodes slot chainId := by
  obtain ⟨base, new, rfl⟩ := Option.map_eq_some_iff.mp built
  rw [Random.nodes_upsertNode, if_neg]
  rintro ⟨addressed, -⟩
  rw [Node.setState_source, Slot.of_new new] at addressed
  exact Slot.of_ne other role addressed

theorem applyNodeState_spares (other : (slot == .native) = !(nodeIdentity event).native)
    (chainId : Bytes) :
    (applyNodeState proxied event selector).nodes slot chainId = selector.nodes slot chainId := by
  unfold applyNodeState
  split
  · rfl
  · rename_i built
    exact upsert_spares built other _ chainId

theorem removeEventNode_spares (other : (slot == .native) = !(nodeIdentity event).native)
    (chainId : Bytes) :
    (removeEventNode proxied event selector).nodes slot chainId = selector.nodes slot chainId := by
  unfold removeEventNode
  split
  · rfl
  · rename_i built
    rw [Random.nodes_removeNode, if_neg]
    rintro ⟨addressed, -⟩
    rw [Node.setState_source, Slot.of_new built] at addressed
    exact Slot.of_ne other _ addressed

theorem filter_eraseIdx {checks : List HealthCheck} {keep : HealthCheck → Bool}
    (found : checks[index]? = some check) (dropped : keep check = false) :
    (checks.eraseIdx index).filter keep = checks.filter keep := by
  induction checks generalizing index with
  | nil => rfl
  | cons first rest inductionHypothesis =>
    cases index with
    | zero =>
      cases found
      rw [List.eraseIdx_cons_zero, List.filter_cons_of_neg (by simp [dropped])]
    | succ index =>
      rw [List.eraseIdx_cons_succ, List.filter_cons, List.filter_cons, inductionHypothesis found]

theorem Refresh.consume_spares (state : Refresh) (event : TargetNode) :
    state.Spares (!(nodeIdentity event).native) (state.consume event) := by
  refine ⟨fun _ _ _ => by rw [Refresh.consume_selector], fun id other => ?_,
    by rw [Refresh.consume_checks]⟩
  have apart : id ≠ nodeIdentity event := by
    rintro rfl
    cases flag : (nodeIdentity event).native <;> rw [flag] at other <;> cases other
  unfold Refresh.consume
  cases event.changeType with
  | put => exact (Assoc.lookup_insert_eq ..).trans (if_neg apart)
  | delete => exact (Assoc.lookup_erase_eq ..).trans (if_neg apart)

theorem Refresh.inspect_spares (state : Refresh) (event : TargetNode) (gen : UInt64) :
    state.Spares (!(nodeIdentity event).native) (state.inspect event gen) := by
  refine ⟨fun _ _ _ => by rw [Refresh.inspect_selector], fun id _ => ?_, ?_⟩
  · unfold Refresh.inspect
    split <;> rfl
  · unfold Refresh.inspect
    split
    · rfl
    · simp

/-- One step: whatever is done for an event leaves the namespace alone it is not of. -/
theorem Refresh.Anchored.step_spares {state final : Refresh} (anchored : state.Anchored)
    (last : state.step proxied action = some final) :
    ∃ position event, state.cause action = some position ∧ final.log[position]? = some event ∧
      state.Spares (!(nodeIdentity event).native) final := by
  rcases Refresh.step_cases last with ⟨event, rfl, -, rfl⟩ | ⟨event, gen, rfl, bumped, rfl⟩ |
    ⟨event, rfl, downgrading, rfl⟩ | ⟨event, rfl, forgotten, rfl⟩ | ⟨index, rfl, rfl⟩ |
    ⟨index, check, target, rfl, pending, built, rfl⟩
  · exact ⟨_, event, rfl, by simp, state.consume_spares event⟩
  · refine ⟨_, event, rfl, ?_, state.inspect_spares event gen⟩
    rw [Refresh.inspect_log]
    exact anchored.phase event (by rw [bumped]; rfl)
  · exact ⟨_, event, rfl, anchored.phase event (by rw [downgrading]; rfl),
      fun _ chainId other => applyNodeState_spares other chainId, fun _ _ => rfl, rfl⟩
  · exact ⟨_, event, rfl, anchored.phase event (by rw [forgotten]; rfl),
      fun _ chainId other => removeEventNode_spares other chainId, fun _ _ => rfl, rfl⟩
  · obtain ⟨check, found⟩ : ∃ check, state.checks[index]? = some check := by
      simp only [Refresh.step] at last
      split_ifs at last with inside
      exact ⟨_, List.getElem?_eq_getElem inside⟩
    obtain ⟨origin, identity⟩ := anchored.checks check (List.mem_of_getElem? found)
    refine ⟨check.origin, check.node, by simp [Refresh.cause, found], origin, fun _ _ _ => rfl,
      fun _ _ => rfl, filter_eraseIdx found ?_⟩
    simp [identity]
  · obtain ⟨origin, identity⟩ := anchored.checks check (List.mem_of_getElem? pending)
    refine ⟨check.origin, check.node, by simp [Refresh.cause, pending], origin,
      fun _ chainId other => ?_, fun _ _ => rfl, filter_eraseIdx pending ?_⟩
    · rw [Refresh.complete_selector]
      split_ifs
      · exact upsert_spares built other _ chainId
      · rfl
    · simp [identity]

end Spares

/-- Along every run of discovery and the loop, each action is for one event that was sent. For an
event of a native key it leaves the regular nodes alone. For an event of a regular key it leaves
the native ones alone, if no value put under a regular key calls itself native. -/
theorem namespaces_separate (decoder : Decoder) (proxied : Bytes → Bool) (calls : List NodeCall)
    (schedule : List RefreshAction) (action : RefreshAction) (before after : Refresh)
    (earlier : exec (Refresh.step proxied) Refresh.init schedule = some before)
    (last : before.step proxied action = some after)
    (fed : after.log <+: (feedAfter decoder calls).discover.nodesSent.map Prod.snd) :
    ∃ position key event, before.cause action = some position ∧
      (feedAfter decoder calls).discover.nodesSent[position]? = some (key, event) ∧
      ((parseKey key).1 = .node ∧ ((∀ call ∈ calls, call.KeepsNamespace decoder) →
          before.Spares true after) ∨
        (parseKey key).1 = .nativeNode ∧ before.Spares false after) := by
  obtain ⟨position, event, cause, logged, spares⟩ :=
    (Refresh.anchored_of_run earlier).step_spares last
  have delivered : ((feedAfter decoder calls).discover.nodesSent.map Prod.snd)[position]? =
      some event := by
    obtain ⟨rest, whole⟩ := fed
    rw [← whole, List.getElem?_append_left (List.getElem?_eq_some_iff.mp logged).1]
    exact logged
  rw [List.getElem?_map] at delivered
  obtain ⟨⟨key, held⟩, sent, rfl⟩ := Option.map_eq_some_iff.mp delivered
  refine ⟨position, key, held, cause, sent, ?_⟩
  rcases nodesSent_source (List.mem_of_getElem? sent) with ⟨kind, keeps⟩ | ⟨kind, native⟩
  · refine .inl ⟨kind, fun values => ?_⟩
    have regular : (nodeIdentity held).native = false := by
      rw [nodeIdentity_native, beq_eq_false_iff_ne]
      exact keeps values
    rw [regular] at spares
    exact spares
  · have flag : (nodeIdentity held).native = true := by
      rw [nodeIdentity_native, beq_iff_eq]
      exact native
    rw [flag] at spares
    exact .inr ⟨kind, spares⟩

/-- The event of a node that is put under this key. -/
def putOf (key : Bytes) : TargetNode := targetNode key (archiveDecoder.node archiveValue).1 .put

/-- With a native node in its list and the check of another on its way, the check of an archive node
publishes. -/
theorem namespaces_separate_archive :
    ∃ before after,
      exec (Refresh.step fun _ => true) Refresh.init
        [.consume (putOf (ascii "1/nativeNodes/a")), .inspect, .complete 0,
          .consume (putOf (ascii "1/nativeNodes/b")), .inspect,
          .consume (putOf archiveKey), .inspect] = some before ∧
      (before.selector.nodes .native (ascii "1")).map Node.key = [ascii "a"] ∧
      before.checks.map (fun check => (check.nodeId.nodeKey, check.nodeId.native)) =
        [(ascii "b", true), (ascii "a", false)] ∧
      before.step (fun _ => true) (.complete 1) = some after ∧
      (after.selector.nodes .archive (ascii "1")).map Node.key = [ascii "a"] ∧
      before.Spares true after := by
  let keys := [ascii "1/nativeNodes/a", ascii "1/nativeNodes/b", archiveKey]
  let calls := keys.map fun key => NodeCall.put key archiveValue
  have sent : (feedAfter archiveDecoder calls).discover.nodesSent =
      keys.map fun key => (key, putOf key) := by decide +kernel
  let schedule : List RefreshAction :=
    [.consume (putOf (ascii "1/nativeNodes/a")), .inspect, .complete 0,
      .consume (putOf (ascii "1/nativeNodes/b")), .inspect, .consume (putOf archiveKey), .inspect]
  refine ⟨_, _, rfl, by decide +kernel, by decide +kernel, rfl, by decide +kernel, ?_⟩
  have separated := namespaces_separate archiveDecoder (fun _ => true) calls schedule (.complete 1)
    _ _ rfl rfl
  obtain ⟨position, key, event, cause, found, separate⟩ :=
    separated (by rw [sent]; exact List.prefix_rfl)
  cases cause
  rw [sent] at found
  cases found
  have kind : (parseKey archiveKey).1 = .node := by decide +kernel
  rcases separate with ⟨-, spares⟩ | ⟨native, -⟩
  · refine spares fun call listed => ?_
    obtain ⟨key, -, rfl⟩ := List.mem_map.mp listed
    intro _
    decide
  · rw [kind] at native
    cases native

theorem nodesSent_single {decoder : Decoder} {key value : Bytes}
    (node : (parseKey key).1.isNode = true) (decoded : (decoder.node value).2 = true) :
    (feedAfter decoder [.put key value]).discover.nodesSent =
      [(key, targetNode key (decoder.node value).1 .put)] := by
  have put : putEvent decoder key value =
      some (.node (targetNode key (decoder.node value).1 .put)) := by
    rw [putEvent_node node, if_pos decoded]
  simp [feedAfter, Feed.apply, Discover.dispatchPut, put, Discover.nodesSent, Feed.new,
    Discover.new, Discover.send]

/-! A value under a regular key that says it is native. -/

def disguisedValue : Bytes := ascii
  "\x7b\"stateType\":1,\"address\":\"10.0.0.1\",\"port\":8545,\"nodeType\":1,\"source\":\"native\"\x7d"

def disguisedDecoder : Decoder :=
  { archiveDecoder with
    node := fun value =>
      if value = disguisedValue then (⟨1, ascii "10.0.0.1", 8545, 1, 0, ascii "native"⟩, true)
      else (.zero, false) }

def disguisedEvent : TargetNode :=
  targetNode archiveKey (disguisedDecoder.node disguisedValue).1 .put

/-- The check started for an event of a regular key adds an entry to the native list. -/
theorem disguised_node_enters_native_list :
    (parseKey archiveKey).1 = .node ∧
    (feedAfter disguisedDecoder [.put archiveKey disguisedValue]).discover.nodesSent =
      [(archiveKey, disguisedEvent)] ∧
    ∃ before after,
      exec (Refresh.step fun _ => true) Refresh.init [.consume disguisedEvent, .inspect] =
        some before ∧
      before.step (fun _ => true) (.complete 0) = some after ∧
      before.cause (.complete 0) = some 0 ∧ after.log = [disguisedEvent] ∧
      before.selector.nodes .native (ascii "1") = [] ∧
      (after.selector.nodes .native (ascii "1")).map Node.key = [ascii "a"] := by
  refine ⟨by decide +kernel, nodesSent_single (by decide +kernel) (by decide), _, _, rfl, rfl, rfl,
    rfl, rfl, by decide +kernel⟩

end NodexProxy.Lb
