import NodexProxy.Lb.GenerationInvariant

/-! When a deleted node is gone. `RemoveNode` reaches only the list that the DELETE's own
source and type address, so removal is complete exactly when the identity's entries sit
in that list. -/

namespace NodexProxy.Lb

open NodexProxy.Foundation NodexProxy.Discovery

/-- Each list keeps one entry for a key, and holds only the nodes it is meant for. -/
structure Random.WellFormed (selector : Random) : Prop where
  distinct : ∀ slot chain, ((selector.nodes slot chain).map Node.key).Nodup
  placed : ∀ slot chain, ∀ node ∈ selector.nodes slot chain, Slot.of node.source node.nodeType = slot

theorem Random.WellFormed.upsertNode {selector : Random} (wellFormed : selector.WellFormed)
    (chainId : Bytes) (node : Node) : (selector.upsertNode chainId node.nodeType node).WellFormed := by
  constructor
  · intro slot chain
    rw [Random.nodes_upsertNode]
    split
    · exact upsertInto_nodup (wellFormed.distinct slot chain) node
    · exact wellFormed.distinct slot chain
  · intro slot chain entry member
    rw [Random.nodes_upsertNode] at member
    split at member
    · rename_i addressed
      rcases mem_upsertInto member with ⟨_, source, nodeType⟩ | old
      · rw [source, nodeType]
        exact addressed.1.symm
      · exact wellFormed.placed slot chain entry old
    · exact wellFormed.placed slot chain entry member

theorem Random.mem_nodes_removeNode {selector : Random}
    (member : entry ∈ (selector.removeNode chainId role node).nodes slot chain) :
    entry ∈ selector.nodes slot chain := by
  rw [Random.nodes_removeNode] at member
  split at member
  · exact List.mem_of_mem_eraseP member
  · exact member

theorem Random.WellFormed.removeNode {selector : Random} (wellFormed : selector.WellFormed)
    (chainId : Bytes) (role : Int) (node : Node) :
    (selector.removeNode chainId role node).WellFormed := by
  constructor
  · intro slot chain
    rw [Random.nodes_removeNode]
    split
    · exact (wellFormed.distinct slot chain).sublist (List.eraseP_sublist.map _)
    · exact wellFormed.distinct slot chain
  · intro slot chain entry member
    exact wellFormed.placed slot chain entry (Random.mem_nodes_removeNode member)

/-- Where keys are distinct, erasing the first entry of a key erases the key. -/
theorem key_ne_of_mem_eraseP {nodes : List Node} (distinct : (nodes.map Node.key).Nodup)
    (member : entry ∈ nodes.eraseP fun existing => existing.key == nodeKey) :
    entry.key ≠ nodeKey := by
  induction nodes with
  | nil => simp at member
  | cons head rest ih =>
    obtain ⟨fresh, distinctRest⟩ := List.nodup_cons.mp distinct
    by_cases same : head.key = nodeKey
    · rw [List.eraseP_cons_of_pos (by simpa using same)] at member
      rintro rfl
      exact fresh (same ▸ List.mem_map_of_mem member)
    · rw [List.eraseP_cons_of_neg (by simpa using same)] at member
      rcases List.mem_cons.mp member with first | later
      · subst entry
        exact same
      · exact ih distinctRest later

/-- The pools hold an entry with the key and the native flag of the identity. -/
def Random.Holds (selector : Random) (id : NodeIdentity) : Prop :=
  ∃ slot, ∃ node ∈ selector.nodes slot id.chainId, node.key = id.nodeKey ∧ node.native = id.native

/-- A DELETE meets the pools it expects: a node can be built from it, and every entry
of its identity sits in the list it addresses. -/
def Removable (proxied : Bytes → Bool) (selector : Random) (event : TargetNode) : Prop :=
  ∀ slot, ∀ node ∈ selector.nodes slot event.chainId,
    node.key = event.nodeKey → node.native = (nodeIdentity event).native →
      Slot.of node.source node.nodeType = Slot.of event.source event.nodeType ∧
      (Node.new proxied event.nodeKey event.address event.port defaultWeight event.nodeType
        event.source).isSome

theorem Slot.of_new {target : Node} {event : TargetNode} (built :
    Node.new proxied event.nodeKey event.address event.port weight nodeType event.source =
      some target) (role : Int) :
    Slot.of target.source role = Slot.of event.source role := by
  obtain ⟨_, _, source⟩ := Node.new_some built
  rw [source]
  split
  · rename_i empty
    have official : ascii "official" ≠ sourceNative := by decide
    have missing : ([] : Bytes) ≠ sourceNative := by decide
    simp [Slot.of, empty, official, missing]
  · rfl

/-- After a removal the identity is gone exactly when the DELETE met what it expects. -/
theorem removeEventNode_gone_iff {selector : Random} (wellFormed : selector.WellFormed)
    (event : TargetNode) :
    ¬ (removeEventNode proxied event selector).Holds (nodeIdentity event) ↔
      Removable proxied selector event := by
  unfold removeEventNode
  constructor
  · intro gone slot node member key native
    cases built : Node.new proxied event.nodeKey event.address event.port defaultWeight
        event.nodeType event.source with
    | none =>
      rw [built] at gone
      exact absurd ⟨slot, node, member, key, native⟩ gone
    | some target =>
      rw [built] at gone
      refine ⟨?_, rfl⟩
      by_contra misplaced
      refine gone ⟨slot, node, ?_, key, native⟩
      rw [Random.nodes_removeNode, if_neg]
      · exact member
      · rintro ⟨addressed, _⟩
        rw [Node.setState_source, Slot.of_new built] at addressed
        exact misplaced ((wellFormed.placed slot _ node member).trans addressed)
  · rintro removable ⟨slot, node, member, key, native⟩
    cases built : Node.new proxied event.nodeKey event.address event.port defaultWeight
        event.nodeType event.source with
    | none =>
      rw [built] at member
      have constructed := (removable slot node member key native).2
      simp [built] at constructed
    | some target =>
      rw [built] at member
      have old := Random.mem_nodes_removeNode member
      have placed := (removable slot node old key native).1
      rw [Random.nodes_removeNode, if_pos] at member
      · refine key_ne_of_mem_eraseP (wellFormed.distinct slot _) member ?_
        rw [Node.setState_key, (Node.new_some built).1]
        exact key
      · rw [Node.setState_source, Slot.of_new built, ← placed]
        exact ⟨(wellFormed.placed slot _ node old).symm, rfl⟩

/-- A DELETE at `position` that the loop has finished handling. -/
def Refresh.Deleted (state : Refresh) (position : Nat) (event : TargetNode) : Prop :=
  state.log[position]? = some event ∧ event.changeType = .delete ∧
    (position + 1 = state.log.length → state.phase ≠ .forgotten event)

/-- No check started by a PUT of the identity after `position` has published. -/
def Refresh.Unpublished (state : Refresh) (position : Nat) (id : NodeIdentity) : Prop :=
  ∀ origin ∈ state.published, position < origin →
    ∀ put, state.log[origin]? = some put → nodeIdentity put ≠ id

/-- A deleted node is gone until a check of a later PUT publishes it again. -/
def Refresh.Gone (state : Refresh) : Prop :=
  ∀ position event, state.Deleted position event →
    state.Unpublished position (nodeIdentity event) → ¬ state.selector.Holds (nodeIdentity event)

/-- A log entry of a PUT after which no DELETE of the identity is finished. -/
def Refresh.Live (state : Refresh) (origin : Nat) (id : NodeIdentity) : Prop :=
  ∃ put, state.log[origin]? = some put ∧ isPut put = true ∧ nodeIdentity put = id ∧
    ∀ later event, origin < later → state.log[later]? = some event → nodeIdentity event = id →
      isPut event = false → later + 1 = state.log.length ∧ state.phase = .forgotten event

/-- What every run keeps, whatever its DELETEs address. -/
structure Refresh.Regular (state : Refresh) : Prop where
  pools : state.selector.WellFormed
  published : ∀ origin ∈ state.published, origin < state.log.length

/-- Every entry was published by a check of its identity after which no DELETE of the
identity has been finished. -/
structure Refresh.Accounted (state : Refresh) : Prop where
  entries : ∀ id, state.selector.Holds id → ∃ origin ∈ state.published, state.Live origin id
  pooled : ∀ event, state.phase = .downgrading event → state.selector.Holds (nodeIdentity event)

theorem Refresh.Accounted.gone {state : Refresh} (accounted : state.Accounted) : state.Gone := by
  rintro position event ⟨found, delete, finished⟩ unpublished held
  obtain ⟨origin, member, put, foundPut, isput, identity, unfinished⟩ := accounted.entries _ held
  have notPut : isPut event = false := by simp [isPut, delete]
  rcases Nat.lt_trichotomy origin position with before | same | after
  · obtain ⟨last, handling⟩ := unfinished position event before found rfl notPut
    exact finished last handling
  · subst origin
    rw [found] at foundPut
    cases foundPut
    simp [notPut] at isput
  · exact unpublished origin member after put foundPut identity

theorem Random.Holds.of_upsertNode {selector : Random} {id : NodeIdentity}
    (held : (selector.upsertNode chainId role node).Holds id) :
    id = ⟨chainId, node.key, node.native⟩ ∨ selector.Holds id := by
  obtain ⟨slot, entry, member, key, native⟩ := held
  rw [Random.nodes_upsertNode] at member
  split at member
  · rename_i addressed
    rcases mem_upsertInto member with ⟨sameKey, source, _⟩ | old
    · left
      have flag : entry.native = node.native := by simp [Node.native, source]
      cases id
      simp_all
    · exact .inr ⟨slot, entry, old, key, native⟩
  · exact .inr ⟨slot, entry, member, key, native⟩

theorem Slot.of_eq_native (source : Bytes) (role : Int) :
    Slot.of source role = .native ↔ source = sourceNative := by
  unfold Slot.of
  split
  · simp [*]
  · split <;> simp [*]

/-- An upsert never drops an entry: the one with the upserted key only changes place
within its own list. -/
theorem mem_upsertInto_of_mem {nodes : List Node} (member : entry ∈ nodes) (node : Node) :
    ∃ kept ∈ upsertInto nodes node, kept.key = entry.key ∧
      (kept.source = entry.source ∨ kept.source = node.source) := by
  induction nodes with
  | nil => simp at member
  | cons existing rest ih =>
    simp only [upsertInto]
    rcases List.mem_cons.mp member with first | later
    · subst entry
      split
      · rename_i same
        refine ⟨_, List.mem_cons_self, ?_⟩
        split
        · exact ⟨rfl, .inl rfl⟩
        · exact ⟨same.symm, .inr rfl⟩
      · exact ⟨existing, List.mem_cons_self, rfl, .inl rfl⟩
    · split
      · exact ⟨entry, List.mem_cons_of_mem _ later, rfl, .inl rfl⟩
      · obtain ⟨kept, present, same⟩ := ih later
        exact ⟨kept, List.mem_cons_of_mem _ present, same⟩

theorem Random.Holds.upsertNode {selector : Random} {id : NodeIdentity} (held : selector.Holds id)
    (wellFormed : selector.WellFormed) (chainId : Bytes) (role : Int) (node : Node) :
    (selector.upsertNode chainId role node).Holds id := by
  obtain ⟨slot, entry, member, key, native⟩ := held
  by_cases addressed : slot = Slot.of node.source role ∧ id.chainId = chainId
  · obtain ⟨kept, present, sameKey, source⟩ := mem_upsertInto_of_mem member node
    refine ⟨slot, kept, ?_, sameKey.trans key, ?_⟩
    · rw [Random.nodes_upsertNode, if_pos addressed]
      exact present
    · rw [← native]
      rcases source with same | same
      · simp [Node.native, same]
      · -- both sources address this list, so they agree on being native
        have placed := wellFormed.placed slot _ entry member
        have agree : entry.source = sourceNative ↔ node.source = sourceNative := by
          rw [← Slot.of_eq_native entry.source entry.nodeType, placed, addressed.1,
            Slot.of_eq_native]
        simp only [Node.native, same]
        exact Bool.eq_iff_iff.mpr (by simpa using agree.symm)
  · refine ⟨slot, entry, ?_, key, native⟩
    rw [Random.nodes_upsertNode, if_neg addressed]
    exact member

theorem eventNode_identity {target : Node} (built : eventNode proxied event = some target) :
    (⟨event.chainId, target.key, target.native⟩ : NodeIdentity) = nodeIdentity event := by
  obtain ⟨key, native, _, _⟩ := eventNode_some built
  simp [nodeIdentity, key, native]

theorem applyNodeState_wellFormed {selector : Random} (wellFormed : selector.WellFormed)
    (event : TargetNode) : (applyNodeState proxied event selector).WellFormed := by
  unfold applyNodeState
  split
  · exact wellFormed
  · rename_i target built
    obtain ⟨_, _, nodeType, _⟩ := eventNode_some built
    rw [← nodeType]
    exact wellFormed.upsertNode event.chainId target

theorem applyNodeState_holds {selector : Random} {event : TargetNode} {id : NodeIdentity}
    (held : (applyNodeState proxied event selector).Holds id) :
    id = nodeIdentity event ∨ selector.Holds id := by
  unfold applyNodeState at held
  split at held
  · exact .inr held
  · rename_i target built
    rcases held.of_upsertNode with same | old
    · exact .inl (same.trans (eventNode_identity built))
    · exact .inr old

theorem removeEventNode_wellFormed {selector : Random} (wellFormed : selector.WellFormed)
    (event : TargetNode) : (removeEventNode proxied event selector).WellFormed := by
  unfold removeEventNode
  split
  · exact wellFormed
  · exact wellFormed.removeNode _ _ _

theorem removeEventNode_holds {selector : Random} {id : NodeIdentity}
    (held : (removeEventNode proxied event selector).Holds id) : selector.Holds id := by
  unfold removeEventNode at held
  split at held
  · exact held
  · obtain ⟨slot, entry, member, same⟩ := held
    exact ⟨slot, entry, Random.mem_nodes_removeNode member, same⟩

theorem Refresh.Live.consume {state : Refresh} {id : NodeIdentity} (live : state.Live origin id)
    (idle : state.phase = .idle) (event : TargetNode) : (state.consume event).Live origin id := by
  obtain ⟨put, found, isput, identity, unfinished⟩ := live
  have inside := (List.getElem?_eq_some_iff.mp found).1
  refine ⟨put, ?_, isput, identity, ?_⟩
  · rw [Refresh.consume_log, List.getElem?_append_left inside]
    exact found
  · intro later other beyond held same delete
    rw [Refresh.consume_log] at held ⊢
    rcases Nat.lt_or_ge later state.log.length with old | new
    · rw [List.getElem?_append_left old] at held
      have handling := (unfinished later other beyond held same delete).2
      rw [idle] at handling
      cases handling
    · have bound := (List.getElem?_eq_some_iff.mp held).1
      simp only [List.length_append, List.length_singleton] at bound ⊢
      obtain rfl : later = state.log.length := by omega
      simp only [List.getElem?_concat_length, Option.some.injEq] at held
      subst other
      have kind : event.changeType = .delete := by
        cases kind : event.changeType with
        | put => simp [isPut, kind] at delete
        | delete => rfl
      simp [Refresh.consume, kind]

/-- A phase other than the removal of a DELETE leaves no finished DELETE behind. -/
theorem Refresh.Live.rephase {state : Refresh} {id : NodeIdentity} (live : state.Live origin id)
    (handling : ∀ event, state.phase ≠ .forgotten event) {final : Refresh}
    (log : final.log = state.log) : final.Live origin id := by
  obtain ⟨put, found, isput, identity, unfinished⟩ := live
  refine ⟨put, log ▸ found, isput, identity, ?_⟩
  intro later event beyond held same delete
  exact absurd (unfinished later event beyond (log ▸ held) same delete).2 (handling event)

theorem Refresh.Accounted.consume {state : Refresh} (accounted : state.Accounted)
    (idle : state.phase = .idle) (event : TargetNode) : (state.consume event).Accounted := by
  refine ⟨?_, ?_⟩
  · intro id held
    rw [Refresh.consume_selector] at held
    rw [Refresh.consume_published]
    obtain ⟨origin, member, live⟩ := accounted.entries id held
    exact ⟨origin, member, live.consume idle event⟩
  · intro other downgrading
    unfold Refresh.consume at downgrading
    split at downgrading <;> cases downgrading

theorem Refresh.Accounted.inspect {state : Refresh} (accounted : state.Accounted)
    (bumped : state.phase = .bumped event gen) : (state.inspect event gen).Accounted := by
  refine ⟨?_, ?_⟩
  · intro id held
    rw [Refresh.inspect_selector] at held
    rw [Refresh.inspect_published]
    obtain ⟨origin, member, live⟩ := accounted.entries id held
    exact ⟨origin, member, live.rephase (by simp [bumped]) (Refresh.inspect_log ..)⟩
  · intro other downgrading
    unfold Refresh.inspect at downgrading
    split at downgrading
    · rename_i pooled
      cases downgrading
      rw [Refresh.inspect_selector]
      exact (Random.nodeInPool_iff _ _).mp pooled.2
    · cases downgrading

theorem Refresh.Accounted.downgrade {state : Refresh} (accounted : state.Accounted)
    (downgrading : state.phase = .downgrading event) :
    Refresh.Accounted { state with
      selector := applyNodeState proxied event state.selector, phase := .idle } := by
  refine ⟨?_, by simp⟩
  intro id held
  have before : state.selector.Holds id := by
    rcases applyNodeState_holds held with same | old
    · exact same ▸ accounted.pooled event downgrading
    · exact old
  obtain ⟨origin, member, live⟩ := accounted.entries id before
  exact ⟨origin, member, live.rephase (by simp [downgrading]) rfl⟩

theorem Refresh.Accounted.remove {state : Refresh} (accounted : state.Accounted)
    (wellFormed : state.selector.WellFormed) (forgotten : state.phase = .forgotten event)
    (removable : Removable proxied state.selector event) :
    Refresh.Accounted { state with
      selector := removeEventNode proxied event state.selector, phase := .idle } := by
  refine ⟨?_, by simp⟩
  intro id held
  obtain ⟨origin, member, put, found, isput, identity, unfinished⟩ :=
    accounted.entries id (removeEventNode_holds held)
  refine ⟨origin, member, put, found, isput, identity, ?_⟩
  intro later other beyond foundOther same delete
  -- the only unfinished DELETE is the one just handled, and its identity holds nothing
  obtain ⟨_, handling⟩ := unfinished later other beyond foundOther same delete
  rw [forgotten] at handling
  cases handling
  exact absurd (same ▸ held) ((removeEventNode_gone_iff wellFormed event).mpr removable)

theorem Refresh.Accounted.complete {state : Refresh} (accounted : state.Accounted)
    (wellFormed : state.selector.WellFormed) (traced : state.Traced)
    (pending : state.checks[index]? = some check)
    (built : eventNode proxied check.node = some target) :
    (state.complete index check target).Accounted := by
  have member := List.mem_of_getElem? pending
  obtain ⟨found, isput, identity, _⟩ := traced.checks check member
  by_cases current : (state.nodeGens.gens.lookup check.nodeId).getD 0 = check.gen
  · have latest := (traced.current_iff member).mp current
    simp only [Refresh.complete, NodeGenerations.applyIfCurrent, current, ne_eq, not_true_eq_false,
      if_false, if_true]
    refine ⟨?_, ?_⟩
    · intro id held
      rcases held.of_upsertNode with same | old
      · refine ⟨check.origin, by simp, check.node, found, isput, ?_, ?_⟩
        · exact (same.trans (eventNode_identity built)).symm
        · intro later event beyond heldEvent sameEvent _
          refine absurd ?_ (latest.2 later event beyond heldEvent)
          rw [sameEvent, same, eventNode_identity built, identity]
      · obtain ⟨origin, published, live⟩ := accounted.entries id old
        exact ⟨origin, List.mem_append_left _ published, live⟩
    · intro event downgrading
      exact (accounted.pooled event downgrading).upsertNode wellFormed _ _ _
  · simp only [Refresh.complete, NodeGenerations.applyIfCurrent, current, ne_eq, not_false_eq_true,
      if_true, Bool.false_eq_true, if_false]
    exact ⟨accounted.entries, accounted.pooled⟩

theorem Refresh.Accounted.step {state final : Refresh} {action : RefreshAction}
    (accounted : state.Accounted) (wellFormed : state.selector.WellFormed) (traced : state.Traced)
    (removable : ∀ event, action = .remove → state.phase = .forgotten event →
      Removable proxied state.selector event)
    (last : state.step proxied action = some final) : final.Accounted := by
  rcases Refresh.step_cases last with ⟨event, _, idle, rfl⟩ | ⟨event, gen, _, bumped, rfl⟩ |
    ⟨event, _, downgrading, rfl⟩ | ⟨event, isRemove, forgotten, rfl⟩ | ⟨_, _, rfl⟩ |
    ⟨_, _, _, _, pending, built, rfl⟩
  · exact accounted.consume idle event
  · exact accounted.inspect bumped
  · exact accounted.downgrade downgrading
  · exact accounted.remove wellFormed forgotten (removable event isRemove forgotten)
  · exact ⟨accounted.entries, accounted.pooled⟩
  · exact accounted.complete wellFormed traced pending built

theorem Refresh.Regular.step {state final : Refresh} {action : RefreshAction}
    (regular : state.Regular) (traced : state.Traced)
    (last : state.step proxied action = some final) : final.Regular := by
  have grown := (Refresh.step_log_prefix last).length_le
  have kept : ∀ origin ∈ state.published, origin < final.log.length :=
    fun origin member => Nat.lt_of_lt_of_le (regular.published origin member) grown
  rcases Refresh.step_cases last with ⟨event, _, _, rfl⟩ | ⟨event, gen, _, _, rfl⟩ |
    ⟨event, _, _, rfl⟩ | ⟨event, _, _, rfl⟩ | ⟨_, _, rfl⟩ |
    ⟨index, check, target, _, pending, built, rfl⟩
  · exact ⟨by simpa using regular.pools, by simpa using kept⟩
  · exact ⟨by simpa using regular.pools, by simpa using kept⟩
  · exact ⟨applyNodeState_wellFormed regular.pools event, kept⟩
  · exact ⟨removeEventNode_wellFormed regular.pools event, kept⟩
  · exact ⟨regular.pools, kept⟩
  · obtain ⟨found, _⟩ := traced.checks check (List.mem_of_getElem? pending)
    obtain ⟨_, _, nodeType, _⟩ := eventNode_some built
    constructor
    · rw [Refresh.complete_selector]
      split
      · rw [← nodeType]
        exact regular.pools.upsertNode _ target
      · exact regular.pools
    · intro origin member
      simp only [Refresh.complete] at member
      split at member
      · rcases List.mem_append.mp member with old | fresh
        · exact kept origin old
        · rw [List.mem_singleton.mp fresh]
          exact (List.getElem?_eq_some_iff.mp found).1
      · exact kept origin member

theorem Random.not_holds_empty (id : NodeIdentity) : ¬ Random.empty.Holds id := by
  rintro ⟨slot, node, member, _⟩
  cases slot <;> simp [Random.empty, Random.nodes, Random.lists] at member

theorem Refresh.regular_init : Refresh.init.Regular := by
  refine ⟨⟨?_, ?_⟩, by simp [Refresh.init]⟩
  · intro slot chain
    cases slot <;> simp [Refresh.init, Random.empty, Random.nodes, Random.lists]
  · intro slot chain node member
    cases slot <;> simp [Refresh.init, Random.empty, Random.nodes, Random.lists] at member

theorem Refresh.accounted_init : Refresh.init.Accounted :=
  ⟨fun id held => absurd held (Random.not_holds_empty id), by simp [Refresh.init]⟩

theorem Refresh.regular_of_run {schedule : List RefreshAction} {state : Refresh}
    (run : exec (Refresh.step proxied) Refresh.init schedule = some state)
    (bound : state.log.countP isPut < 2 ^ 64) : state.Regular := by
  refine exec_induction (motive := fun _ state => state.log.countP isPut < 2 ^ 64 → state.Regular)
    (fun _ => Refresh.regular_init) ?_ run bound
  intro schedule middle action final before holds last bound
  have grown := (Refresh.step_log_prefix last).sublist.countP_le (p := isPut)
  exact (holds (by omega)).step (Refresh.traced_of_run before (by omega)) last

/-- Every DELETE of the run meets pools it can clean. -/
def EveryRemovalMeets (proxied : Bytes → Bool) (schedule : List RefreshAction) : Prop :=
  ∀ before state event, before ++ [.remove] <+: schedule →
    exec (Refresh.step proxied) Refresh.init before = some state →
    state.phase = .forgotten event → Removable proxied state.selector event

theorem Refresh.accounted_of_run {schedule : List RefreshAction} {state : Refresh}
    (run : exec (Refresh.step proxied) Refresh.init schedule = some state)
    (bound : state.log.countP isPut < 2 ^ 64) (meets : EveryRemovalMeets proxied schedule) :
    state.Accounted := by
  refine exec_induction (motive := fun schedule state => state.log.countP isPut < 2 ^ 64 →
    EveryRemovalMeets proxied schedule → state.Accounted)
    (fun _ _ => Refresh.accounted_init) ?_ run bound meets
  intro schedule middle action final before holds last bound meets
  have grown := (Refresh.step_log_prefix last).sublist.countP_le (p := isPut)
  have earlier : EveryRemovalMeets proxied schedule := fun first state event shorter =>
    meets first state event (shorter.trans (List.prefix_append _ _))
  refine (holds (by omega) earlier).step (Refresh.regular_of_run before (by omega)).pools
    (Refresh.traced_of_run before (by omega)) ?_ last
  rintro event rfl forgotten
  exact meets schedule middle event (List.prefix_refl _) before forgotten

/-- Along every run of fewer than 2^64 PUTs, whatever the order of events and checks:
deleted nodes are gone in each state reached exactly when each DELETE, at the moment it
is handled, addresses the list its identity's entries sit in and can be built. -/
theorem deleted_nodes_gone_iff_removals_meet {proxied : Bytes → Bool}
    {schedule : List RefreshAction} {final : Refresh}
    (run : exec (Refresh.step proxied) Refresh.init schedule = some final)
    (bound : final.log.countP isPut < 2 ^ 64) :
    (∀ before state, before <+: schedule →
      exec (Refresh.step proxied) Refresh.init before = some state → state.Gone) ↔
    EveryRemovalMeets proxied schedule := by
  have bounded : ∀ before state, before <+: schedule →
      exec (Refresh.step proxied) Refresh.init before = some state →
      state.log.countP isPut < 2 ^ 64 := by
    rintro before state ⟨rest, rfl⟩ reached
    obtain ⟨middle, same, onwards⟩ := exec_append_some run
    cases reached.symm.trans same
    have grown : state.log <+: final.log :=
      exec_invariant (motive := fun later => state.log <+: later.log) (List.prefix_refl _)
        (fun _ _ _ holds last => holds.trans (Refresh.step_log_prefix last)) onwards
    exact Nat.lt_of_le_of_lt (grown.sublist.countP_le (p := isPut)) bound
  constructor
  · intro gone before state event shorter reached forgotten
    have small := bounded before state ((List.prefix_append _ _).trans shorter) reached
    have regular := Refresh.regular_of_run reached small
    have current := (Refresh.traced_of_run reached small).phase
    rw [forgotten] at current
    obtain ⟨found, delete⟩ := current
    have nonempty := (List.getElem?_eq_some_iff.mp found).1
    have kind : event.changeType = .delete := by
      cases kind : event.changeType with
      | put => simp [isPut, kind] at delete
      | delete => rfl
    have last : state.step proxied .remove = some { state with
        selector := removeEventNode proxied event state.selector, phase := .idle } := by
      simp [Refresh.step, forgotten]
    refine (removeEventNode_gone_iff regular.pools event).mp ?_
    refine gone _ _ shorter (exec_extend reached last) (state.log.length - 1) event
      ⟨found, kind, fun _ => by simp⟩ ?_
    intro origin member after
    have inside := regular.published origin member
    omega
  · intro meets before state shorter reached
    refine (Refresh.accounted_of_run reached (bounded before state shorter reached) ?_).gone
    exact fun first state event earlier => meets first state event (earlier.trans shorter)

/-- The sample node that the runs below put, retype and delete. -/
def sampleEvent (nodeType : Int) (changeType : ChangeType) : TargetNode :=
  { stateType := 1, address := ascii "10.0.0.1", port := 8545, nodeType, weight := 100
    source := [], chainId := ascii "1", nodeKey := ascii "n1", changeType }

/-- A node put once, published by its check and deleted. -/
theorem deleted_nodes_gone_iff_removals_meet_once :
    ∃ published final,
      exec (Refresh.step fun _ => true) Refresh.init
        [.consume (sampleEvent 1 .put), .inspect, .complete 0] = some published ∧
      published.selector.Holds (nodeIdentity (sampleEvent 1 .delete)) ∧
      exec (Refresh.step fun _ => true) published [.consume (sampleEvent 1 .delete), .remove] =
        some final ∧
      ¬ final.selector.Holds (nodeIdentity (sampleEvent 1 .delete)) := by
  refine ⟨_, _, rfl, ⟨.state, _, List.mem_singleton.mpr rfl, rfl, by decide⟩, rfl, ?_⟩
  let start : List RefreshAction := [.consume (sampleEvent 1 .put), .inspect, .complete 0,
    .consume (sampleEvent 1 .delete)]
  have meets : EveryRemovalMeets (fun _ => true) (start ++ [.remove]) := by
    intro before state event shorter reached forgotten
    rcases List.prefix_concat_iff.mp shorter with last | inside
    · cases List.append_cancel_right last
      cases reached
      cases forgotten
      intro slot
      cases slot <;> decide +kernel
    · have early : RefreshAction.remove ∈ start := inside.subset (by simp)
      simp [start] at early
  refine (deleted_nodes_gone_iff_removals_meet rfl (by decide)).mpr meets _ _ List.prefix_rfl rfl 1
    (sampleEvent 1 .delete) ⟨rfl, rfl, fun _ same => by cases same⟩ ?_
  intro origin member after
  have early : origin < 1 := by
    revert origin
    decide
  omega

/-- Every DELETE carries the type and the source of the latest PUT of its identity. -/
def DeletesNameLatestPut (log : List TargetNode) : Prop :=
  ∀ position event, log[position]? = some event → event.changeType = .delete →
    ∀ put, ((log.take position).filter fun other =>
        isPut other && nodeIdentity other == nodeIdentity event).getLast? = some put →
      event.nodeType = put.nodeType ∧ event.source = put.source

/-- A node published as a state node, then as an archive node, then deleted: the DELETE
names the archive type, and the entry of the state list stays. -/
theorem retyped_node_survives_delete :
    ∃ final, exec (Refresh.step fun _ => true) Refresh.init
        [.consume (sampleEvent 1 .put), .inspect, .complete 0,
          .consume (sampleEvent 2 .put), .inspect, .complete 0,
          .consume (sampleEvent 2 .delete), .remove] = some final ∧
      DeletesNameLatestPut final.log ∧ ¬ final.Gone := by
  refine ⟨_, rfl, ?_, ?_⟩
  · intro position event found delete put latest
    match position, found with
    | 0, found =>
      cases found
      cases delete
    | 1, found =>
      cases found
      cases delete
    | 2, found =>
      cases found
      cases latest
      exact ⟨rfl, rfl⟩
  · intro gone
    refine gone 2 (sampleEvent 2 .delete) ⟨rfl, rfl, fun _ same => by cases same⟩ ?_ ?_
    · intro origin member after
      have early : origin < 2 := by
        revert origin
        decide
      omega
    · refine ⟨.state, _, List.mem_singleton.mpr rfl, rfl, ?_⟩
      decide

end NodexProxy.Lb
