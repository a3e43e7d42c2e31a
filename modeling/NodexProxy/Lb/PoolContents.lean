import NodexProxy.Lb.Pools

/-! What the pools show. An entry is what one consumed PUT describes, with all its fields from that
PUT, and it is never older than what a check has published in its place. -/

namespace NodexProxy.Lb

open NodexProxy.Foundation NodexProxy.Discovery

/-- Where a node stands: a list of a chain, and the key in it. -/
structure Place where
  slot : Slot
  chainId : Bytes
  nodeKey : Bytes
deriving DecidableEq, Repr

def eventPlace (event : TargetNode) : Place :=
  ⟨Slot.of event.source event.nodeType, event.chainId, event.nodeKey⟩

def Random.at (selector : Random) (place : Place) : List Node :=
  (selector.nodes place.slot place.chainId).filter fun node => node.key = place.nodeKey

/-- The list tells whether the node is native, so the place tells the identity. -/
theorem nodeIdentity_of_place {event other : TargetNode} (same : eventPlace event = eventPlace other) :
    nodeIdentity event = nodeIdentity other := by
  simp only [eventPlace, Place.mk.injEq] at same
  obtain ⟨slot, chain, key⟩ := same
  have native : event.source = sourceNative ↔ other.source = sourceNative := by
    rw [← Slot.of_eq_native event.source event.nodeType, slot, Slot.of_eq_native]
  simp only [nodeIdentity, chain, key, NodeIdentity.mk.injEq, true_and]
  exact Bool.eq_iff_iff.mpr (by simpa using native)

section Effects

variable {selector : Random} {proxied : Bytes → Bool} {event : TargetNode} {target : Node}

/-- Lists that agree on the other keys agree at each of them. -/
theorem filter_key_congr {first second : List Node}
    (others : first.filter (fun node => node.key ≠ key) = second.filter fun node => node.key ≠ key)
    (apart : other ≠ key) :
    first.filter (fun node => node.key = other) = second.filter fun node => node.key = other := by
  have narrowed (nodes : List Node) : nodes.filter (fun node => node.key = other) =
      (nodes.filter fun node => node.key ≠ key).filter fun node => node.key = other := by
    rw [List.filter_filter]
    refine List.filter_congr fun node _ => ?_
    by_cases here : node.key = other
    · simp [here, apart]
    · simp [here]
  rw [narrowed first, narrowed second, others]

/-- Publishing an event's node puts one entry in its place and leaves every other place. -/
theorem Random.WellFormed.at_upsert (wellFormed : selector.WellFormed)
    (built : eventNode proxied event = some target) :
    ∃ entry, entry.Publishes target ∧ ∀ place,
      (selector.upsertNode event.chainId event.nodeType target).at place =
        if place = eventPlace event then [entry] else selector.at place := by
  obtain ⟨base, new, rfl⟩ := Option.map_eq_some_iff.mp built
  have key := (Node.new_some new).1
  have slot : Slot.of (base.setState event.stateType).source event.nodeType =
      Slot.of event.source event.nodeType := by
    rw [Node.setState_source, Slot.of_new new]
  obtain ⟨⟨entry, own, publishes⟩, others, elsewhere⟩ :=
    wellFormed.effect (.upsert event.chainId event.nodeType (base.setState event.stateType))
  simp only [Random.apply, slot, Node.setState_key, key] at own others elsewhere
  refine ⟨entry, publishes, fun place => ?_⟩
  by_cases here : place = eventPlace event
  · subst place
    rw [if_pos rfl]
    exact own
  · rw [if_neg here]
    by_cases listed : place.slot = Slot.of event.source event.nodeType ∧
        place.chainId = event.chainId
    · have apart : place.nodeKey ≠ event.nodeKey := by
        rintro same
        exact here (by cases place; simp_all [eventPlace])
      unfold Random.at
      rw [listed.1, listed.2]
      exact filter_key_congr others apart
    · unfold Random.at
      rw [elsewhere _ _ listed]

/-- A removal empties the event's place or does nothing. -/
theorem Random.WellFormed.at_remove (wellFormed : selector.WellFormed) (event : TargetNode)
    (place : Place) :
    (removeEventNode proxied event selector).at place = selector.at place ∨
      place = eventPlace event ∧ (removeEventNode proxied event selector).at place = [] := by
  unfold removeEventNode
  split
  · exact .inl rfl
  · rename_i base new
    have key := (Node.new_some new).1
    have slot : Slot.of (base.setState event.stateType).source event.nodeType =
        Slot.of event.source event.nodeType := by
      rw [Node.setState_source, Slot.of_new new]
    obtain ⟨own, elsewhere⟩ :=
      wellFormed.effect (.remove event.chainId event.nodeType (base.setState event.stateType))
    simp only [Random.apply, slot, Node.setState_key, key] at own elsewhere
    by_cases listed : place.slot = Slot.of event.source event.nodeType ∧
        place.chainId = event.chainId
    · unfold Random.at
      rw [listed.1, listed.2, own]
      by_cases same : place.nodeKey = event.nodeKey
      · refine .inr ⟨by cases place; simp_all [eventPlace], ?_⟩
        rw [List.filter_filter, List.filter_eq_nil_iff]
        simp [same]
      · refine .inl (filter_key_congr ?_ same)
        rw [List.filter_filter]
        simp
    · unfold Random.at
      exact .inl (by rw [elsewhere _ _ listed])

end Effects

/-- The entry shows the PUT at this position of the log. -/
def Shown (proxied : Bytes → Bool) (log : List TargetNode) (place : Place) (entry : Node)
    (position : Nat) : Prop :=
  ∃ event node, log[position]? = some event ∧ event.changeType = .put ∧ eventPlace event = place ∧
    eventNode proxied event = some node ∧ entry.Publishes node

/-- Nothing published in the place is newer than the position. -/
def Freshest (log : List TargetNode) (published : List Nat) (place : Place) (position : Nat) :
    Prop :=
  ∀ origin ∈ published, ∀ put, log[origin]? = some put → eventPlace put = place → origin ≤ position

structure Refresh.Shows (proxied : Bytes → Bool) (state : Refresh) : Prop where
  entries : ∀ place, ∀ entry ∈ state.selector.at place, ∃ position,
    Shown proxied state.log place entry position ∧
      Freshest state.log state.published place position
  puts : ∀ origin ∈ state.published, ∀ put, state.log[origin]? = some put → put.changeType = .put
  present : ∀ origin ∈ state.published, ∀ put, state.log[origin]? = some put →
    Latest state.log origin (nodeIdentity put) → state.selector.at (eventPlace put) ≠ []

/-- A place has room for one entry. -/
theorem Random.WellFormed.at_alone {selector : Random} (wellFormed : selector.WellFormed)
    {place : Place} (listed : selector.at place = entry :: rest) : rest = [] := by
  have distinct : ((selector.at place).map Node.key).Nodup :=
    (wellFormed.distinct place.slot place.chainId).sublist (List.filter_sublist.map Node.key)
  have keyed : ∀ node ∈ selector.at place, node.key = place.nodeKey := fun node member => by
    simpa using (List.mem_filter.mp member).2
  rw [listed] at distinct keyed
  cases rest with
  | nil => rfl
  | cons other rest =>
    have first := keyed entry (by simp)
    have second := keyed other (by simp)
    simp [first, second] at distinct

section Steps

variable {proxied : Bytes → Bool} {state : Refresh} {event : TargetNode}

/-- The new log says the same about positions of the old one. -/
theorem getElem?_concat_of_some {log : List TargetNode} {position : Nat} (found : log[position]? = some held)
    (event : TargetNode) : (log ++ [event])[position]? = some held := by
  rw [List.getElem?_append_left (List.getElem?_eq_some_iff.mp found).1]
  exact found

theorem Refresh.Shows.consume (shows : state.Shows proxied) (regular : state.Regular)
    (event : TargetNode) : (state.consume event).Shows proxied := by
  have older {origin : Nat} {put : TargetNode} (member : origin ∈ state.published)
      (found : (state.log ++ [event])[origin]? = some put) : state.log[origin]? = some put := by
    rwa [List.getElem?_append_left (regular.published origin member)] at found
  refine ⟨?_, ?_, ?_⟩ <;>
    simp only [Refresh.consume_selector, Refresh.consume_log, Refresh.consume_published]
  · intro place entry member
    obtain ⟨position, ⟨put, node, found, shown⟩, freshest⟩ := shows.entries place entry member
    exact ⟨position, ⟨put, node, getElem?_concat_of_some found event, shown⟩,
      fun origin listed put found => freshest origin listed put (older listed found)⟩
  · exact fun origin listed put found => shows.puts origin listed put (older listed found)
  · intro origin listed put found latest
    by_cases same : nodeIdentity event = nodeIdentity put
    · -- the new event is the latest of its identity
      have last := latest.unique (same ▸ latest_last state.log event)
      exact absurd last (Nat.ne_of_lt (regular.published origin listed))
    · exact shows.present origin listed put (older listed found)
        ((latest_append_ne event same).mp latest)

/-- An entry published for an event at the end of its identity's history. -/
theorem Refresh.Shows.publish {selector : Random} (published : List Nat)
    (shows : state.Shows proxied) (regular : state.Regular)
    (found : state.log[position]? = some event) (put : event.changeType = .put)
    (latest : Latest state.log position (nodeIdentity event))
    (built : eventNode proxied event = some target)
    (upserted : selector = state.selector.upsertNode event.chainId event.nodeType target)
    (counted : ∀ origin ∈ published, origin ∈ state.published ∨ origin = position) :
    (∀ place, ∀ entry ∈ selector.at place, ∃ position,
      Shown proxied state.log place entry position ∧ Freshest state.log published place position) ∧
    (∀ origin ∈ published, ∀ put, state.log[origin]? = some put → put.changeType = .put) ∧
    ∀ origin ∈ published, ∀ put, state.log[origin]? = some put →
      Latest state.log origin (nodeIdentity put) → selector.at (eventPlace put) ≠ [] := by
  subst selector
  obtain ⟨entry, publishes, written⟩ := regular.pools.at_upsert built
  have bounded {origin : Nat} {other : TargetNode} (held : state.log[origin]? = some other)
      (same : nodeIdentity other = nodeIdentity event) : origin ≤ position := by
    by_contra beyond
    exact latest.2 origin other (by omega) held same
  refine ⟨fun place shown member => ?_, fun origin listed other held => ?_,
    fun origin listed other held newest => ?_⟩
  · rw [written] at member
    split at member
    · rename_i here
      subst place
      cases List.mem_singleton.mp member
      refine ⟨position, ⟨event, target, found, put, rfl, built, publishes⟩, ?_⟩
      exact fun origin _ other held same => bounded held (nodeIdentity_of_place same)
    · rename_i elsewhere
      obtain ⟨older, shownOld, freshest⟩ := shows.entries place shown member
      refine ⟨older, shownOld, fun origin listed other held same => ?_⟩
      rcases counted origin listed with old | rfl
      · exact freshest origin old other held same
      · rw [found] at held
        cases held
        exact absurd same.symm elsewhere
  · rcases counted origin listed with old | rfl
    · exact shows.puts origin old other held
    · rw [found] at held
      cases held
      exact put
  · rw [written]
    split
    · exact List.cons_ne_nil _ _
    · rename_i elsewhere
      rcases counted origin listed with old | rfl
      · exact shows.present origin old other held newest
      · rw [found] at held
        cases held
        exact absurd rfl elsewhere

theorem Refresh.Shows.downgrade (shows : state.Shows proxied) (regular : state.Regular)
    (traced : state.Traced) (downgrading : state.phase = .downgrading event) :
    Refresh.Shows proxied { state with
      selector := applyNodeState proxied event state.selector, phase := .idle } := by
  have current := traced.phase
  rw [downgrading] at current
  obtain ⟨found, put⟩ := current
  have put : event.changeType = .put := by simpa [isPut] using put
  have latest : Latest state.log (state.log.length - 1) (nodeIdentity event) := by
    refine ⟨⟨event, found, rfl⟩, fun later other beyond held => ?_⟩
    have bound := (List.getElem?_eq_some_iff.mp held).1
    omega
  cases built : eventNode proxied event with
  | none =>
    have same : applyNodeState proxied event state.selector = state.selector := by
      simp [applyNodeState, built]
    exact ⟨by rw [same]; exact shows.entries, shows.puts, by rw [same]; exact shows.present⟩
  | some target =>
    obtain ⟨entries, puts, present⟩ := shows.publish state.published regular found put latest built
      (show applyNodeState proxied event state.selector = _ by simp [applyNodeState, built])
      fun origin listed => .inl listed
    exact ⟨entries, puts, present⟩

theorem Refresh.Shows.remove (shows : state.Shows proxied) (regular : state.Regular)
    (traced : state.Traced) (forgotten : state.phase = .forgotten event) :
    Refresh.Shows proxied { state with
      selector := removeEventNode proxied event state.selector, phase := .idle } := by
  have current := traced.phase
  rw [forgotten] at current
  obtain ⟨found, notPut⟩ := current
  refine ⟨fun place entry member => ?_, shows.puts, fun origin listed put held newest => ?_⟩
  · rcases regular.pools.at_remove event place with same | ⟨-, empty⟩
    · exact shows.entries place entry (same ▸ member)
    · rw [show (removeEventNode proxied event state.selector).at place = [] from empty] at member
      cases member
  · rcases regular.pools.at_remove event (eventPlace put) with same | ⟨here, -⟩
    · rw [same]
      exact shows.present origin listed put held newest
    · -- the DELETE is a later event of the same identity
      have inside := regular.published origin listed
      have kind := shows.puts origin listed put held
      have apart : origin ≠ state.log.length - 1 := by
        rintro rfl
        rw [found] at held
        cases held
        simp [isPut, kind] at notPut
      exact absurd (nodeIdentity_of_place here).symm
        (newest.2 (state.log.length - 1) event (by omega) found)

theorem Refresh.Shows.complete (shows : state.Shows proxied) (regular : state.Regular)
    (traced : state.Traced) (pending : state.checks[index]? = some check)
    (built : eventNode proxied check.node = some target) :
    (state.complete index check target).Shows proxied := by
  have member := List.mem_of_getElem? pending
  obtain ⟨found, put, identity, -⟩ := traced.checks check member
  have put : check.node.changeType = .put := by simpa [isPut] using put
  by_cases current : (state.nodeGens.gens.lookup check.nodeId).getD 0 = check.gen
  · have latest := (traced.current_iff member).mp current
    rw [identity] at latest
    obtain ⟨entries, puts, present⟩ :=
      shows.publish (state.complete index check target).published regular found put latest built
        (show (state.complete index check target).selector = _ by
          rw [Refresh.complete_selector, if_pos current])
        fun origin listed => by
          simpa [Refresh.complete, NodeGenerations.applyIfCurrent, current] using listed
    exact ⟨entries, puts, present⟩
  · have same : (state.complete index check target).selector = state.selector := by
      rw [Refresh.complete_selector, if_neg current]
    have published : (state.complete index check target).published = state.published := by
      simp [Refresh.complete, NodeGenerations.applyIfCurrent, current]
    refine ⟨?_, ?_, ?_⟩
    · rw [same, published]
      exact shows.entries
    · rw [published]
      exact shows.puts
    · rw [same, published]
      exact shows.present

theorem Refresh.Shows.step {final : Refresh} {action : RefreshAction} (shows : state.Shows proxied)
    (regular : state.Regular) (traced : state.Traced)
    (last : state.step proxied action = some final) : final.Shows proxied := by
  rcases Refresh.step_cases last with ⟨event, _, _, rfl⟩ | ⟨event, gen, _, _, rfl⟩ |
    ⟨event, _, downgrading, rfl⟩ | ⟨event, _, forgotten, rfl⟩ | ⟨_, _, rfl⟩ |
    ⟨_, _, _, _, pending, built, rfl⟩
  · exact shows.consume regular event
  · refine ⟨?_, ?_, ?_⟩ <;>
      simp only [Refresh.inspect_selector, Refresh.inspect_log, Refresh.inspect_published]
    · exact shows.entries
    · exact shows.puts
    · exact shows.present
  · exact shows.downgrade regular traced downgrading
  · exact shows.remove regular traced forgotten
  · exact ⟨shows.entries, shows.puts, shows.present⟩
  · exact shows.complete regular traced pending built

theorem Refresh.shows_init : Refresh.init.Shows proxied := by
  refine ⟨fun place entry member => ?_, nofun, nofun⟩
  have inside := (List.mem_filter.mp member).1
  cases slot : place.slot <;>
    simp [Refresh.init, Random.empty, Random.nodes, Random.lists, slot] at inside

theorem Refresh.shows_of_run {schedule : List RefreshAction}
    (run : exec (Refresh.step proxied) Refresh.init schedule = some state)
    (bound : state.log.countP isPut < 2 ^ 64) : state.Shows proxied := by
  refine exec_induction (motive := fun _ state => state.log.countP isPut < 2 ^ 64 →
    state.Shows proxied) (fun _ => Refresh.shows_init) ?_ run bound
  intro schedule middle action final before holds last bound
  have grown := (Refresh.step_log_prefix last).sublist.countP_le (p := isPut)
  exact (holds (by omega)).step (Refresh.regular_of_run before (by omega))
    (Refresh.traced_of_run before (by omega)) last

/-- Where the latest event of a node is a PUT whose check has published, the pools show it. -/
theorem Refresh.at_of_latest {schedule : List RefreshAction}
    (run : exec (Refresh.step proxied) Refresh.init schedule = some state)
    (bound : state.log.countP isPut < 2 ^ 64) (published : position ∈ state.published)
    (found : state.log[position]? = some event)
    (latest : Latest state.log position (nodeIdentity event)) :
    ∃ entry node, state.selector.at (eventPlace event) = [entry] ∧
      eventNode proxied event = some node ∧ entry.Publishes node := by
  have shows := Refresh.shows_of_run run bound
  obtain ⟨entry, rest, listed⟩ :=
    List.exists_cons_of_ne_nil (shows.present position published event found latest)
  obtain rfl := (Refresh.regular_of_run run bound).pools.at_alone listed
  obtain ⟨other, ⟨put, node, held, kind, here, built, publishes⟩, freshest⟩ :=
    shows.entries (eventPlace event) entry (by rw [listed]; exact List.mem_singleton_self _)
  have early : position ≤ other := freshest position published event found rfl
  have late : other ≤ position := by
    by_contra beyond
    exact latest.2 other put (by omega) held (nodeIdentity_of_place here)
  obtain rfl : other = position := by omega
  rw [found] at held
  cases held
  exact ⟨entry, node, listed, built, publishes⟩

/-- In every run of fewer than 2^64 PUTs, however events, downgrades, removals and checks
interleave: an entry of the pools has all its fields from one PUT of its node, which is not older
than any PUT published in its place; and where the latest event of a node is a PUT whose check has
published, its place holds one entry, which shows that PUT. -/
theorem pools_show_one_put (proxied : Bytes → Bool) (schedule : List RefreshAction)
    (state : Refresh) (run : exec (Refresh.step proxied) Refresh.init schedule = some state)
    (bound : state.log.countP isPut < 2 ^ 64) :
    (∀ place, ∀ entry ∈ state.selector.at place, ∃ position,
      Shown proxied state.log place entry position ∧
        Freshest state.log state.published place position) ∧
    ∀ position ∈ state.published, ∀ event, state.log[position]? = some event →
      Latest state.log position (nodeIdentity event) →
      ∃ entry node, state.selector.at (eventPlace event) = [entry] ∧
        eventNode proxied event = some node ∧ entry.Publishes node :=
  ⟨(Refresh.shows_of_run run bound).entries, fun _ published _ found latest =>
    Refresh.at_of_latest run bound published found latest⟩

/-- A node, and the same node moved to another address. -/
def movedEvent (address : String) : TargetNode :=
  { stateType := 1, address := ascii address, port := 8545, nodeType := nodeTypeState, weight := 100
    source := [], chainId := ascii "1", nodeKey := ascii "n1", changeType := .put }

/-- The check of the first address passes after that of the second one did. -/
def movedSchedule : List RefreshAction :=
  [.consume (movedEvent "10.0.0.1"), .inspect, .consume (movedEvent "10.0.0.2"), .inspect,
    .complete 1, .complete 0]

theorem pools_show_one_put_moved :
    ∃ state, exec (Refresh.step fun _ => true) Refresh.init movedSchedule = some state ∧
      ∃ entry, state.selector.at (eventPlace (movedEvent "10.0.0.2")) = [entry] ∧
        entry.addr = ascii "10.0.0.2:8545" := by
  refine ⟨_, rfl, ?_⟩
  obtain ⟨entry, node, listed, built, publishes⟩ :=
    (pools_show_one_put (fun _ => true) movedSchedule _ rfl (by decide +kernel)).2 1
      (by decide +kernel) (movedEvent "10.0.0.2") rfl (latest_last [movedEvent "10.0.0.1"] _)
  refine ⟨entry, listed, publishes.2.1.trans ?_⟩
  have address := congrArg (Option.map Node.addr) built
  exact (Option.some.inj address).symm

end Steps

end NodexProxy.Lb
