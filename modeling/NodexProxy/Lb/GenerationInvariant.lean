import NodexProxy.Lb.Refresh

/-! What a generation stands for. Every PUT draws the next number of one sequence, so
below 2^64 PUTs a generation names exactly one position of the event log, and the
generation map holds the position of the latest event of each identity. -/

namespace NodexProxy.Lb

open NodexProxy.Foundation NodexProxy.Discovery

def isPut (event : TargetNode) : Bool := event.changeType == .put

/-- The PUTs among the first events of a log. -/
def putRank (log : List TargetNode) (position : Nat) : Nat := (log.take (position + 1)).countP isPut

/-- The event at `position` belongs to `id`, and no later event does. -/
def Latest (log : List TargetNode) (position : Nat) (id : NodeIdentity) : Prop :=
  (∃ event, log[position]? = some event ∧ nodeIdentity event = id) ∧
    ∀ later event, position < later → log[later]? = some event → nodeIdentity event ≠ id

variable {id : NodeIdentity}

theorem Latest.unique (first : Latest log position id) (second : Latest log other id) :
    position = other := by
  obtain ⟨⟨event₁, found₁, same₁⟩, last₁⟩ := first
  obtain ⟨⟨event₂, found₂, same₂⟩, last₂⟩ := second
  rcases Nat.lt_trichotomy position other with lower | same | upper
  · exact absurd same₂ (last₁ other event₂ lower found₂)
  · exact same
  · exact absurd same₁ (last₂ position event₁ upper found₁)

theorem Latest.lt_length (latest : Latest log position id) : position < log.length := by
  obtain ⟨⟨event, found, _⟩, _⟩ := latest
  exact (List.getElem?_eq_some_iff.mp found).1

theorem latest_last (log : List TargetNode) (event : TargetNode) :
    Latest (log ++ [event]) log.length (nodeIdentity event) := by
  refine ⟨⟨event, by simp, rfl⟩, ?_⟩
  intro later other beyond found
  have bound := (List.getElem?_eq_some_iff.mp found).1
  simp at bound
  omega

theorem latest_append_ne (event : TargetNode) (other : nodeIdentity event ≠ id) :
    Latest (log ++ [event]) position id ↔ Latest log position id := by
  have old : ∀ index, index ≠ log.length → (log ++ [event])[index]? = log[index]? := by
    intro index apart
    rcases Nat.lt_or_gt_of_ne apart with inside | outside
    · exact List.getElem?_append_left inside
    · rw [List.getElem?_eq_none (by simp; omega), List.getElem?_eq_none (by omega)]
  have newest : (log ++ [event])[log.length]? = some event := by simp
  constructor
  · rintro ⟨⟨held, found, same⟩, last⟩
    have apart : position ≠ log.length := by
      rintro rfl
      rw [newest] at found
      cases found
      exact other same
    refine ⟨⟨held, old position apart ▸ found, same⟩, ?_⟩
    intro later event' beyond found'
    refine last later event' beyond ?_
    rw [old later (Nat.ne_of_lt (List.getElem?_eq_some_iff.mp found').1)]
    exact found'
  · intro latest
    obtain ⟨⟨held, found, same⟩, last⟩ := latest
    refine ⟨⟨held, ?_, same⟩, ?_⟩
    · rw [old position (Nat.ne_of_lt (List.getElem?_eq_some_iff.mp found).1)]
      exact found
    · intro later event' beyond found'
      by_cases end' : later = log.length
      · subst later
        rw [newest] at found'
        cases found'
        exact other
      · exact last later event' beyond (old later end' ▸ found')

theorem putRank_append (event : TargetNode) (inside : position < log.length) :
    putRank (log ++ [event]) position = putRank log position := by
  unfold putRank
  rw [List.take_append_of_le_length (by omega)]

theorem putRank_last (log : List TargetNode) (put : isPut event = true) :
    putRank (log ++ [event]) log.length = log.countP isPut + 1 := by
  unfold putRank
  rw [List.take_of_length_le (by simp), List.countP_append]
  simp [put]

/-- A PUT counts itself, so ranks grow strictly from one PUT to the next. -/
theorem putRank_lt (found : log[other]? = some event) (put : isPut event = true)
    (before : position < other) : putRank log position < putRank log other := by
  obtain ⟨bound, same⟩ := List.getElem?_eq_some_iff.mp found
  have split : log.take (other + 1) = log.take other ++ [event] := by
    rw [List.take_add_one, found]
    rfl
  have lower : putRank log position ≤ (log.take other).countP isPut := by
    unfold putRank
    exact (List.take_sublist_take_left (by omega)).countP_le
  unfold putRank at lower ⊢
  rw [split, List.countP_append]
  simp [put]
  omega

theorem putRank_inj (found₁ : log[position]? = some event₁) (put₁ : isPut event₁ = true)
    (found₂ : log[other]? = some event₂) (put₂ : isPut event₂ = true)
    (same : putRank log position = putRank log other) : position = other := by
  rcases Nat.lt_trichotomy position other with lower | equal | upper
  · have strict := putRank_lt found₂ put₂ lower
    omega
  · exact equal
  · have strict := putRank_lt found₁ put₁ upper
    omega

theorem putRank_pos (found : log[position]? = some event) (put : isPut event = true) :
    0 < putRank log position := by
  apply List.countP_pos_iff.mpr
  refine ⟨event, ?_, put⟩
  apply List.mem_of_getElem? (i := position)
  rw [List.getElem?_take_of_lt (Nat.lt_succ_self _)]
  exact found

/-- While an event is being handled it is the last one of the log. -/
def Phase.Current (log : List TargetNode) : Phase → Prop
  | .idle => True
  | .bumped event gen =>
    log[log.length - 1]? = some event ∧ isPut event = true ∧
      gen.toNat = putRank log (log.length - 1)
  | .downgrading event => log[log.length - 1]? = some event ∧ isPut event = true
  | .forgotten event => log[log.length - 1]? = some event ∧ isPut event = false

/-- What a pending check captured is the log entry it came from. -/
def HealthCheck.Traced (log : List TargetNode) (check : HealthCheck) : Prop :=
  log[check.origin]? = some check.node ∧ isPut check.node = true ∧
    check.nodeId = nodeIdentity check.node ∧ check.gen.toNat = putRank log check.origin

/-- A stored generation is the rank of its identity's latest event, a PUT. -/
def NodeGenerations.Traced (log : List TargetNode) (generations : NodeGenerations) : Prop :=
  ∀ id gen, generations.gens.lookup id = some gen ↔
    ∃ position event, Latest log position id ∧ log[position]? = some event ∧
      isPut event = true ∧ gen.toNat = putRank log position

structure Refresh.Traced (state : Refresh) : Prop where
  seq : state.nodeGens.seq.toNat = state.log.countP isPut
  gens : state.nodeGens.Traced state.log
  checks : ∀ check ∈ state.checks, check.Traced state.log
  phase : state.phase.Current state.log

theorem HealthCheck.Traced.append {check : HealthCheck} (traced : check.Traced log)
    (event : TargetNode) : check.Traced (log ++ [event]) := by
  obtain ⟨found, put, identity, rank⟩ := traced
  have inside := (List.getElem?_eq_some_iff.mp found).1
  refine ⟨?_, put, identity, ?_⟩
  · rw [List.getElem?_append_left inside]
    exact found
  · rw [putRank_append event inside]
    exact rank

/-- Appending an event of another identity changes nothing an entry records. -/
theorem traced_entry_append (event : TargetNode) (other : nodeIdentity event ≠ id) (gen : UInt64) :
    (∃ position held, Latest (log ++ [event]) position id ∧ (log ++ [event])[position]? = some held ∧
        isPut held = true ∧ gen.toNat = putRank (log ++ [event]) position) ↔
      ∃ position held, Latest log position id ∧ log[position]? = some held ∧
        isPut held = true ∧ gen.toNat = putRank log position := by
  constructor
  · rintro ⟨position, held, latest, found, put, rank⟩
    have latest := (latest_append_ne event other).mp latest
    rw [List.getElem?_append_left latest.lt_length] at found
    rw [putRank_append event latest.lt_length] at rank
    exact ⟨position, held, latest, found, put, rank⟩
  · rintro ⟨position, held, latest, found, put, rank⟩
    refine ⟨position, held, (latest_append_ne event other).mpr latest, ?_, put, ?_⟩
    · rw [List.getElem?_append_left latest.lt_length]
      exact found
    · rw [putRank_append event latest.lt_length]
      exact rank

private theorem toNat_succ {number : UInt64} (bound : number.toNat + 1 < 2 ^ 64) :
    (number + 1).toNat = number.toNat + 1 := by
  rw [UInt64.toNat_add]
  simp only [UInt64.toNat_one]
  omega

theorem NodeGenerations.Traced.bump {generations : NodeGenerations}
    (traced : generations.Traced log) (seq : generations.seq.toNat = log.countP isPut)
    (put : isPut event = true) (bound : (log ++ [event]).countP isPut < 2 ^ 64) :
    (generations.bump (nodeIdentity event)).1.Traced (log ++ [event]) := by
  have counted : (log ++ [event]).countP isPut = log.countP isPut + 1 := by
    simp [List.countP_append, put]
  have drawn : (generations.seq + 1).toNat = log.countP isPut + 1 := by
    rw [toNat_succ (by omega), seq]
  intro id gen
  simp only [NodeGenerations.bump, Assoc.lookup_insert_eq]
  by_cases same : id = nodeIdentity event
  · subst id
    rw [if_pos rfl, Option.some.injEq]
    constructor
    · rintro rfl
      refine ⟨log.length, event, latest_last log event, by simp, put, ?_⟩
      rw [putRank_last log put]
      exact drawn
    · rintro ⟨position, held, latest, _, _, rank⟩
      rw [latest.unique (latest_last log event), putRank_last log put] at rank
      exact UInt64.toNat_inj.mp (drawn.trans rank.symm)
  · rw [if_neg same, traced_entry_append event (Ne.symm same)]
    exact traced id gen

theorem NodeGenerations.Traced.forget {generations : NodeGenerations}
    (traced : generations.Traced log) (delete : isPut event = false) :
    (generations.forget (nodeIdentity event)).Traced (log ++ [event]) := by
  intro id gen
  simp only [NodeGenerations.forget, Assoc.lookup_erase_eq]
  by_cases same : id = nodeIdentity event
  · subst id
    simp only [if_true]
    constructor
    · intro absent
      cases absent
    · rintro ⟨position, held, latest, found, put, _⟩
      rw [latest.unique (latest_last log event)] at found
      simp at found
      subst held
      simp [delete] at put
  · rw [if_neg same, traced_entry_append event (Ne.symm same)]
    exact traced id gen

theorem Refresh.Traced.consume {state : Refresh} (traced : state.Traced) (event : TargetNode)
    (bound : (state.consume event).log.countP isPut < 2 ^ 64) : (state.consume event).Traced := by
  have newest : (state.log ++ [event])[(state.log ++ [event]).length - 1]? = some event := by simp
  cases kind : event.changeType with
  | put =>
    have put : isPut event = true := by simp [isPut, kind]
    simp only [Refresh.consume, kind] at bound ⊢
    have counted : (state.log ++ [event]).countP isPut = state.log.countP isPut + 1 := by
      simp [List.countP_append, put]
    have drawn : (state.nodeGens.seq + 1).toNat = state.log.countP isPut + 1 := by
      rw [toNat_succ (by have := traced.seq; omega), traced.seq]
    refine ⟨drawn.trans counted.symm, traced.gens.bump traced.seq put bound,
      fun check member => (traced.checks check member).append event, newest, put, ?_⟩
    simp only [List.length_append, List.length_singleton, Nat.add_sub_cancel]
    rw [putRank_last _ put]
    exact drawn
  | delete =>
    have delete : isPut event = false := by simp [isPut, kind]
    simp only [Refresh.consume, kind] at bound ⊢
    refine ⟨?_, traced.gens.forget delete,
      fun check member => (traced.checks check member).append event, newest, delete⟩
    simpa [NodeGenerations.forget, List.countP_append, delete] using traced.seq

theorem Refresh.Traced.inspect {state : Refresh} (traced : state.Traced)
    (bumped : state.phase = .bumped event gen) : (state.inspect event gen).Traced := by
  have current := traced.phase
  rw [bumped] at current
  obtain ⟨found, put, rank⟩ := current
  unfold Refresh.inspect
  split
  · exact ⟨traced.seq, traced.gens, traced.checks, found, put⟩
  · refine ⟨traced.seq, traced.gens, ?_, trivial⟩
    intro check member
    rcases List.mem_append.mp member with old | fresh
    · exact traced.checks check old
    · rw [List.mem_singleton.mp fresh]
      exact ⟨found, put, rfl, rank⟩

theorem Refresh.Traced.step {state final : Refresh} {action : RefreshAction}
    (traced : state.Traced) (bound : final.log.countP isPut < 2 ^ 64)
    (last : state.step proxied action = some final) : final.Traced := by
  rcases Refresh.step_cases last with ⟨event, _, _, rfl⟩ | ⟨event, gen, _, bumped, rfl⟩ |
    ⟨_, _, _, rfl⟩ | ⟨_, _, _, rfl⟩ | ⟨_, _, rfl⟩ | ⟨_, _, _, _, _, _, rfl⟩
  · exact traced.consume event bound
  · exact traced.inspect bumped
  · exact ⟨traced.seq, traced.gens, traced.checks, trivial⟩
  · exact ⟨traced.seq, traced.gens, traced.checks, trivial⟩
  · exact ⟨traced.seq, traced.gens,
      fun check member => traced.checks check (List.mem_of_mem_eraseIdx member), traced.phase⟩
  · exact ⟨traced.seq, traced.gens,
      fun check member => traced.checks check (List.mem_of_mem_eraseIdx member), traced.phase⟩

theorem Refresh.traced_init : Refresh.init.Traced := by
  refine ⟨rfl, ?_, by simp [Refresh.init], trivial⟩
  intro id gen
  simp [Refresh.init, NodeGenerations.empty, Latest]

/-- Below 2^64 PUTs every reachable state keeps the link. -/
theorem Refresh.traced_of_run {schedule : List RefreshAction} {state : Refresh}
    (run : exec (Refresh.step proxied) Refresh.init schedule = some state)
    (bound : state.log.countP isPut < 2 ^ 64) : state.Traced := by
  refine exec_induction (motive := fun _ state => state.log.countP isPut < 2 ^ 64 → state.Traced)
    (fun _ => Refresh.traced_init) ?_ run bound
  intro _ middle action final _ holds last bound
  have grown := (Refresh.step_log_prefix last).sublist.countP_le (p := isPut)
  exact (holds (by omega)).step bound last

/-- The generation guard is the question whether the check's PUT is still the latest
event of its identity. -/
theorem Refresh.Traced.current_iff {state : Refresh} (traced : state.Traced) {check : HealthCheck}
    (member : check ∈ state.checks) :
    (state.nodeGens.gens.lookup check.nodeId).getD 0 = check.gen ↔
      Latest state.log check.origin check.nodeId := by
  obtain ⟨found, put, identity, rank⟩ := traced.checks check member
  constructor
  · intro current
    cases stored : state.nodeGens.gens.lookup check.nodeId with
    | none =>
      rw [stored] at current
      have positive := putRank_pos found put
      rw [← rank, ← current] at positive
      simp at positive
    | some gen =>
      rw [stored] at current
      obtain ⟨position, event, latest, held, heldPut, heldRank⟩ := (traced.gens _ _).mp stored
      have same : putRank state.log position = putRank state.log check.origin := by
        rw [← heldRank, ← rank]
        exact congrArg UInt64.toNat current
      exact putRank_inj held heldPut found put same ▸ latest
  · intro latest
    have stored := (traced.gens check.nodeId check.gen).mpr
      ⟨check.origin, check.node, latest, found, put, rank⟩
    simp [stored]

theorem Refresh.complete_selector (state : Refresh) (index : Nat) (check : HealthCheck)
    (target : Node) :
    (state.complete index check target).selector =
      if (state.nodeGens.gens.lookup check.nodeId).getD 0 = check.gen then
        state.selector.upsertNode check.node.chainId check.node.nodeType target
      else state.selector := by
  simp only [Refresh.complete, NodeGenerations.applyIfCurrent, ne_eq, ite_not]
  split <;> rfl

/-- In every run of fewer than 2^64 PUTs, a completed check belongs to one consumed
PUT and reaches the pools exactly when that PUT is the latest event of its identity:
any later PUT, downgrade or DELETE of the identity silences it, and events of other
identities never do. -/
theorem completed_check_publishes_iff_latest {proxied : Bytes → Bool}
    {schedule : List RefreshAction} {state final : Refresh} {index : Nat} {check : HealthCheck}
    (run : exec (Refresh.step proxied) Refresh.init schedule = some state)
    (bound : state.log.countP isPut < 2 ^ 64)
    (pending : state.checks[index]? = some check)
    (done : state.step proxied (.complete index) = some final) :
    (state.log[check.origin]? = some check.node ∧ check.node.changeType = .put ∧
      check.nodeId = nodeIdentity check.node) ∧
    (final.selector ≠ state.selector → Latest state.log check.origin check.nodeId) ∧
    (∀ later event, check.origin < later → state.log[later]? = some event →
      nodeIdentity event = check.nodeId → final.selector = state.selector) ∧
    ((∀ later event, check.origin < later → state.log[later]? = some event →
      nodeIdentity event ≠ check.nodeId) →
      ∃ target, eventNode proxied check.node = some target ∧
        final.selector =
          state.selector.upsertNode check.node.chainId check.node.nodeType target) := by
  have traced := Refresh.traced_of_run run bound
  have member := List.mem_of_getElem? pending
  obtain ⟨found, put, identity, rank⟩ := traced.checks check member
  have guard := traced.current_iff member
  simp only [Refresh.step, pending] at done
  obtain ⟨target, built, rfl⟩ := Option.map_eq_some_iff.mp done
  rw [Refresh.complete_selector]
  refine ⟨⟨found, by simpa [isPut] using put, identity⟩, ?_, ?_, ?_⟩
  · intro changed
    by_contra stale
    exact changed (if_neg (guard.not.mpr stale))
  · intro later event beyond held same
    exact if_neg fun current => (guard.mp current).2 later event beyond held same
  · intro newest
    exact ⟨target, built, if_pos (guard.mpr ⟨⟨check.node, found, identity.symm⟩, newest⟩)⟩

/-- A first PUT whose check passes before anything else happens. -/
theorem completed_check_publishes_first_put :
    let event : TargetNode :=
      { stateType := 1, address := ascii "10.0.0.1", port := 8545, nodeType := nodeTypeState
        weight := 100, source := [], chainId := ascii "1", nodeKey := ascii "n1", changeType := .put }
    ∃ state final check, exec (Refresh.step fun _ => true) Refresh.init
        [.consume event, .inspect] = some state ∧ state.checks[0]? = some check ∧
      state.step (fun _ => true) (.complete 0) = some final ∧
      ∃ target, final.selector = state.selector.upsertNode event.chainId event.nodeType target := by
  intro event
  have run : exec (Refresh.step fun _ => true) Refresh.init [.consume event, .inspect] =
      some ((Refresh.init.consume event).inspect event 1) := rfl
  have pending : ((Refresh.init.consume event).inspect event 1).checks[0]? =
      some ⟨nodeIdentity event, event, 1, 0⟩ := rfl
  obtain ⟨final, done⟩ : ∃ final, ((Refresh.init.consume event).inspect event 1).step
      (fun _ => true) (.complete 0) = some final := ⟨_, rfl⟩
  refine ⟨_, final, _, run, pending, done, ?_⟩
  obtain ⟨target, _, published⟩ :=
    (completed_check_publishes_iff_latest run (by decide) pending done).2.2.2 (by
      intro later other beyond held
      have bound := (List.getElem?_eq_some_iff.mp held).1
      rw [Refresh.inspect_log, Refresh.consume_log] at bound
      simp [Refresh.init] at bound beyond
      omega)
  exact ⟨target, published⟩

end NodexProxy.Lb
