import NodexProxy.Discovery.NodeSources

/-! What discovery sends. Every step of the watch loop is a sequence of dispatches, so what is sent
comes from keys that were written, and without a resync it is the snapshot and then the history,
each write once and in order. -/

namespace NodexProxy.Discovery

open NodexProxy.Foundation

/-- A part of the load balancer's state that events of one etcd key decide. -/
inductive Cell where
  | height (chainId : Bytes)
  | gateway (chainId : Bytes)
  | mirror (chainId addrKey : Bytes)
  | version (chainId : Bytes)
deriving DecidableEq, Repr

/-- The router trims chain ids, and ignores a blank one. -/
def versionCell (chainId : Bytes) : Option Cell :=
  if trimSpace chainId = [] then none else some (.version (trimSpace chainId))

/-- Node events are left out: whether they count depends on the health check. -/
def Event.cell : Event → Option Cell
  | .node _ => none
  | .height block => some (.height block.chainId)
  | .gateway config => some (.gateway config.chainId)
  | .mirror target => some (.mirror target.chainId target.addrKey)
  | .version chain => versionCell chain.chainId

def keyCell (key : Bytes) : Option Cell :=
  match parseKey key with
  | (.height, chainId, _) => some (.height chainId)
  | (.gateway, chainId, _) => some (.gateway chainId)
  | (.mirror, chainId, sub) => some (.mirror chainId sub)
  | (.version, chainId, _) => versionCell chainId
  | _ => none

/-- The channel that the events of a cell come through. -/
def Cell.channel : Cell → Channel
  | .height _ => .height
  | .gateway _ => .gateway
  | .mirror _ _ => .mirror
  | .version _ => .version

theorem Event.channel_of_cell {event : Event} {cell : Cell} (about : event.cell = some cell) :
    event.channel = cell.channel := by
  cases event with
  | node node => cases about
  | version chain =>
    obtain ⟨-, same⟩ := Option.ite_none_left_eq_some.mp about
    cases same
    rfl
  | _ =>
    cases about
    rfl

/-- Some revision writes the key. -/
def History.Writes (history : History) (key : Bytes) : Prop :=
  ∃ revision, ∃ change ∈ history revision, change.key = key

/-- The event is the one the key gives for a value that was put or deleted. -/
def Dispatch.Made (decoder : Decoder) (dispatch : Dispatch) : Prop :=
  (∃ value, dispatch.value = some value ∧
    putEvent decoder dispatch.key value = some dispatch.event) ∨
  dispatch.value = none ∧ ∃ prevValue,
    deleteEvent decoder dispatch.key prevValue = some dispatch.event

section Made

variable {decoder : Decoder} {key value : Bytes} {event : Event}

theorem cell_of_putEvent (found : putEvent decoder key value = some event) :
    event.cell = keyCell key := by
  unfold putEvent at found
  unfold keyCell
  rcases parsed : parseKey key with ⟨kind, chainId, sub⟩
  rw [parsed] at found
  cases kind
  all_goals
    dsimp only at found ⊢
    first
    | cases found
      done
    | split at found
      · cases found
      · cases found
        rfl
    | cases found
      rfl

theorem cell_of_deleteEvent (found : deleteEvent decoder key prevValue = some event) :
    event.cell = keyCell key := by
  unfold deleteEvent at found
  unfold keyCell
  rcases parsed : parseKey key with ⟨kind, chainId, sub⟩
  rw [parsed] at found
  cases kind <;> cases found <;> rfl

theorem Dispatch.Made.cell {dispatch : Dispatch} (made : dispatch.Made decoder) :
    dispatch.event.cell = keyCell dispatch.key := by
  rcases made with ⟨value, -, found⟩ | ⟨-, prevValue, found⟩
  · exact cell_of_putEvent found
  · exact cell_of_deleteEvent found

/-- Heights are the only events that no DELETE can have. -/
theorem deleteEvent_isSome_iff (decoder : Decoder) (key : Bytes) (prevValue : Option Bytes) :
    (deleteEvent decoder key prevValue).isSome = (parseKey key).1.tracked := by
  unfold deleteEvent
  rcases parseKey key with ⟨kind, chainId, sub⟩
  cases kind <;> rfl

end Made

/-! Steps of the watch loop as sequences of dispatches. -/

section Steps

variable {decoder : Decoder} {history : History} {keyPrefix : Bytes}

theorem Discover.load_eq_dispatch (discover : Discover) (revision : Nat)
    (kvs : List (Bytes × Bytes)) :
    discover.load decoder revision kvs =
      { (kvs.map fun kv => WatchEvent.put kv.1 kv.2).foldl (Discover.dispatch decoder) discover with
        watchRevision := revision } := by
  rw [List.foldl_map]
  rfl

theorem Discover.dropGone_eq_dispatch (discover : Discover) (known kvs : List (Bytes × Bytes)) :
    discover.dropGone decoder known kvs =
      ((known.filter fun entry => entry.1 ∉ kvs.map Prod.fst).map fun entry =>
        WatchEvent.delete entry.1 (some entry.2)).foldl (Discover.dispatch decoder) discover := by
  rw [List.foldl_map, List.foldl_filter]
  simp only [Discover.dropGone, decide_not, Bool.not_eq_true', decide_eq_false_iff_not, ite_not]
  rfl

/-- Which puts the loop leaves out depends on what it knows when it comes to them. -/
theorem Discover.putChanged_eq_dispatch (discover : Discover) (kvs : List (Bytes × Bytes)) :
    ∃ events : List WatchEvent,
      discover.putChanged decoder kvs = events.foldl (Discover.dispatch decoder) discover ∧
      ∀ event ∈ events, ∃ kv ∈ kvs, event = .put kv.1 kv.2 := by
  induction kvs generalizing discover with
  | nil => exact ⟨[], rfl, by simp⟩
  | cons kv kvs inductionHypothesis =>
    by_cases unchanged : discover.knownKeys.lookup kv.1 = some kv.2
    · obtain ⟨events, same, puts⟩ := inductionHypothesis discover
      refine ⟨events, ?_, fun event member => ?_⟩
      · rw [← same, Discover.putChanged, List.foldl_cons, if_pos unchanged]
        rfl
      · obtain ⟨other, listed, shape⟩ := puts event member
        exact ⟨other, List.mem_cons_of_mem _ listed, shape⟩
    · obtain ⟨events, same, puts⟩ := inductionHypothesis (discover.dispatchPut decoder kv.1 kv.2)
      refine ⟨.put kv.1 kv.2 :: events, ?_, fun event member => ?_⟩
      · rw [List.foldl_cons, Discover.dispatch, ← same, Discover.putChanged, List.foldl_cons,
          if_neg unchanged]
        rfl
      · rcases List.mem_cons.mp member with rfl | later
        · exact ⟨kv, by simp, rfl⟩
        · obtain ⟨other, listed, shape⟩ := puts event later
          exact ⟨other, List.mem_cons_of_mem _ listed, shape⟩

/-- A key in the store was written. -/
theorem History.Writes.of_changes {changes : List Change} {store : Assoc Bytes Bytes}
    (found : (changes.foldl Change.apply store).lookup key = some value) :
    store.lookup key = some value ∨ ∃ change ∈ changes, change.key = key := by
  induction changes using List.reverseRecOn with
  | nil => exact .inl found
  | append_singleton changes change inductionHypothesis =>
    rw [List.foldl_append, List.foldl_cons, List.foldl_nil, Change.lookup_apply] at found
    split_ifs at found with same
    · exact .inr ⟨change, by simp, same.symm⟩
    · rcases inductionHypothesis found with before | ⟨earlier, member, own⟩
      · exact .inl before
      · exact .inr ⟨earlier, List.mem_append_left _ member, own⟩

theorem History.Writes.of_between {change : Change}
    (member : change ∈ history.between low high) : history.Writes change.key := by
  obtain ⟨revision, -, written⟩ := List.mem_flatMap.mp member
  exact ⟨revision, change, written, rfl⟩

theorem History.Writes.of_storeAt
    (found : (history.storeAt revision).lookup key = some value) : history.Writes key := by
  rcases History.Writes.of_changes found with nothing | ⟨change, member, rfl⟩
  · simp at nothing
  · exact .of_between member

/-- Snapshots list keys of the prefix that were written. -/
theorem History.written_of_mem_get {kv : Bytes × Bytes} (listed : kv ∈ history.get keyPrefix revision) :
    keyPrefix <+: kv.1 ∧ history.Writes kv.1 := by
  have watched : keyPrefix <+: kv.1 := by simpa using (List.mem_filter.mp listed).2
  exact ⟨watched, .of_storeAt ((history.mem_get revision watched).mp listed)⟩

/-- One step is a sequence of dispatches, for keys of the prefix that were written or for keys
already known. -/
theorem WatchLoop.step_dispatches {loop next : WatchLoop}
    (stepped : loop.step decoder history keyPrefix action = some next) :
    ∃ (events : List WatchEvent) (revision : Nat),
      next.discover = { events.foldl (Discover.dispatch decoder) loop.discover with
        watchRevision := revision } ∧
      ∀ event ∈ events, keyPrefix <+: event.change.key ∧ history.Writes event.change.key ∨
        event.change.key ∈ loop.discover.knownKeys := by
  rcases WatchLoop.step_cases stepped with ⟨revision, kvs, -, snapshot, rfl⟩ |
    ⟨cursor, revision, events, -, -, delivered, rfl⟩ |
    ⟨revision, known, kvs, order, snapshot, rfl⟩ | rfl | ⟨same, -, -⟩
  · refine ⟨_, revision, loop.discover.load_eq_dispatch revision kvs, ?_⟩
    intro event member
    obtain ⟨kv, listed, rfl⟩ := List.mem_map.mp member
    exact .inl (History.written_of_mem_get (snapshot.mem_iff.mp listed))
  · refine ⟨events, revision, rfl, fun event member => .inl ?_⟩
    have change := List.mem_map_of_mem (f := WatchEvent.change) member
    rw [delivered] at change
    obtain ⟨written, watched⟩ := List.mem_filter.mp change
    exact ⟨by simpa using watched, .of_between written⟩
  · obtain ⟨puts, same, shapes⟩ := @Discover.putChanged_eq_dispatch decoder
      (loop.discover.dropGone decoder known kvs) kvs
    refine ⟨((known.filter fun entry => entry.1 ∉ kvs.map Prod.fst).map fun entry =>
      WatchEvent.delete entry.1 (some entry.2)) ++ puts, revision, ?_, ?_⟩
    · rw [List.foldl_append, ← Discover.dropGone_eq_dispatch, ← same]
      rfl
    · intro event member
      rcases List.mem_append.mp member with gone | put
      · obtain ⟨entry, listed, rfl⟩ := List.mem_map.mp gone
        have member := order.mem_iff.mp (List.mem_filter.mp listed).1
        obtain ⟨held, inside, rfl⟩ := List.mem_map.mp member
        exact .inr (AList.mem_keys.mpr (List.mem_map_of_mem inside))
      · obtain ⟨kv, listed, rfl⟩ := shapes event put
        exact .inl (History.written_of_mem_get (snapshot.mem_iff.mp listed))
  · exact ⟨[], loop.discover.watchRevision, rfl, by simp⟩
  · exact ⟨[], loop.discover.watchRevision, same, by simp⟩

end Steps

/-! What the dispatches put on the channels. -/

section Messages

variable {decoder : Decoder} {discover : Discover}

/-- What is sent for a delivered write, if anything is. -/
def Discover.message (decoder : Decoder) (discover : Discover) : WatchEvent → Option Dispatch
  | .put key value => (putEvent decoder key value).map fun event => ⟨key, some value, event⟩
  | .delete key prevKv =>
    (deleteEvent decoder key (prevKv <|> discover.knownKeys.lookup key)).map fun event =>
      ⟨key, none, event⟩

theorem Discover.dispatched_dispatch (event : WatchEvent) :
    (discover.dispatch decoder event).dispatched =
      discover.dispatched ++ (discover.message decoder event).toList := by
  cases event with
  | put key value =>
    simp only [Discover.dispatch, Discover.dispatchPut, Discover.message]
    cases putEvent decoder key value with
    | none => simp
    | some event => cases event <;> simp [Discover.send]
  | delete key prevKv =>
    simp only [Discover.dispatch, Discover.dispatchDelete, Discover.message]
    cases deleteEvent decoder key (prevKv <|> discover.knownKeys.lookup key) with
    | none => simp
    | some event => simp [Discover.send]

theorem Discover.message_made {event : WatchEvent} {dispatch : Dispatch}
    (sent : discover.message decoder event = some dispatch) :
    dispatch.key = event.change.key ∧ dispatch.Made decoder := by
  cases event with
  | put key value =>
    obtain ⟨event, found, rfl⟩ := Option.map_eq_some_iff.mp sent
    exact ⟨rfl, .inl ⟨value, rfl, found⟩⟩
  | delete key prevKv =>
    obtain ⟨event, found, rfl⟩ := Option.map_eq_some_iff.mp sent
    exact ⟨rfl, .inr ⟨rfl, _, found⟩⟩

/-- Every dispatch and every known key has an origin. -/
structure Discover.Sourced (decoder : Decoder) (origin : Bytes → Prop) (discover : Discover) :
    Prop where
  sent : ∀ dispatch ∈ discover.dispatched, origin dispatch.key ∧ dispatch.Made decoder
  known : ∀ key ∈ discover.knownKeys, origin key

theorem Discover.Sourced.dispatch (sourced : discover.Sourced decoder origin) (event : WatchEvent)
    (listed : origin event.change.key) : (discover.dispatch decoder event).Sourced decoder origin := by
  constructor
  · intro dispatch member
    rw [Discover.dispatched_dispatch] at member
    rcases List.mem_append.mp member with old | new
    · exact sourced.sent dispatch old
    · obtain ⟨key, made⟩ := Discover.message_made (Option.mem_toList.mp new)
      exact ⟨key ▸ listed, made⟩
  · intro key known
    obtain ⟨value, found⟩ := Option.isSome_iff_exists.mp (AList.lookup_isSome.mpr known)
    have before (old : discover.knownKeys.lookup key = some value) : origin key :=
      sourced.known key (AList.lookup_isSome.mp (by rw [old]; rfl))
    cases event with
    | put other stored =>
      rcases Discover.known_dispatchPut found with old | ⟨rfl, -⟩
      · exact before old
      · exact listed
    | delete other prevKv => exact before (Discover.known_dispatchDelete found)

theorem Discover.Sourced.foldl (events : List WatchEvent)
    (sourced : discover.Sourced decoder origin)
    (listed : ∀ event ∈ events, origin event.change.key) :
    (events.foldl (Discover.dispatch decoder) discover).Sourced decoder origin := by
  induction events generalizing discover with
  | nil => exact sourced
  | cons event events inductionHypothesis =>
    rw [List.forall_mem_cons] at listed
    exact inductionHypothesis (sourced.dispatch event listed.1) listed.2

/-- In every run, what is sent is made from keys of the prefix that etcd has seen written. -/
theorem WatchLoop.sourced_of_run {history : History} {keyPrefix : Bytes}
    {schedule : List WatchAction} {loop : WatchLoop}
    (run : exec (WatchLoop.step decoder history keyPrefix) .new schedule = some loop) :
    loop.discover.Sourced decoder fun key => keyPrefix <+: key ∧ history.Writes key := by
  refine exec_invariant (motive := fun loop => loop.discover.Sourced decoder fun key =>
    keyPrefix <+: key ∧ history.Writes key) ⟨nofun, nofun⟩ ?_ run
  intro loop action next sourced stepped
  obtain ⟨events, revision, same, origins⟩ := WatchLoop.step_dispatches stepped
  have further := sourced.foldl events fun event member =>
    (origins event member).elim id (sourced.known _)
  rw [same]
  exact ⟨further.sent, further.known⟩

end Messages

/-! Each write once. -/

section Once

variable {decoder : Decoder}

/-- The write a dispatch tells of. -/
def Dispatch.change (dispatch : Dispatch) : Change :=
  match dispatch.value with
  | some value => .put dispatch.key value
  | none => .delete dispatch.key

/-- A value has to decode, and only kinds with DELETE semantics have deletes. -/
def Change.sendable (decoder : Decoder) : Change → Bool
  | .put key value => (putEvent decoder key value).isSome
  | .delete key => (parseKey key).1.tracked

theorem Discover.message_change (discover : Discover) (event : WatchEvent) :
    ((discover.message decoder event).map Dispatch.change).toList =
      [event.change].filter (Change.sendable decoder) := by
  cases event with
  | put key value =>
    cases found : putEvent decoder key value <;>
      simp [Discover.message, Change.sendable, WatchEvent.change, Dispatch.change, found]
  | delete key prevKv =>
    have sends := deleteEvent_isSome_iff decoder key (prevKv <|> discover.knownKeys.lookup key)
    cases found : deleteEvent decoder key (prevKv <|> discover.knownKeys.lookup key) <;>
      simp_all [Discover.message, Change.sendable, WatchEvent.change, Dispatch.change]

theorem Discover.changes_foldl (events : List WatchEvent) (discover : Discover) :
    (events.foldl (Discover.dispatch decoder) discover).dispatched.map Dispatch.change =
      discover.dispatched.map Dispatch.change ++
        (events.map WatchEvent.change).filter (Change.sendable decoder) := by
  induction events generalizing discover with
  | nil => simp
  | cons event events inductionHypothesis =>
    have first := @Discover.message_change decoder discover event
    rw [List.foldl_cons, inductionHypothesis, Discover.dispatched_dispatch, List.map_append,
      List.map_cons, List.append_assoc, ← List.singleton_append (l := events.map _),
      List.filter_append, ← first]
    cases discover.message decoder event <;> rfl

/-- The snapshot of a revision, then every write of the prefix up to another one. -/
def sentSince (decoder : Decoder) (history : History) (keyPrefix : Bytes) (first last : Nat)
    (kvs : List (Bytes × Bytes)) : List Change :=
  (kvs.map (fun kv => Change.put kv.1 kv.2) ++
    (history.between first last).filter fun change => keyPrefix <+: change.key).filter
      (Change.sendable decoder)

variable {history : History} {keyPrefix : Bytes}

theorem sentSince_later {first middle last : Nat} (early : first ≤ middle) (late : middle ≤ last)
    (kvs : List (Bytes × Bytes)) :
    sentSince decoder history keyPrefix first last kvs =
      sentSince decoder history keyPrefix first middle kvs ++
        ((history.between middle last).filter fun change => keyPrefix <+: change.key).filter
          (Change.sendable decoder) := by
  rw [sentSince, history.between_append first middle last early late]
  simp [sentSince]

/-- What a loop has sent since the snapshot it started with, or nothing without one. -/
structure WatchLoop.Caught (decoder : Decoder) (history : History) (keyPrefix : Bytes)
    (loop : WatchLoop) (first : Nat) (kvs : List (Bytes × Bytes)) : Prop where
  started : loop.phase ≠ .start
  snapshot : kvs.Perm (history.get keyPrefix first)
  reached : first ≤ loop.discover.watchRevision
  sent : loop.discover.dispatched.map Dispatch.change =
    sentSince decoder history keyPrefix first loop.discover.watchRevision kvs

theorem WatchLoop.Caught.of_same {loop next : WatchLoop}
    (caught : loop.Caught decoder history keyPrefix first kvs)
    (same : next.discover = loop.discover) (started : next.phase ≠ .start) :
    next.Caught decoder history keyPrefix first kvs :=
  ⟨started, caught.snapshot, same ▸ caught.reached, by rw [same]; exact caught.sent⟩

theorem WatchLoop.caught_load {discover : Discover} (blank : discover.dispatched = [])
    (snapshot : kvs.Perm (history.get keyPrefix revision)) :
    (discover.load decoder revision kvs).watch.Caught decoder history keyPrefix revision kvs := by
  refine ⟨by simp [Discover.watch], snapshot, le_rfl, ?_⟩
  have nothing : history.between revision revision = [] := by simp [History.between]
  have puts : (kvs.map fun kv => WatchEvent.put kv.1 kv.2).map WatchEvent.change =
      kvs.map fun kv => Change.put kv.1 kv.2 := List.map_map
  show (discover.load decoder revision kvs).dispatched.map Dispatch.change =
    sentSince decoder history keyPrefix revision revision kvs
  rw [Discover.load_eq_dispatch, sentSince, nothing, Discover.changes_foldl, blank, puts]
  simp

/-- A response brings everything from the cursor on, whatever came before it was closed. -/
theorem WatchLoop.Caught.receive {loop : WatchLoop}
    (caught : loop.Caught decoder history keyPrefix first kvs)
    (late : loop.discover.watchRevision ≤ revision)
    (delivered : events.map WatchEvent.change =
      (history.between loop.discover.watchRevision revision).filter
        fun change => keyPrefix <+: change.key) :
    WatchLoop.Caught decoder history keyPrefix
      ⟨loop.discover.receive decoder revision events, .watching next⟩ first kvs := by
  refine ⟨by simp, caught.snapshot, caught.reached.trans late, ?_⟩
  show (events.foldl (Discover.dispatch decoder) loop.discover).dispatched.map Dispatch.change =
    sentSince decoder history keyPrefix first revision kvs
  rw [Discover.changes_foldl, delivered, caught.sent, ← sentSince_later caught.reached late]

/-- Once there was a snapshot, a step without a resync delivers a response or sends nothing. -/
theorem WatchLoop.step_of_started {loop next : WatchLoop}
    (stepped : loop.step decoder history keyPrefix action = some next)
    (started : loop.phase ≠ .start)
    (uncompacted : ∀ revision known kvs, action ≠ .resync revision known kvs) :
    (∃ cursor revision events, loop.phase = .watching cursor ∧ cursor ≤ revision + 1 ∧
      events.map WatchEvent.change = (history.between (cursor - 1) revision).filter
        (fun change => keyPrefix <+: change.key) ∧
      next = ⟨loop.discover.receive decoder revision events, .watching (revision + 1)⟩) ∨
    next.discover = loop.discover ∧ next.phase ≠ .start := by
  cases action with
  | resync revision known kvs => exact absurd rfl (uncompacted revision known kvs)
  | response revision events =>
    cases phase : loop.phase with
    | watching cursor =>
      simp only [WatchLoop.step, phase] at stepped
      obtain ⟨⟨reached, delivered⟩, same⟩ := Option.ite_none_right_eq_some.mp stepped
      cases same
      exact .inl ⟨cursor, revision, events, rfl, reached, delivered, rfl⟩
    | start => exact absurd phase started
    | broken compacted => cases compacted <;> simp [WatchLoop.step, phase] at stepped
    | stopped => simp [WatchLoop.step, phase] at stepped
  | _ =>
    right
    simp only [WatchLoop.step] at stepped
    split at stepped
    all_goals first
      | (cases stepped; exact ⟨rfl, by simp [Discover.watch]⟩)
      | contradiction

theorem WatchLoop.caught_of_run {schedule : List WatchAction} {loop : WatchLoop}
    (run : exec (WatchLoop.step decoder history keyPrefix) .new schedule = some loop)
    (uncompacted : ∀ revision known kvs, .resync revision known kvs ∉ schedule) :
    ((∀ first kvs, .init first kvs ∉ schedule) ∧ loop.discover.dispatched = [] ∧
      (loop.phase = .start ∨ loop.phase = .stopped)) ∨
    ∃ first kvs, .init first kvs ∈ schedule ∧
      loop.Caught decoder history keyPrefix first kvs := by
  refine exec_induction (motive := fun schedule loop =>
    (∀ revision known kvs, .resync revision known kvs ∉ schedule) →
      ((∀ first kvs, .init first kvs ∉ schedule) ∧ loop.discover.dispatched = [] ∧
        (loop.phase = .start ∨ loop.phase = .stopped)) ∨
      ∃ first kvs, .init first kvs ∈ schedule ∧ loop.Caught decoder history keyPrefix first kvs)
    (fun _ => .inl ⟨by simp, rfl, .inl rfl⟩) ?_ run uncompacted
  intro schedule loop action next before holds stepped uncompacted
  have synced : loop.Synced decoder history keyPrefix :=
    exec_invariant .new (fun _ _ _ before stepped => before.step stepped) before
  have earlier := holds fun revision known kvs member =>
    uncompacted revision known kvs (List.mem_append_left _ member)
  rcases earlier with ⟨absent, blank, start | stopped⟩ | ⟨first, kvs, listed, caught⟩
  · -- only `Init` can be next
    cases action with
    | init revision kvs =>
      simp only [WatchLoop.step, start] at stepped
      obtain ⟨snapshot, same⟩ := Option.ite_none_right_eq_some.mp stepped
      cases same
      exact .inr ⟨revision, kvs, by simp, WatchLoop.caught_load blank snapshot⟩
    | initFails =>
      simp only [WatchLoop.step, start] at stepped
      cases stepped
      exact .inl ⟨by simpa using absent, blank, .inr rfl⟩
    | _ => simp [WatchLoop.step, start] at stepped
  · cases action <;> simp [WatchLoop.step, stopped] at stepped
  · refine .inr ⟨first, kvs, List.mem_append_left _ listed, ?_⟩
    have plain : ∀ revision known kvs, action ≠ .resync revision known kvs := by
      rintro revision known kvs rfl
      exact uncompacted revision known kvs (by simp)
    rcases WatchLoop.step_of_started stepped caught.started plain with
      ⟨cursor, revision, events, phase, reached, delivered, rfl⟩ | ⟨same, started⟩
    · have position := synced.cursor cursor phase
      subst cursor
      exact caught.receive (by omega) delivered
    · exact caught.of_same same started

/-- As long as no revision is compacted away, discovery sends the first snapshot and then each
write of the prefix that can be sent, once and in the order of etcd. How the writes were split into
responses and how often the watch broke and was opened again does not show. -/
theorem watch_sends_each_write_once (decoder : Decoder) (history : History) (keyPrefix : Bytes)
    (schedule : List WatchAction) (loop : WatchLoop)
    (run : exec (WatchLoop.step decoder history keyPrefix) .new schedule = some loop)
    (uncompacted : ∀ revision known kvs, .resync revision known kvs ∉ schedule) :
    (∀ first kvs, .init first kvs ∉ schedule) ∧ loop.discover.dispatched = [] ∨
    ∃ first kvs, .init first kvs ∈ schedule ∧ kvs.Perm (history.get keyPrefix first) ∧
      first ≤ loop.discover.watchRevision ∧
      loop.discover.dispatched.map Dispatch.change =
        sentSince decoder history keyPrefix first loop.discover.watchRevision kvs := by
  rcases WatchLoop.caught_of_run run uncompacted with ⟨absent, blank, -⟩ |
    ⟨first, kvs, listed, caught⟩
  · exact .inl ⟨absent, blank⟩
  · exact .inr ⟨first, kvs, listed, caught.snapshot, caught.reached, caught.sent⟩

/-- The write and the deletion of a version, with the watch lost in between. -/
def reconnectedSchedule : List WatchAction :=
  [.init 0 [], .response 1 [.put (ascii "1/version") (ascii "v2")], .fails false, .reconnect,
    .response 2 [.delete (ascii "1/version") none]]

theorem watch_sends_each_write_once_reconnected :
    ∃ loop,
      exec (WatchLoop.step plainDecoder shortHistory []) .new reconnectedSchedule = some loop ∧
      loop.discover.dispatched.map Dispatch.change =
        [.put (ascii "1/version") (ascii "v2"), .delete (ascii "1/version")] := by
  refine ⟨_, rfl, ?_⟩
  rcases watch_sends_each_write_once plainDecoder shortHistory [] reconnectedSchedule _ rfl
      (by simp [reconnectedSchedule]) with ⟨absent, -⟩ | ⟨first, kvs, listed, snapshot, -, sent⟩
  · exact absurd (List.mem_cons_self ..) (absent 0 [])
  · simp only [reconnectedSchedule, List.mem_cons, WatchAction.init.injEq, reduceCtorEq, or_false,
      List.not_mem_nil] at listed
    obtain ⟨rfl, rfl⟩ := listed
    exact sent.trans (by decide +kernel)

end Once

end NodexProxy.Discovery
