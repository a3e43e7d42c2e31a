import NodexProxy.Discovery.Watch

/-! Discovery converges to etcd. Two facts are kept for every key that has DELETE semantics:
`knownKeys` says what was dispatched for it last, and `knownKeys` agrees with the store at
`watchRevision`. -/

namespace NodexProxy.Discovery

open NodexProxy.Foundation

/-- The kinds `knownKeys` follows. -/
def KeyKind.tracked : KeyKind → Bool
  | .node | .nativeNode | .gateway | .mirror | .version => true
  | .height | .unknown => false

def Discover.lastFor (discover : Discover) (key : Bytes) : Option Dispatch :=
  discover.dispatched.reverse.find? fun dispatch => dispatch.key = key

@[simp] theorem Discover.lastFor_send (discover : Discover) (dispatch : Dispatch) (key : Bytes) :
    (discover.send dispatch).lastFor key =
      if dispatch.key = key then some dispatch else discover.lastFor key := by
  by_cases same : dispatch.key = key <;> simp [Discover.lastFor, Discover.send, same]

@[simp] theorem Discover.knownKeys_send (discover : Discover) (dispatch : Dispatch) :
    (discover.send dispatch).knownKeys = discover.knownKeys := rfl

@[simp] theorem Discover.lastFor_knownKeys (discover : Discover) (keys : Assoc Bytes Bytes)
    (key : Bytes) : ({ discover with knownKeys := keys }).lastFor key = discover.lastFor key := rfl

section Events

variable {decoder : Decoder} {key value : Bytes}

theorem putEvent_height (found : putEvent decoder key value = some (.height height)) :
    (parseKey key).1.tracked = false := by
  unfold putEvent at found
  repeat' split at found
  all_goals cases found
  rw [‹parseKey key = _›]
  rfl

theorem putEvent_changeType (found : putEvent decoder key value = some event) :
    event.changeType = .put := by
  unfold putEvent at found
  repeat' split at found
  all_goals cases found <;> rfl

theorem deleteEvent_changeType (found : deleteEvent decoder key prevValue = some event) :
    event.changeType = .delete := by
  unfold deleteEvent at found
  repeat' split at found
  all_goals cases found <;> rfl

theorem deleteEvent_isSome (decoder : Decoder) (tracked : (parseKey key).1.tracked = true)
    (prevValue : Option Bytes) :
    ∃ event, deleteEvent decoder key prevValue = some event := by
  unfold deleteEvent
  split
  all_goals first
    | exact ⟨_, rfl⟩
    | simp [*, KeyKind.tracked] at tracked

/-- What `dispatchPut` leaves for a tracked key. -/
theorem Discover.lookup_dispatchPut (decoder : Decoder) (discover : Discover)
    (tracked : (parseKey key).1.tracked = true) (other value : Bytes) :
    (discover.dispatchPut decoder other value).knownKeys.lookup key =
      if key = other ∧ (putEvent decoder other value).isSome then some value
      else discover.knownKeys.lookup key := by
  unfold Discover.dispatchPut
  split
  · simp [*]
  · rename_i found
    have differs : key ≠ other := by
      rintro rfl
      rw [putEvent_height found] at tracked
      cases tracked
    simp [differs]
  · rename_i found
    simp [found, Assoc.lookup_insert_eq]

theorem Discover.lookup_dispatchDelete (decoder : Decoder) (discover : Discover) (key other : Bytes)
    (prevValue : Option Bytes) :
    (discover.dispatchDelete decoder other prevValue).knownKeys.lookup key =
      if key = other then none else discover.knownKeys.lookup key := by
  unfold Discover.dispatchDelete
  dsimp only
  split <;> simp [Assoc.lookup_erase_eq]

/-- `knownKeys` tells the last event sent for the key: the PUT of the recorded value, and
without a record nothing or a DELETE. -/
def Discover.Recorded (decoder : Decoder) (discover : Discover) (key : Bytes) : Prop :=
  match discover.knownKeys.lookup key with
  | some value => ∃ event, putEvent decoder key value = some event ∧
      discover.lastFor key = some ⟨key, some value, event⟩
  | none => ∀ dispatch, discover.lastFor key = some dispatch → dispatch.event.changeType = .delete

theorem Discover.Recorded.of_eq {discover next : Discover} (recorded : discover.Recorded decoder key)
    (known : next.knownKeys.lookup key = discover.knownKeys.lookup key)
    (last : next.lastFor key = discover.lastFor key) : next.Recorded decoder key := by
  unfold Discover.Recorded
  rw [known, last]
  exact recorded

theorem Discover.Recorded.dispatchPut {discover : Discover}
    (tracked : (parseKey key).1.tracked = true) (recorded : discover.Recorded decoder key)
    (other value : Bytes) : (discover.dispatchPut decoder other value).Recorded decoder key := by
  have known := discover.lookup_dispatchPut decoder tracked other value
  by_cases same : key = other
  · subst other
    cases found : putEvent decoder key value with
    | none => simpa [Discover.dispatchPut, found] using recorded
    | some event =>
      simp only [found, true_and, Option.isSome_some, if_true] at known
      unfold Discover.Recorded
      rw [known]
      refine ⟨event, found, ?_⟩
      cases event <;> simp [Discover.dispatchPut, found]
  · simp only [same, false_and, if_false] at known
    refine recorded.of_eq known ?_
    unfold Discover.dispatchPut
    split <;> simp [Ne.symm same]

theorem Discover.Recorded.dispatchDelete {discover : Discover}
    (tracked : (parseKey key).1.tracked = true) (recorded : discover.Recorded decoder key)
    (other : Bytes) (prevValue : Option Bytes) :
    (discover.dispatchDelete decoder other prevValue).Recorded decoder key := by
  have known := discover.lookup_dispatchDelete decoder key other prevValue
  by_cases same : key = other
  · subst other
    rw [if_pos rfl] at known
    unfold Discover.Recorded
    rw [known]
    obtain ⟨event, found⟩ := deleteEvent_isSome decoder tracked
      (prevValue <|> discover.knownKeys.lookup key)
    simp only [Discover.dispatchDelete, found, Discover.lastFor_send, if_true, Option.some.injEq]
    rintro _ rfl
    exact deleteEvent_changeType found
  · rw [if_neg same] at known
    refine recorded.of_eq known ?_
    unfold Discover.dispatchDelete
    dsimp only
    split <;> simp [Ne.symm same]

end Events

/-! The store at a revision. -/

section Store

variable {history : History} {keyPrefix key : Bytes}

theorem History.between_append (history : History) (low middle high : Nat) (first : low ≤ middle)
    (second : middle ≤ high) :
    history.between low high = history.between low middle ++ history.between middle high := by
  obtain ⟨width, rfl⟩ := Nat.exists_eq_add_of_le first
  obtain ⟨more, rfl⟩ := Nat.exists_eq_add_of_le second
  unfold History.between
  rw [← List.flatMap_append]
  rw [show low + width + more - low = width + more by omega, show low + width - low = width by omega,
    show low + width + more - (low + width) = more by omega,
    show low + width + 1 = low + 1 + width by omega, List.range'_append_1]

theorem History.storeAt_later (history : History) (later : low ≤ high) :
    history.storeAt high = (history.between low high).foldl Change.apply (history.storeAt low) := by
  unfold History.storeAt
  rw [history.between_append 0 low high (Nat.zero_le _) later, List.foldl_append]

theorem Change.lookup_apply (store : Assoc Bytes Bytes) (change : Change) (key : Bytes) :
    (change.apply store).lookup key = if key = change.key then change.value else store.lookup key := by
  cases change with
  | put other value => exact Assoc.lookup_insert_eq store other key value
  | delete other => exact Assoc.lookup_erase_eq store other key

theorem History.mem_get (history : History) (revision : Nat) (watched : keyPrefix <+: key) :
    (key, value) ∈ history.get keyPrefix revision ↔
      (history.storeAt revision).lookup key = some value := by
  unfold History.get
  rw [List.mem_filter, List.mem_map]
  constructor
  · rintro ⟨⟨entry, member, same⟩, _⟩
    cases same
    exact AList.mem_lookup_iff.mpr member
  · intro found
    exact ⟨⟨⟨key, value⟩, AList.mem_lookup_iff.mp found, rfl⟩, by simpa using watched⟩

theorem History.get_nodup (history : History) (keyPrefix : Bytes) (revision : Nat) :
    ((history.get keyPrefix revision).map Prod.fst).Nodup :=
  (Assoc.nodup_fst (history.storeAt revision)).sublist (List.filter_sublist.map Prod.fst)

end Store

/-- `knownKeys` follows the store for a key: it has a value that decodes, and nothing where
the store has nothing. A value that does not decode is neither sent nor recorded, so then
it says nothing. -/
structure Agrees (decoder : Decoder) (key : Bytes) (stored known : Option Bytes) : Prop where
  held : ∀ value, stored = some value → (putEvent decoder key value).isSome → known = some value
  absent : stored = none → known = none

section Loops

variable {decoder : Decoder} {keyPrefix key : Bytes}

/-- One delivered write moves the store and `knownKeys` together. -/
theorem Agrees.dispatch {discover : Discover} (tracked : (parseKey key).1.tracked = true)
    (agrees : Agrees decoder key (store.lookup key) (discover.knownKeys.lookup key))
    (event : WatchEvent) :
    Agrees decoder key ((event.change.apply store).lookup key)
      ((discover.dispatch decoder event).knownKeys.lookup key) := by
  rw [Change.lookup_apply]
  cases event with
  | put other value =>
    simp only [Discover.dispatch, WatchEvent.change, Change.key, Change.value,
      discover.lookup_dispatchPut decoder tracked]
    by_cases same : key = other
    · subst other
      constructor
      · intro value' stored decodes
        simp only [if_true, Option.some.injEq] at stored
        subst value'
        simp [decodes]
      · intro stored
        simp at stored
    · simpa [same] using agrees
  | delete other prevKv =>
    simp only [Discover.dispatch, WatchEvent.change, Change.key, Change.value,
      discover.lookup_dispatchDelete]
    by_cases same : key = other
    · subst other
      exact ⟨by simp, by simp⟩
    · simpa [same] using agrees

/-- A whole response does, also where etcd left out the writes of other prefixes. -/
theorem Agrees.dispatch_all (tracked : (parseKey key).1.tracked = true)
    (watched : keyPrefix <+: key) (changes : List Change) :
    ∀ (events : List WatchEvent) (store : Assoc Bytes Bytes) (discover : Discover),
      events.map WatchEvent.change = changes.filter (fun change => keyPrefix <+: change.key) →
      Agrees decoder key (store.lookup key) (discover.knownKeys.lookup key) →
      Agrees decoder key ((changes.foldl Change.apply store).lookup key)
        ((events.foldl (Discover.dispatch decoder) discover).knownKeys.lookup key) := by
  induction changes with
  | nil =>
    intro events store discover delivered agrees
    rw [List.filter_nil, List.map_eq_nil_iff] at delivered
    subst events
    exact agrees
  | cons change changes ih =>
    intro events store discover delivered agrees
    by_cases relevant : keyPrefix <+: change.key
    · rw [List.filter_cons_of_pos (by simpa using relevant)] at delivered
      obtain ⟨event, rest, rfl, same, behind⟩ := List.map_eq_cons_iff.mp delivered
      subst change
      exact ih rest _ _ behind (agrees.dispatch tracked event)
    · rw [List.filter_cons_of_neg (by simpa using relevant)] at delivered
      refine ih events _ _ delivered ?_
      have differs : key ≠ change.key := by
        rintro rfl
        exact relevant watched
      rw [Change.lookup_apply, if_neg differs]
      exact agrees

/-- A loop over a snapshot whose body puts each entry: the key's own entry decides. -/
theorem lookup_foldl_put {put : Discover → Bytes × Bytes → Discover}
    (spec : ∀ discover kv, (put discover kv).knownKeys.lookup key =
      if key = kv.1 ∧ (putEvent decoder kv.1 kv.2).isSome then some kv.2
      else discover.knownKeys.lookup key)
    (kvs : List (Bytes × Bytes)) (nodup : (kvs.map Prod.fst).Nodup) :
    ∀ discover : Discover,
      (key ∉ kvs.map Prod.fst →
        (kvs.foldl put discover).knownKeys.lookup key = discover.knownKeys.lookup key) ∧
      ∀ value, (key, value) ∈ kvs → (putEvent decoder key value).isSome →
        (kvs.foldl put discover).knownKeys.lookup key = some value := by
  induction kvs with
  | nil => exact fun _ => ⟨fun _ => rfl, by simp⟩
  | cons kv kvs ih =>
    intro discover
    simp only [List.map_cons, List.nodup_cons] at nodup
    obtain ⟨unchanged, found⟩ := ih nodup.2 (put discover kv)
    simp only [List.foldl_cons]
    constructor
    · intro absent
      simp only [List.map_cons, List.mem_cons, not_or] at absent
      rw [unchanged absent.2, spec, if_neg (fun both => absent.1 both.1)]
    · intro value member decodes
      rcases List.mem_cons.mp member with same | member
      · subst kv
        rw [unchanged nodup.1, spec, if_pos ⟨rfl, decodes⟩]
      · exact found value member decodes

/-- After a snapshot `knownKeys` agrees with the store it was taken from, if before it had
nothing but keys of the snapshot. -/
theorem Agrees.of_snapshot {put : Discover → Bytes × Bytes → Discover} {history : History}
    {kvs : List (Bytes × Bytes)}
    (spec : ∀ discover kv, (put discover kv).knownKeys.lookup key =
      if key = kv.1 ∧ (putEvent decoder kv.1 kv.2).isSome then some kv.2
      else discover.knownKeys.lookup key)
    (watched : keyPrefix <+: key) (snapshot : kvs.Perm (history.get keyPrefix revision))
    (discover : Discover)
    (live : key ∉ kvs.map Prod.fst → discover.knownKeys.lookup key = none) :
    Agrees decoder key ((history.storeAt revision).lookup key)
      ((kvs.foldl put discover).knownKeys.lookup key) := by
  have nodup : (kvs.map Prod.fst).Nodup :=
    (snapshot.map Prod.fst).nodup_iff.mpr (history.get_nodup keyPrefix revision)
  obtain ⟨unchanged, found⟩ := lookup_foldl_put spec kvs nodup discover
  constructor
  · intro value stored decodes
    exact found value (snapshot.mem_iff.mpr ((history.mem_get revision watched).mpr stored)) decodes
  · intro stored
    have gone : key ∉ kvs.map Prod.fst := by
      intro member
      obtain ⟨⟨other, value⟩, member, same⟩ := List.mem_map.mp member
      simp only at same
      subst other
      have held := (history.mem_get revision watched).mp (snapshot.mem_iff.mp member)
      rw [stored] at held
      cases held
    rw [unchanged gone, live gone]

theorem Discover.lookup_dropGone (decoder : Decoder) (known kvs : List (Bytes × Bytes)) :
    ∀ discover : Discover, (discover.dropGone decoder known kvs).knownKeys.lookup key =
      if key ∈ known.map Prod.fst ∧ key ∉ kvs.map Prod.fst then none
      else discover.knownKeys.lookup key := by
  induction known with
  | nil => simp [Discover.dropGone]
  | cons entry known ih =>
    intro discover
    unfold Discover.dropGone at ih ⊢
    rw [List.foldl_cons, ih]
    simp only [List.map_cons, List.mem_cons]
    by_cases kept : entry.1 ∈ kvs.map Prod.fst
    · rw [if_pos kept]
      by_cases same : key = entry.1
      · rw [same, if_neg (by simp [kept]), if_neg (by simp [kept])]
      · simp only [same, false_or]
    · rw [if_neg kept, discover.lookup_dispatchDelete]
      by_cases same : key = entry.1
      · rw [same, if_pos rfl, ite_self, if_pos ⟨Or.inl rfl, kept⟩]
      · simp only [same, false_or, if_false]

theorem Discover.lookup_putChanged_step (decoder : Decoder)
    (tracked : (parseKey key).1.tracked = true) (discover : Discover) (kv : Bytes × Bytes) :
    (if discover.knownKeys.lookup kv.1 = some kv.2 then discover
      else discover.dispatchPut decoder kv.1 kv.2).knownKeys.lookup key =
      if key = kv.1 ∧ (putEvent decoder kv.1 kv.2).isSome then some kv.2
      else discover.knownKeys.lookup key := by
  split
  · rename_i unchanged
    split
    · rename_i own
      rw [own.1, unchanged]
    · rfl
  · exact discover.lookup_dispatchPut decoder tracked kv.1 kv.2

/-- A loop keeps the record when its body does. -/
theorem Discover.Recorded.foldl {discover : Discover} {body : Discover → Item → Discover}
    (recorded : discover.Recorded decoder key)
    (keeps : ∀ state item, state.Recorded decoder key → (body state item).Recorded decoder key)
    (items : List Item) : (items.foldl body discover).Recorded decoder key := by
  induction items generalizing discover with
  | nil => exact recorded
  | cons item items inductionHypothesis => exact inductionHypothesis (keeps discover item recorded)

section Recorded

variable {discover : Discover} (tracked : (parseKey key).1.tracked = true)
  (recorded : discover.Recorded decoder key)
include tracked recorded

theorem Discover.Recorded.load (revision : Nat) (kvs : List (Bytes × Bytes)) :
    (discover.load decoder revision kvs).Recorded decoder key := by
  show Discover.Recorded decoder (kvs.foldl _ discover) key
  refine recorded.foldl (fun state kv before => ?_) kvs
  exact before.dispatchPut tracked kv.1 kv.2

theorem Discover.Recorded.receive (revision : Nat) (events : List WatchEvent) :
    (discover.receive decoder revision events).Recorded decoder key := by
  show Discover.Recorded decoder (events.foldl _ discover) key
  refine recorded.foldl (fun state event before => ?_) events
  cases event with
  | put other value => exact before.dispatchPut tracked other value
  | delete other prevKv => exact before.dispatchDelete tracked other prevKv

theorem Discover.Recorded.dropGone (known kvs : List (Bytes × Bytes)) :
    (discover.dropGone decoder known kvs).Recorded decoder key := by
  refine recorded.foldl (fun state entry before => ?_) known
  split
  · exact before
  · exact before.dispatchDelete tracked entry.1 _

theorem Discover.Recorded.putChanged (kvs : List (Bytes × Bytes)) :
    (discover.putChanged decoder kvs).Recorded decoder key := by
  refine recorded.foldl (fun state kv before => ?_) kvs
  split
  · exact before
  · exact before.dispatchPut tracked kv.1 kv.2

end Recorded

end Loops

section Runs

variable {decoder : Decoder} {history : History} {keyPrefix : Bytes}

/-- Everything a step of the loop can do. -/
theorem WatchLoop.step_cases {loop next : WatchLoop}
    (stepped : loop.step decoder history keyPrefix action = some next) :
    (∃ revision kvs, loop.phase = .start ∧ kvs.Perm (history.get keyPrefix revision) ∧
      next = (loop.discover.load decoder revision kvs).watch) ∨
    (∃ cursor revision events, loop.phase = .watching cursor ∧ cursor ≤ revision + 1 ∧
      events.map WatchEvent.change = (history.between (cursor - 1) revision).filter
        (fun change => keyPrefix <+: change.key) ∧
      next = ⟨loop.discover.receive decoder revision events, .watching (revision + 1)⟩) ∨
    (∃ revision known kvs,
      known.Perm (loop.discover.knownKeys.entries.map fun entry => (entry.1, entry.2)) ∧
      kvs.Perm (history.get keyPrefix revision) ∧
      next = (loop.discover.resync decoder revision known kvs).watch) ∨
    next = loop.discover.watch ∨
    (next.discover = loop.discover ∧ next.phase ≠ .start ∧
      ∀ cursor, next.phase ≠ .watching cursor) := by
  unfold WatchLoop.step at stepped
  split at stepped
  · rename_i revision kvs phase
    obtain ⟨snapshot, same⟩ := Option.ite_none_right_eq_some.mp stepped
    cases same
    exact .inl ⟨revision, kvs, phase, snapshot, rfl⟩
  · cases stepped
    exact .inr (.inr (.inr (.inr ⟨rfl, by simp, by simp⟩)))
  · rename_i cursor revision events phase
    obtain ⟨delivered, same⟩ := Option.ite_none_right_eq_some.mp stepped
    cases same
    exact .inr (.inl ⟨cursor, revision, events, phase, delivered.1, delivered.2, rfl⟩)
  · cases stepped
    exact .inr (.inr (.inr (.inr ⟨rfl, by simp, by simp⟩)))
  · rename_i revision known kvs phase
    obtain ⟨orders, same⟩ := Option.ite_none_right_eq_some.mp stepped
    cases same
    exact .inr (.inr (.inl ⟨revision, known, kvs, orders.1, orders.2, rfl⟩))
  · cases stepped
    exact .inr (.inr (.inr (.inl rfl)))
  · cases stepped
    exact .inr (.inr (.inr (.inl rfl)))
  · cases stepped
    exact .inr (.inr (.inr (.inr ⟨rfl, by simp, by simp⟩)))
  · cases stepped
    exact .inr (.inr (.inr (.inr ⟨rfl, by simp, by simp⟩)))
  · cases stepped

/-- What holds between any two steps. -/
structure WatchLoop.Synced (decoder : Decoder) (history : History) (keyPrefix : Bytes)
    (loop : WatchLoop) : Prop where
  recorded : ∀ key, (parseKey key).1.tracked = true → loop.discover.Recorded decoder key
  agrees : ∀ key, (parseKey key).1.tracked = true → keyPrefix <+: key →
    Agrees decoder key ((history.storeAt loop.discover.watchRevision).lookup key)
      (loop.discover.knownKeys.lookup key)
  cursor : ∀ next, loop.phase = .watching next → next = loop.discover.watchRevision + 1
  fresh : loop.phase = .start → loop.discover = .new

theorem WatchLoop.Synced.new : WatchLoop.new.Synced decoder history keyPrefix where
  recorded := by
    intro key tracked dispatch last
    cases last
  agrees := by
    intro key _ _
    constructor
    · intro value stored
      cases stored
    · exact fun _ => rfl
  cursor := by simp [WatchLoop.new]
  fresh := fun _ => rfl

theorem Discover.watch_synced {discover : Discover}
    (recorded : ∀ key, (parseKey key).1.tracked = true → discover.Recorded decoder key)
    (agrees : ∀ key, (parseKey key).1.tracked = true → keyPrefix <+: key →
      Agrees decoder key ((history.storeAt discover.watchRevision).lookup key)
        (discover.knownKeys.lookup key)) :
    discover.watch.Synced decoder history keyPrefix where
  recorded := recorded
  agrees := agrees
  cursor := by
    intro next open'
    cases open'
    rfl
  fresh := by simp [Discover.watch]

theorem WatchLoop.Synced.step {loop next : WatchLoop}
    (synced : loop.Synced decoder history keyPrefix)
    (stepped : loop.step decoder history keyPrefix action = some next) :
    next.Synced decoder history keyPrefix := by
  rcases WatchLoop.step_cases stepped with ⟨revision, kvs, phase, snapshot, rfl⟩ |
    ⟨cursor, revision, events, phase, reached, delivered, rfl⟩ |
    ⟨revision, known, kvs, order, snapshot, rfl⟩ | rfl | ⟨same, started, closed⟩
  · -- `Init`: nothing is known before the snapshot
    refine Discover.watch_synced ?_ ?_
    · exact fun key tracked => (synced.recorded key tracked).load tracked revision kvs
    · intro key tracked watched
      refine Agrees.of_snapshot (fun state kv => ?_) watched snapshot loop.discover fun _ => ?_
      · exact state.lookup_dispatchPut decoder tracked kv.1 kv.2
      · rw [synced.fresh phase]
        rfl
  · -- a response: the cursor is where `watchRevision` stands
    have position := synced.cursor cursor phase
    subst cursor
    constructor
    · exact fun key tracked => (synced.recorded key tracked).receive tracked revision events
    · intro key tracked watched
      show Agrees decoder key ((history.storeAt revision).lookup key) _
      rw [history.storeAt_later (show loop.discover.watchRevision ≤ revision by omega)]
      exact Agrees.dispatch_all tracked watched _ events _ loop.discover delivered
        (synced.agrees key tracked watched)
    · intro next open'
      cases open'
      rfl
    · intro start
      cases start
  · -- a resync: after the first loop only keys of the snapshot are known
    refine Discover.watch_synced ?_ ?_
    · intro key tracked
      exact ((synced.recorded key tracked).dropGone tracked known kvs).putChanged tracked kvs
    · intro key tracked watched
      refine Agrees.of_snapshot (fun state kv => state.lookup_putChanged_step decoder tracked kv)
        watched snapshot _ fun gone => ?_
      rw [loop.discover.lookup_dropGone]
      split
      · rfl
      · rename_i unknown
        have absent : key ∉ known.map Prod.fst := fun member => unknown ⟨member, gone⟩
        rw [(order.map Prod.fst).mem_iff, List.map_map] at absent
        exact AList.lookup_eq_none.mpr absent
  · exact Discover.watch_synced synced.recorded synced.agrees
  · exact {
      recorded := by
        rw [same]
        exact synced.recorded
      agrees := by
        rw [same]
        exact synced.agrees
      cursor := fun cursor open' => absurd open' (closed cursor)
      fresh := fun start => absurd start started }

/-- Between any two steps of any run, a key of a tracked kind under the watched prefix has
been brought to its state at `watchRevision`: the value that etcd holds there was the last
thing sent for it if it decodes, and without a value there the last thing sent was a
DELETE, or there was no PUT. -/
theorem discovery_converges (decoder : Decoder) (history : History) (keyPrefix : Bytes)
    (schedule : List WatchAction) (loop : WatchLoop)
    (run : exec (WatchLoop.step decoder history keyPrefix) .new schedule = some loop)
    (key : Bytes) (tracked : (parseKey key).1.tracked = true) (watched : keyPrefix <+: key) :
    (∀ value, (history.storeAt loop.discover.watchRevision).lookup key = some value →
      (putEvent decoder key value).isSome →
      ∃ event, putEvent decoder key value = some event ∧ event.changeType = .put ∧
        loop.discover.lastFor key = some ⟨key, some value, event⟩) ∧
    ((history.storeAt loop.discover.watchRevision).lookup key = none →
      (∀ dispatch ∈ loop.discover.dispatched, dispatch.key = key →
        dispatch.event.changeType ≠ .put) ∨
      ∃ dispatch, loop.discover.lastFor key = some dispatch ∧
        dispatch.event.changeType = .delete) := by
  have synced : loop.Synced decoder history keyPrefix :=
    exec_invariant .new (fun _ _ _ before stepped => before.step stepped) run
  have recorded := synced.recorded key tracked
  have agrees := synced.agrees key tracked watched
  unfold Discover.Recorded at recorded
  constructor
  · intro value stored decodes
    rw [agrees.held value stored decodes] at recorded
    obtain ⟨event, found, last⟩ := recorded
    exact ⟨event, found, putEvent_changeType found, last⟩
  · intro stored
    rw [agrees.absent stored] at recorded
    cases last : loop.discover.lastFor key with
    | none =>
      left
      intro dispatch member same
      have missing := List.find?_eq_none.mp last dispatch (List.mem_reverse.mpr member)
      simp [same] at missing
    | some dispatch => exact .inr ⟨dispatch, rfl, recorded dispatch last⟩

/-- A decoder on values none of which is JSON. -/
def plainDecoder : Decoder where
  node _ := (.zero, false)
  height _ := (none, false)
  gateway _ := (⟨[], none⟩, false)
  mirror _ := (.zero, false)
  versionObject _ := ([], false)
  versionText _ := ([], false)

/-- A version written at the first revision and deleted at the second. -/
def shortHistory : History
  | 1 => [.put (ascii "1/version") (ascii "v2")]
  | 2 => [.delete (ascii "1/version")]
  | _ => []

/-- The write arrives by watch, the deletion only by the resync after a compaction. -/
def compactedSchedule : List WatchAction :=
  [.init 0 [], .response 1 [.put (ascii "1/version") (ascii "v2")], .fails true,
    .resync 2 [(ascii "1/version", ascii "v2")] []]

theorem discovery_converges_after_compaction :
    ∃ loop, exec (WatchLoop.step plainDecoder shortHistory []) .new compactedSchedule = some loop ∧
      loop.discover.watchRevision = 2 ∧
      ((∀ dispatch ∈ loop.discover.dispatched, dispatch.key = ascii "1/version" →
          dispatch.event.changeType ≠ .put) ∨
        ∃ dispatch, loop.discover.lastFor (ascii "1/version") = some dispatch ∧
          dispatch.event.changeType = .delete) := by
  refine ⟨_, rfl, rfl, ?_⟩
  exact (discovery_converges plainDecoder shortHistory [] compactedSchedule _ rfl
    (ascii "1/version") (by decide) (by decide)).2 rfl

end Runs


end NodexProxy.Discovery
