import NodexProxy.Discovery.Delivery

/-! Heights have no DELETE and are not recorded as known. Every put of one is sent, also in a
resync, so the height in the store is the last one sent. -/

namespace NodexProxy.Discovery

open NodexProxy.Foundation

section Last

variable {decoder : Decoder} {discover : Discover} {key : Bytes}

/-- Only a message for the key changes what was sent for it last. -/
theorem Discover.lastFor_dispatch (event : WatchEvent) :
    (discover.dispatch decoder event).lastFor key =
      ((discover.message decoder event).filter fun dispatch => dispatch.key = key).or
        (discover.lastFor key) := by
  unfold Discover.lastFor
  rw [Discover.dispatched_dispatch, List.reverse_append, List.find?_append]
  cases discover.message decoder event with
  | none => rfl
  | some dispatch => by_cases same : dispatch.key = key <;> simp [same, Option.filter_some]

theorem Discover.lastFor_dispatch_of_ne {event : WatchEvent} (other : event.change.key ≠ key) :
    (discover.dispatch decoder event).lastFor key = discover.lastFor key := by
  rw [Discover.lastFor_dispatch]
  cases sent : discover.message decoder event with
  | none => rfl
  | some dispatch =>
    have elsewhere : dispatch.key ≠ key := (Discover.message_made sent).1 ▸ other
    simp [elsewhere, Option.filter_some]

/-- The key is not recorded, and if its stored value can be sent, that is what was sent last. -/
structure Discover.Follows (decoder : Decoder) (key : Bytes) (stored : Option Bytes)
    (discover : Discover) : Prop where
  unknown : discover.knownKeys.lookup key = none
  held : ∀ value event, stored = some value → putEvent decoder key value = some event →
    discover.lastFor key = some ⟨key, some value, event⟩

variable (untracked : (parseKey key).1.tracked = false)
include untracked

theorem Discover.unknown_dispatch (unknown : discover.knownKeys.lookup key = none)
    (event : WatchEvent) : (discover.dispatch decoder event).knownKeys.lookup key = none := by
  cases event with
  | put other value =>
    simp only [Discover.dispatch, Discover.dispatchPut]
    split
    · exact unknown
    · exact unknown
    · rename_i sent notHeight found
      have apart : key ≠ other := by
        rintro rfl
        unfold putEvent at found
        rcases parsed : parseKey key with ⟨kind, chainId, sub⟩
        rw [parsed] at found untracked
        cases kind <;> try cases untracked
        · cases found
        · dsimp only at found
          split at found
          · cases found
          · cases found
            exact notHeight _ rfl
      simp [apart, unknown]
  | delete other prevKv =>
    rw [Discover.dispatch, Discover.lookup_dispatchDelete, unknown, ite_self]

/-- One delivered write. -/
theorem Discover.Follows.dispatch {store : Assoc Bytes Bytes}
    (follows : discover.Follows decoder key (store.lookup key)) (event : WatchEvent) :
    (discover.dispatch decoder event).Follows decoder key
      ((event.change.apply store).lookup key) := by
  refine ⟨Discover.unknown_dispatch untracked follows.unknown event, fun value sent => ?_⟩
  rw [Change.lookup_apply]
  by_cases own : key = event.change.key
  · rw [if_pos own]
    cases event with
    | put other stored =>
      intro same found
      cases own
      cases same
      have found : putEvent decoder other value = some sent := found
      simp [Discover.lastFor_dispatch, Discover.message, WatchEvent.change, Change.key, found]
    | delete other prevKv => exact fun nothing => by cases nothing
  · rw [if_neg own, Discover.lastFor_dispatch_of_ne (Ne.symm own)]
    exact follows.held value sent

/-- A whole response, without the writes of other prefixes. -/
theorem Discover.Follows.response {keyPrefix : Bytes} (watched : keyPrefix <+: key)
    (changes : List Change) :
    ∀ (events : List WatchEvent) (store : Assoc Bytes Bytes) (discover : Discover),
      events.map WatchEvent.change = changes.filter (fun change => keyPrefix <+: change.key) →
      discover.Follows decoder key (store.lookup key) →
      (events.foldl (Discover.dispatch decoder) discover).Follows decoder key
        ((changes.foldl Change.apply store).lookup key) := by
  induction changes with
  | nil =>
    intro events store discover delivered follows
    rw [List.filter_nil, List.map_eq_nil_iff] at delivered
    subst events
    exact follows
  | cons change changes inductionHypothesis =>
    intro events store discover delivered follows
    by_cases relevant : keyPrefix <+: change.key
    · rw [List.filter_cons_of_pos (by simpa using relevant)] at delivered
      obtain ⟨event, rest, rfl, same, behind⟩ := List.map_eq_cons_iff.mp delivered
      subst change
      exact inductionHypothesis rest _ _ behind (follows.dispatch untracked event)
    · rw [List.filter_cons_of_neg (by simpa using relevant)] at delivered
      refine inductionHypothesis events _ _ delivered ?_
      have differs : key ≠ change.key := by
        rintro rfl
        exact relevant watched
      rw [Change.lookup_apply, if_neg differs]
      exact follows

theorem Discover.unknown_foldl (unknown : discover.knownKeys.lookup key = none)
    (events : List WatchEvent) :
    (events.foldl (Discover.dispatch decoder) discover).knownKeys.lookup key = none := by
  induction events generalizing discover with
  | nil => exact unknown
  | cons event events inductionHypothesis =>
    exact inductionHypothesis (Discover.unknown_dispatch untracked unknown event)

/-- A loop over a snapshot that may leave out known keys. -/
theorem Discover.lastFor_snapshot {put : Discover → Bytes × Bytes → Discover}
    (either : ∀ discover kv, put discover kv = discover ∨
      put discover kv = discover.dispatchPut decoder kv.1 kv.2)
    (own : ∀ discover value, discover.knownKeys.lookup key = none →
      put discover (key, value) = discover.dispatchPut decoder key value)
    (kvs : List (Bytes × Bytes)) (nodup : (kvs.map Prod.fst).Nodup) (discover : Discover)
    (unknown : discover.knownKeys.lookup key = none) :
    (kvs.foldl put discover).knownKeys.lookup key = none ∧
    (key ∉ kvs.map Prod.fst → (kvs.foldl put discover).lastFor key = discover.lastFor key) ∧
    ∀ value event, (key, value) ∈ kvs → putEvent decoder key value = some event →
      (kvs.foldl put discover).lastFor key = some ⟨key, some value, event⟩ := by
  induction kvs generalizing discover with
  | nil => exact ⟨unknown, fun _ => rfl, by simp⟩
  | cons kv kvs inductionHypothesis =>
    rw [List.map_cons, List.nodup_cons] at nodup
    have still : (put discover kv).knownKeys.lookup key = none := by
      rcases either discover kv with skipped | sent
      · rw [skipped]
        exact unknown
      · rw [sent]
        exact Discover.unknown_dispatch untracked unknown (.put kv.1 kv.2)
    obtain ⟨later, outside, inside⟩ := inductionHypothesis nodup.2 (put discover kv) still
    refine ⟨later, fun absent => ?_, fun value event listed found => ?_⟩
    · rw [List.map_cons, List.mem_cons, not_or] at absent
      rw [List.foldl_cons, outside absent.2]
      rcases either discover kv with skipped | sent
      · rw [skipped]
      · rw [sent]
        have other : (WatchEvent.put kv.1 kv.2).change.key ≠ key := Ne.symm absent.1
        exact Discover.lastFor_dispatch_of_ne other
    · rcases List.mem_cons.mp listed with rfl | listed
      · rw [List.foldl_cons, outside nodup.1, own discover value unknown]
        have sent := @Discover.lastFor_dispatch decoder discover key (.put key value)
        simpa [Discover.dispatch, Discover.message, found, Option.filter_some] using sent
      · exact inside value event listed found

theorem Discover.Follows.of_snapshot {history : History} {keyPrefix : Bytes}
    {put : Discover → Bytes × Bytes → Discover} {kvs : List (Bytes × Bytes)}
    (either : ∀ discover kv, put discover kv = discover ∨
      put discover kv = discover.dispatchPut decoder kv.1 kv.2)
    (own : ∀ discover value, discover.knownKeys.lookup key = none →
      put discover (key, value) = discover.dispatchPut decoder key value)
    (watched : keyPrefix <+: key) (snapshot : kvs.Perm (history.get keyPrefix revision))
    (unknown : discover.knownKeys.lookup key = none) :
    (kvs.foldl put discover).Follows decoder key ((history.storeAt revision).lookup key) := by
  have nodup : (kvs.map Prod.fst).Nodup :=
    (snapshot.map Prod.fst).nodup_iff.mpr (history.get_nodup keyPrefix revision)
  obtain ⟨still, -, inside⟩ :=
    Discover.lastFor_snapshot untracked either own kvs nodup discover unknown
  refine ⟨still, fun value event stored found => inside value event ?_ found⟩
  exact snapshot.mem_iff.mpr ((history.mem_get revision watched).mpr stored)

/-- Between any two steps of any run the stored value of a key that is not tracked, if it can be
sent, was the last thing sent for it. -/
theorem WatchLoop.follows_of_run {history : History} {keyPrefix : Bytes}
    {schedule : List WatchAction} {loop : WatchLoop} (watched : keyPrefix <+: key)
    (run : exec (WatchLoop.step decoder history keyPrefix) .new schedule = some loop) :
    loop.discover.Follows decoder key
      ((history.storeAt loop.discover.watchRevision).lookup key) := by
  refine exec_induction (motive := fun _ loop => loop.discover.Follows decoder key
    ((history.storeAt loop.discover.watchRevision).lookup key)) ⟨rfl, nofun⟩ ?_ run
  intro schedule loop action next before follows stepped
  have synced : loop.Synced decoder history keyPrefix :=
    exec_invariant .new (fun _ _ _ before stepped => before.step stepped) before
  rcases WatchLoop.step_cases stepped with ⟨revision, kvs, -, snapshot, rfl⟩ |
    ⟨cursor, revision, events, phase, reached, delivered, rfl⟩ |
    ⟨revision, known, kvs, order, snapshot, rfl⟩ | rfl | ⟨same, -, -⟩
  · have loaded : (kvs.foldl (fun state kv => state.dispatchPut decoder kv.1 kv.2)
        loop.discover).Follows decoder key ((history.storeAt revision).lookup key) :=
      .of_snapshot untracked (fun _ _ => .inr rfl) (fun _ _ _ => rfl) watched snapshot
        follows.unknown
    exact ⟨loaded.unknown, loaded.held⟩
  · have position := synced.cursor cursor phase
    subst cursor
    have received := Discover.Follows.response untracked watched
      (history.between loop.discover.watchRevision revision) events _ loop.discover delivered follows
    rw [← history.storeAt_later (by omega)] at received
    exact ⟨received.unknown, received.held⟩
  · -- only other keys are dropped
    have unknown : (loop.discover.dropGone decoder known kvs).knownKeys.lookup key = none := by
      rw [Discover.dropGone_eq_dispatch]
      exact Discover.unknown_foldl untracked follows.unknown _
    have synchronized : ((loop.discover.dropGone decoder known kvs).putChanged decoder kvs).Follows
        decoder key ((history.storeAt revision).lookup key) :=
      .of_snapshot untracked
        (fun state kv => by
          by_cases held : state.knownKeys.lookup kv.1 = some kv.2 <;> simp [held])
        (fun state value nothing => by simp [nothing]) watched snapshot unknown
    exact ⟨synchronized.unknown, synchronized.held⟩
  · exact follows
  · rw [same]
    exact follows

end Last

end NodexProxy.Discovery
