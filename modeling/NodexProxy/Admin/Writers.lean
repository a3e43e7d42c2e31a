import NodexProxy.Admin.Handler

/-! The writers of a chain and their leader. A writer is a record under the writers' path, the
leader is the record named `leader` there, and the listing skips what is not a writer. -/

namespace NodexProxy.Admin

open NodexProxy.Foundation

structure WriterNodeInfo where
  nodeId : Bytes
  nodeXBucket : Bytes
  chainTableBucket : Bytes
  region : Bytes
  brokers : List Bytes
  topic : Bytes
deriving DecidableEq, Repr

inductive WriterStatus where
  | leader
  | backup
deriving DecidableEq, Repr

structure WriterNodeResponse where
  writer : WriterNodeInfo
  status : WriterStatus
deriving DecidableEq, Repr

structure WritersListResponse where
  writers : List WriterNodeResponse
  currentLeader : Bytes
deriving DecidableEq, Repr

def writersPath (chainId : Bytes) : Bytes := chainId ++ ascii "/writers/"

def writerKey (chainId nodeId : Bytes) : Bytes := writersPath chainId ++ nodeId

def leaderKey (chainId : Bytes) : Bytes := chainId ++ ascii "/writers/leader"

/-- The reply to `Get` with `WithPrefix`. -/
abbrev Listing := Except Bytes (List (Bytes × Record Bytes))

/-- One turn of the loop in `listActiveWriters`; `unmarshal` is `none` where it fails. -/
def listWriter (unmarshal : Bytes → Option WriterNodeInfo) (path : Bytes)
    (entry : Bytes × Record Bytes) : Option WriterNodeInfo :=
  if entry.1.length ≤ path.length then none
  else
    let nodeId := entry.1.drop path.length
    if nodeId = ascii "leader" then none
    else (unmarshal entry.2.value).map fun info => { info with nodeId }

def listActiveWriters (unmarshal : Bytes → Option WriterNodeInfo) (chainId : Bytes)
    (listing : Listing) : Except Bytes (List WriterNodeInfo) :=
  match listing with
  | .error error => .error (ascii "failed to list active writers: " ++ error)
  | .ok entries => .ok (entries.filterMap (listWriter unmarshal (writersPath chainId)))

def getCurrentLeader (chainId : Bytes) (reply : Except Bytes (Option (Record Bytes))) :
    Except Bytes Bytes :=
  match reply with
  | .error error => .error (ascii "failed to get current leader: " ++ error)
  | .ok none => .error (ascii "no leader found for chain " ++ chainId)
  | .ok (some record) => .ok record.value

/-- The result is the error, if there is one. -/
def switchLeader (chainId newLeaderId : Bytes) : Program Bytes Bytes Bytes (Option Bytes) :=
  .get (writerKey chainId newLeaderId) fun
    | .error error => .done (some (ascii "failed to check target node: " ++ error))
    | .ok none =>
      .done (some (ascii "target node " ++ newLeaderId ++ ascii " not found or offline"))
    | .ok (some _) =>
      .get (leaderKey chainId) fun
        | .error error => .done (some (ascii "failed to get current leader: " ++ error))
        | .ok leader =>
          .commit [.modRevision (leaderKey chainId) (stampOf leader)]
            [.put (leaderKey chainId) newLeaderId] fun
            | .error error => some (ascii "failed to switch leader: " ++ error)
            | .ok false => some conflict
            | .ok true => none

def writerResponse (currentLeader : Bytes) (writer : WriterNodeInfo) : WriterNodeResponse :=
  ⟨writer, if writer.nodeId = currentLeader then .leader else .backup⟩

/-- The response of `GetWriters`, or the status and text of its error. A leader that cannot be
read is the empty one. -/
def getWriters (unmarshal : Bytes → Option WriterNodeInfo) (chainId : Bytes) (listing : Listing)
    (leader : Except Bytes (Option (Record Bytes))) : Except (Nat × Bytes) WritersListResponse :=
  if chainId = [] then .error (400, ascii "chainId is required")
  else
    match listActiveWriters unmarshal chainId listing with
    | .error error => .error (500, ascii "Failed to list writers: " ++ error)
    | .ok writers =>
      let currentLeader :=
        match getCurrentLeader chainId leader with
        | .ok leader => leader
        | .error _ => []
      .ok ⟨writers.map (writerResponse currentLeader), currentLeader⟩

section Listing

variable {unmarshal : Bytes → Option WriterNodeInfo} {store : EtcdStore} {keys : List Bytes}
  {chainId nodeId : Bytes}

/-- The entries under the writers' path, as etcd returns them. -/
def writersListing (store : EtcdStore) (keys : List Bytes) (chainId : Bytes) :
    List (Bytes × Record Bytes) :=
  store.range keys (writersPath chainId).isPrefixOf

/-- The writers of a store, as `listActiveWriters` gives them when its read does not fail. -/
def activeWriters (unmarshal : Bytes → Option WriterNodeInfo) (store : EtcdStore)
    (keys : List Bytes) (chainId : Bytes) : List WriterNodeInfo :=
  (writersListing store keys chainId).filterMap (listWriter unmarshal (writersPath chainId))

/-- A writer comes from the record of its node id, which is not one of those left out. -/
theorem listWriter_eq_some {path : Bytes} {entry : Bytes × Record Bytes}
    (under : path <+: entry.1) (found : listWriter unmarshal path entry = some writer) :
    entry.1 = path ++ writer.nodeId ∧ writer.nodeId ≠ [] ∧ writer.nodeId ≠ ascii "leader" ∧
      ∃ info, unmarshal entry.2.value = some info := by
  obtain ⟨nodeId, whole⟩ := under
  have dropped : entry.1.drop path.length = nodeId := by rw [← whole, List.drop_left]
  unfold listWriter at found
  split_ifs at found with short
  dsimp only at found
  split_ifs at found with reserved
  obtain ⟨info, decoded, rfl⟩ := Option.map_eq_some_iff.mp found
  refine ⟨?_, ?_, reserved, info, decoded⟩
  · exact whole.symm.trans (congrArg (path ++ ·) dropped.symm)
  · intro empty
    rw [List.drop_eq_nil_iff] at empty
    exact short empty

theorem listWriter_of_writer {path : Bytes} {record : Record Bytes} (named : nodeId ≠ [])
    (unreserved : nodeId ≠ ascii "leader") (decoded : unmarshal record.value = some info) :
    listWriter unmarshal path (path ++ nodeId, record) = some { info with nodeId } := by
  simp [listWriter, named, unreserved, decoded]

/-- The store has a record a writer of this id can be made of. -/
def Listable (unmarshal : Bytes → Option WriterNodeInfo) (store : EtcdStore)
    (chainId nodeId : Bytes) : Prop :=
  nodeId ≠ ascii "leader" ∧ nodeId ≠ [] ∧
    ∃ record info, store.records (writerKey chainId nodeId) = some record ∧
      unmarshal record.value = some info

theorem activeWriters_count (within : store.Within keys)
    (listable : Listable unmarshal store chainId nodeId) :
    (activeWriters unmarshal store keys chainId).countP (fun writer => writer.nodeId = nodeId) =
      1 := by
  obtain ⟨unreserved, named, record, info, stored, decoded⟩ := listable
  rw [activeWriters, List.countP_filterMap]
  have here : (writerKey chainId nodeId, record) ∈ writersListing store keys chainId :=
    (RevisionStore.mem_range within).mpr
      ⟨List.isPrefixOf_iff_prefix.mpr (List.prefix_append ..), stored⟩
  rw [← List.count_eq_one_of_mem (RevisionStore.nodup_range store keys _) here]
  apply List.countP_congr
  intro entry member
  obtain ⟨under, at_key⟩ := (RevisionStore.mem_range within).mp member
  rw [beq_iff_eq]
  constructor
  · intro listed
    cases found : listWriter unmarshal (writersPath chainId) entry with
    | none =>
      rw [found] at listed
      exact absurd listed Bool.false_ne_true
    | some writer =>
      obtain ⟨key, -⟩ := listWriter_eq_some (List.isPrefixOf_iff_prefix.mp under) found
      have same : writer.nodeId = nodeId := by simpa [found] using listed
      rw [same] at key
      rw [key] at at_key
      exact Prod.ext key (Option.some.inj (at_key.symm.trans stored))
  · intro same
    rw [same, writerKey, listWriter_of_writer named unreserved decoded]
    simp

theorem listable_of_mem (within : store.Within keys)
    (member : writer ∈ activeWriters unmarshal store keys chainId) :
    Listable unmarshal store chainId writer.nodeId := by
  obtain ⟨entry, listed, found⟩ := List.mem_filterMap.mp member
  obtain ⟨under, stored⟩ := (RevisionStore.mem_range within).mp listed
  obtain ⟨key, named, unreserved, info, decoded⟩ :=
    listWriter_eq_some (List.isPrefixOf_iff_prefix.mp under) found
  rw [key] at stored
  exact ⟨unreserved, named, entry.2, info, stored, decoded⟩

/-- An id is listed once, or not at all. -/
theorem activeWriters_count_eq_one (within : store.Within keys) :
    (activeWriters unmarshal store keys chainId).countP (fun writer => writer.nodeId = nodeId) =
      1 ↔ Listable unmarshal store chainId nodeId := by
  refine ⟨fun once => ?_, activeWriters_count within⟩
  obtain ⟨writer, member, same⟩ := List.countP_pos_iff.mp (once ▸ Nat.one_pos)
  rw [← of_decide_eq_true same]
  exact listable_of_mem within member

theorem countP_writerResponse (writers : List WriterNodeInfo) (currentLeader : Bytes) :
    (writers.map (writerResponse currentLeader)).countP (fun shown => shown.status = .leader) =
      writers.countP (fun writer => writer.nodeId = currentLeader) := by
  rw [List.countP_map]
  apply List.countP_congr
  intro writer _
  by_cases same : writer.nodeId = currentLeader <;> simp [writerResponse, same]

end Listing

section SwitchLeader

variable {unmarshal : Bytes → Option WriterNodeInfo} {store after : EtcdStore} {keys : List Bytes}
  {chainId newLeaderId : Bytes}

/-- All that can come of a switch: nothing is written and it fails, or the leader is put because
there is a record under its key, whatever it is, and the switch succeeds or its reply is lost. -/
theorem switchLeader_cases {result : Option Bytes}
    (solo : (switchLeader chainId newLeaderId).Solo store result after) :
    (result ≠ none ∧ after = store) ∨
      after = store.write [.put (leaderKey chainId) newLeaderId] ∧
        (result = none ∨ ∃ error, result = some (ascii "failed to switch leader: " ++ error)) := by
  cases solo with
  | failedRead solo =>
    cases solo
    exact .inl ⟨Option.some_ne_none _, rfl⟩
  | read solo =>
    cases stored : store.records (writerKey chainId newLeaderId) with
    | none =>
      rw [stored] at solo
      cases solo
      exact .inl ⟨Option.some_ne_none _, rfl⟩
    | some record =>
      rw [stored] at solo
      cases solo with
      | failedRead solo =>
        cases solo
        exact .inl ⟨Option.some_ne_none _, rfl⟩
      | read solo =>
        cases solo with
        | wrote met => exact .inr ⟨rfl, .inl rfl⟩
        | refused met => exact .inl ⟨Option.some_ne_none _, rfl⟩
        | failedCommit => exact .inl ⟨Option.some_ne_none _, rfl⟩
        | lostCommit met => exact .inr ⟨rfl, .inr ⟨_, rfl⟩⟩

theorem writerKey_ne_leaderKey (unreserved : newLeaderId ≠ ascii "leader") :
    writerKey chainId newLeaderId ≠ leaderKey chainId := by
  have leader : leaderKey chainId = writerKey chainId (ascii "leader") := by
    rw [leaderKey, writerKey, writersPath, List.append_assoc]
    rfl
  rw [leader]
  intro same
  exact unreserved (List.append_cancel_left same)

/-- The switch writes no writer. -/
theorem listable_put_leader (value : Bytes) :
    Listable unmarshal (store.write [.put (leaderKey chainId) value]) chainId newLeaderId ↔
      Listable unmarshal store chainId newLeaderId := by
  unfold Listable
  refine and_congr_right fun unreserved => ?_
  have kept : (store.write [.put (leaderKey chainId) value]).records
      (writerKey chainId newLeaderId) = store.records (writerKey chainId newLeaderId) :=
    Function.update_of_ne (writerKey_ne_leaderKey unreserved) ..
  rw [kept]

/-- The leader is one of the listed writers, once, and `GetWriters` shows one leader. -/
structure LeaderListed (unmarshal : Bytes → Option WriterNodeInfo) (store : EtcdStore)
    (keys : List Bytes) (chainId leader : Bytes) : Prop where
  current : getCurrentLeader chainId (.ok (store.records (leaderKey chainId))) = .ok leader
  listed : ∃ writers,
    listActiveWriters unmarshal chainId (.ok (writersListing store keys chainId)) = .ok writers ∧
      writers.countP (fun writer => writer.nodeId = leader) = 1
  shown : chainId ≠ [] → ∃ response,
    getWriters unmarshal chainId (.ok (writersListing store keys chainId))
        (.ok (store.records (leaderKey chainId))) = .ok response ∧
      response.writers.countP (fun shown => shown.status = .leader) = 1

theorem leaderListed_iff (within : store.Within keys)
    (current : getCurrentLeader chainId (.ok (store.records (leaderKey chainId))) = .ok leader) :
    LeaderListed unmarshal store keys chainId leader ↔ Listable unmarshal store chainId leader := by
  have lists : listActiveWriters unmarshal chainId (.ok (writersListing store keys chainId)) =
      .ok (activeWriters unmarshal store keys chainId) := rfl
  rw [← activeWriters_count_eq_one within]
  constructor
  · rintro ⟨-, ⟨writers, listed, once⟩, -⟩
    cases lists.symm.trans listed
    exact once
  · intro once
    refine ⟨current, ⟨_, lists, once⟩, fun named => ?_⟩
    simp only [getWriters, if_neg named, lists, current]
    exact ⟨_, rfl, (countP_writerResponse _ _).trans once⟩

end SwitchLeader

/-- A switch that fails leaves etcd as it was, unless its transaction was applied and the reply lost:
then the leader is put and the transaction's error reported. After a switch that succeeds the leader
is a listed writer exactly when its id is neither reserved nor empty and its record can be decoded. -/
theorem switchLeader_listed_iff (unmarshal : Bytes → Option WriterNodeInfo)
    (chainId newLeaderId : Bytes) (store after : EtcdStore) (result : Option Bytes)
    (solo : (switchLeader chainId newLeaderId).Solo store result after) :
    (result ≠ none → after = store ∨
      after = store.write [.put (leaderKey chainId) newLeaderId] ∧
        ∃ error, result = some (ascii "failed to switch leader: " ++ error)) ∧
    (result = none → ∀ keys, after.Within keys →
      (LeaderListed unmarshal after keys chainId newLeaderId ↔
        Listable unmarshal store chainId newLeaderId)) := by
  rcases switchLeader_cases solo with ⟨fails, rfl⟩ | ⟨rfl, reply⟩
  · exact ⟨fun _ => .inl rfl, fun succeeds => absurd succeeds fails⟩
  refine ⟨fun fails => .inr ⟨rfl, reply.resolve_left fails⟩, fun _ keys within => ?_⟩
  rw [← listable_put_leader newLeaderId]
  apply leaderListed_iff within
  have stored : (store.write [.put (leaderKey chainId) newLeaderId]).records (leaderKey chainId) =
      some _ := Function.update_self ..
  rw [stored]
  rfl

/-! One writer, which is the leader. -/

def sampleWriter : WriterNodeInfo := ⟨[], [], [], [], [], []⟩

def unmarshalSample (text : Bytes) : Option WriterNodeInfo :=
  if text = ascii "\x7b\x7d" then some sampleWriter else none

def writerStore : EtcdStore :=
  (RevisionStore.empty.write [.put (ascii "1/writers/a") (ascii "\x7b\x7d")]).write
    [.put (ascii "1/writers/leader") (ascii "a")]

def writerKeys : List Bytes :=
  [ascii "1/writers/leader", ascii "1/writers/leader", ascii "1/writers/a"]

theorem switchLeader_listed_again :
    LeaderListed unmarshalSample
      ((switchLeader (ascii "1") (ascii "a")).run writerStore).2 writerKeys (ascii "1")
      (ascii "a") := by
  have solo := Program.Solo.of_run writerStore (switchLeader (ascii "1") (ascii "a"))
  have within : ((switchLeader (ascii "1") (ascii "a")).run writerStore).2.Within writerKeys :=
    ((RevisionStore.Within.empty.put _ _).put _ _).put _ _
  exact ((switchLeader_listed_iff unmarshalSample (ascii "1") (ascii "a") writerStore _ _ solo).2
    (by decide) writerKeys within).mpr ⟨by decide, by decide, _, sampleWriter, rfl, rfl⟩

/-- The reserved name passes the check as if it were a writer. And if the reply to the transaction is
lost, the switch is reported as failed although etcd has the new leader. -/
theorem switchLeader_to_reserved :
    let switch := switchLeader (ascii "1") (ascii "leader")
    let out := switch.run writerStore
    out.1 = none ∧ out.2.Within writerKeys ∧
    getCurrentLeader (ascii "1") (.ok (out.2.records (leaderKey (ascii "1")))) =
      .ok (ascii "leader") ∧
    (activeWriters unmarshalSample out.2 writerKeys (ascii "1")).countP
      (fun writer => writer.nodeId = ascii "leader") = 0 ∧
    (∃ response, getWriters unmarshalSample (ascii "1")
        (.ok (writersListing out.2 writerKeys (ascii "1")))
        (.ok (out.2.records (leaderKey (ascii "1")))) = .ok response ∧
      response.writers.countP (fun shown => shown.status = .leader) = 0) ∧
    switch.Solo writerStore
      (some (ascii "failed to switch leader: " ++ ascii "context deadline exceeded")) out.2 ∧
    out.2.records (leaderKey (ascii "1")) ≠ writerStore.records (leaderKey (ascii "1")) := by
  refine ⟨by decide, ((RevisionStore.Within.empty.put _ _).put _ _).put _ _, by decide,
    by decide, ⟨_, rfl, by decide⟩, ?_, by decide⟩
  exact .read (.read (.lostCommit (by decide)))

end NodexProxy.Admin
