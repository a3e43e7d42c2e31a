import NodexProxy.Discovery.Convergence

/-! Which node a DELETE names. The consumer removes a node from the list its type and
source select, so a DELETE has to repeat those of the PUT that was delivered. -/

namespace NodexProxy.Discovery

open NodexProxy.Foundation

/-- A call the watch or a resync makes for a node key. -/
inductive NodeCall where
  | put (key value : Bytes)
  -- a DELETE from the watch, with its PrevKv or without
  | delete (key : Bytes) (prevKv : Bool)
  -- a DELETE that `resync` synthesizes from the recorded value
  | gone (key : Bytes)
deriving DecidableEq, Repr

def NodeCall.key : NodeCall → Bytes
  | .put key _ | .delete key _ | .gone key => key

/-- Discovery and the values etcd holds. -/
structure Feed where
  discover : Discover
  store : Assoc Bytes Bytes

def Feed.new : Feed := ⟨.new, ∅⟩

/-- The previous value a DELETE passes: a present PrevKv is the last value in etcd. -/
def Feed.prevValue (feed : Feed) : NodeCall → Option Bytes
  | .put _ _ => none
  | .delete key prevKv => if prevKv then feed.store.lookup key else none
  | .gone key => feed.discover.knownKeys.lookup key

def Feed.apply (decoder : Decoder) (feed : Feed) (call : NodeCall) : Feed :=
  match call with
  | .put key value =>
    ⟨feed.discover.dispatchPut decoder key value, feed.store.insert key value⟩
  | .delete key _ | .gone key =>
    ⟨feed.discover.dispatchDelete decoder key (feed.prevValue call), feed.store.erase key⟩

def KeyKind.isNode : KeyKind → Bool
  | .node | .nativeNode => true
  | _ => false

theorem KeyKind.tracked_of_isNode {kind : KeyKind} (node : kind.isNode = true) :
    kind.tracked = true := by
  cases kind <;> simp_all [KeyKind.isNode, KeyKind.tracked]

/-- The body with the source a native key imposes. -/
def sourced (kind : KeyKind) (body : NodeBody) : NodeBody :=
  if kind = .nativeNode then { body with source := ascii "native" } else body

/-- The node sent for a key. -/
def targetNode (key : Bytes) (body : NodeBody) (changeType : ChangeType) : TargetNode :=
  ⟨sourced (parseKey key).1 body, (parseKey key).2.1, (parseKey key).2.2, changeType⟩

section Events

variable {decoder : Decoder} {key : Bytes}

theorem putEvent_node (node : (parseKey key).1.isNode = true) (value : Bytes) :
    putEvent decoder key value =
      if (decoder.node value).2 then some (.node (targetNode key (decoder.node value).1 .put))
      else none := by
  unfold putEvent targetNode sourced
  rcases parsed : parseKey key with ⟨kind, chainId, sub⟩
  rw [parsed] at node
  rcases decoded : decoder.node value with ⟨body, ok⟩
  cases kind <;> simp only [KeyKind.isNode, Bool.false_eq_true] at node <;>
    cases ok <;> rfl

theorem deleteEvent_node (node : (parseKey key).1.isNode = true) (prevValue : Option Bytes) :
    deleteEvent decoder key prevValue = some (.node (targetNode key
      ((prevValue.map fun value => (decoder.node value).1).getD .zero) .delete)) := by
  unfold deleteEvent targetNode sourced
  rcases parsed : parseKey key with ⟨kind, chainId, sub⟩
  rw [parsed] at node
  cases kind <;> simp only [KeyKind.isNode, Bool.false_eq_true] at node <;> rfl

end Events

/-- The DELETE sent for a key names the node of its most recent event, if that was a PUT. -/
def NamesDelivered (before after : Discover) (key : Bytes) : Prop :=
  ∀ value delivered, before.lastFor key = some ⟨key, value, .node delivered⟩ →
    delivered.changeType = .put →
    ∃ removed : TargetNode,
      after.dispatched = before.dispatched ++ [⟨key, none, .node removed⟩] ∧
      removed.changeType = .delete ∧ removed.chainId = delivered.chainId ∧
      removed.nodeKey = delivered.nodeKey ∧ removed.nodeType = delivered.nodeType ∧
      removed.source = delivered.source

/-- Two bodies select the same list for a key. -/
def SameList (key : Bytes) (first second : NodeBody) : Prop :=
  (sourced (parseKey key).1 first).nodeType = (sourced (parseKey key).1 second).nodeType ∧
    (sourced (parseKey key).1 first).source = (sourced (parseKey key).1 second).source

section Step

variable {decoder : Decoder} {key : Bytes} {discover : Discover}

theorem Discover.dispatched_dispatchDelete (node : (parseKey key).1.isNode = true)
    (prevValue : Option Bytes) :
    (discover.dispatchDelete decoder key prevValue).dispatched = discover.dispatched ++
      [⟨key, none, .node (targetNode key (((prevValue <|> discover.knownKeys.lookup key).map
        fun value => (decoder.node value).1).getD .zero) .delete)⟩] := by
  simp only [Discover.dispatchDelete, deleteEvent_node node]
  rfl

/-- With a record, the last event was the PUT of the recorded value. -/
theorem Discover.Recorded.lastFor_node (recorded : discover.Recorded decoder key)
    (node : (parseKey key).1.isNode = true) (known : discover.knownKeys.lookup key = some last) :
    discover.lastFor key =
      some ⟨key, some last, .node (targetNode key (decoder.node last).1 .put)⟩ := by
  unfold Discover.Recorded at recorded
  rw [known] at recorded
  obtain ⟨event, put, delivered⟩ := recorded
  rw [putEvent_node node] at put
  obtain ⟨_, same⟩ := Option.ite_none_right_eq_some.mp put
  cases same
  exact delivered

/-- A DELETE names the delivered node exactly when the previous value it was given leads to
the list of the recorded one. -/
theorem namesDelivered_iff (recorded : discover.Recorded decoder key)
    (node : (parseKey key).1.isNode = true) (prevValue : Option Bytes) :
    NamesDelivered discover (discover.dispatchDelete decoder key prevValue) key ↔
      ∀ last, discover.knownKeys.lookup key = some last → ∀ value, prevValue = some value →
        SameList key (decoder.node value).1 (decoder.node last).1 := by
  constructor
  · rintro names last known value rfl
    obtain ⟨removed, sent, _, _, _, nodeType, source⟩ :=
      names _ _ (recorded.lastFor_node node known) rfl
    rw [Discover.dispatched_dispatchDelete node] at sent
    have same : targetNode key (decoder.node value).1 .delete = removed := by
      simpa using List.append_cancel_left sent
    subst removed
    exact ⟨nodeType, source⟩
  · intro agree value delivered found put
    cases known : discover.knownKeys.lookup key with
    | none =>
      unfold Discover.Recorded at recorded
      rw [known] at recorded
      have deleted : delivered.changeType = .delete := recorded _ found
      simp [deleted] at put
    | some last =>
      have event := (recorded.lastFor_node node known).symm.trans found
      simp only [Option.some.injEq, Dispatch.mk.injEq, Event.node.injEq, true_and] at event
      obtain ⟨_, rfl⟩ := event
      refine ⟨_, Discover.dispatched_dispatchDelete node prevValue, rfl, rfl, rfl, ?_⟩
      rw [known]
      cases prevValue with
      | none => exact ⟨rfl, rfl⟩
      | some value => exact agree last known value rfl

end Step

/-- The condition on a DELETE: its previous value decodes, or what a failed decode leaves
still selects the list of the value recorded for the key. -/
def NodeCall.Meets (decoder : Decoder) (feed : Feed) (call : NodeCall) : Prop :=
  ∀ value, feed.prevValue call = some value →
    (decoder.node value).2 = true ∨
      ∀ last, feed.discover.knownKeys.lookup call.key = some last →
        SameList call.key (decoder.node value).1 (decoder.node last).1

/-- What a run keeps for every node key. -/
structure Feed.Sound (decoder : Decoder) (feed : Feed) (key : Bytes) : Prop where
  recorded : feed.discover.Recorded decoder key
  agrees : Agrees decoder key (feed.store.lookup key) (feed.discover.knownKeys.lookup key)

theorem Feed.Sound.apply {decoder : Decoder} {feed : Feed} {key : Bytes}
    (node : (parseKey key).1.isNode = true) (sound : feed.Sound decoder key) (call : NodeCall) :
    (feed.apply decoder call).Sound decoder key := by
  have tracked := KeyKind.tracked_of_isNode node
  cases call with
  | put other value =>
    exact ⟨sound.recorded.dispatchPut tracked other value,
      sound.agrees.dispatch tracked (.put other value)⟩
  | delete other prevKv =>
    exact ⟨sound.recorded.dispatchDelete tracked other _,
      sound.agrees.dispatch tracked (.delete other _)⟩
  | gone other =>
    exact ⟨sound.recorded.dispatchDelete tracked other _,
      sound.agrees.dispatch tracked (.delete other _)⟩

/-- Discovery and the store after some calls. -/
def feedAfter (decoder : Decoder) (calls : List NodeCall) : Feed :=
  calls.foldl (Feed.apply decoder) .new

theorem feedAfter_snoc (decoder : Decoder) (calls : List NodeCall) (call : NodeCall) :
    feedAfter decoder (calls ++ [call]) = (feedAfter decoder calls).apply decoder call := by
  simp [feedAfter]

theorem feedAfter_sound (decoder : Decoder) {key : Bytes} (node : (parseKey key).1.isNode = true)
    (calls : List NodeCall) : (feedAfter decoder calls).Sound decoder key := by
  induction calls using List.reverseRecOn with
  | nil => exact ⟨by simp [Discover.Recorded, feedAfter, Feed.new, Discover.new, Discover.lastFor],
      ⟨by simp [feedAfter, Feed.new], by simp [feedAfter, Feed.new, Discover.new]⟩⟩
  | append_singleton calls call inductionHypothesis =>
    rw [feedAfter_snoc]
    exact inductionHypothesis.apply node call

/-- The previous value of a DELETE, where it decodes, is the recorded one. -/
theorem Feed.Sound.known_of_decodes {decoder : Decoder} {feed : Feed} {call : NodeCall}
    (sound : feed.Sound decoder call.key) (node : (parseKey call.key).1.isNode = true)
    (prev : feed.prevValue call = some value) (decodes : (decoder.node value).2 = true) :
    feed.discover.knownKeys.lookup call.key = some value := by
  cases call with
  | put key value => simp [Feed.prevValue] at prev
  | delete key prevKv =>
    obtain ⟨_, stored⟩ := Option.ite_none_right_eq_some.mp prev
    exact sound.agrees.held value stored (by simp [putEvent_node node, decodes])
  | gone key => exact prev

/-- A DELETE in a run: what came before it, and the call. -/
def DeleteIn (calls before : List NodeCall) (call : NodeCall) : Prop :=
  before ++ [call] <+: calls ∧ ∀ key value, call ≠ .put key value

/-- Every DELETE of a run on node keys names the node delivered last for its key exactly
when every DELETE meets the condition. -/
theorem deletes_name_delivered_iff (decoder : Decoder) {calls : List NodeCall}
    (nodes : ∀ call ∈ calls, (parseKey call.key).1.isNode = true) :
    (∀ before call, DeleteIn calls before call → NamesDelivered (feedAfter decoder before).discover
      (feedAfter decoder (before ++ [call])).discover call.key) ↔
    ∀ before call, DeleteIn calls before call → call.Meets decoder (feedAfter decoder before) := by
  refine forall₂_congr fun before call => imp_congr_right fun ⟨inside, delete⟩ => ?_
  have node := nodes call (inside.subset (by simp))
  have sound := feedAfter_sound decoder node before
  have dispatched : ((feedAfter decoder before).apply decoder call).discover =
      (feedAfter decoder before).discover.dispatchDelete decoder call.key
        ((feedAfter decoder before).prevValue call) := by
    cases call with
    | put key value => exact absurd rfl (delete key value)
    | delete key prevKv => rfl
    | gone key => rfl
  rw [feedAfter_snoc, dispatched, namesDelivered_iff sound.recorded node]
  constructor
  · intro agree value prev
    exact .inr fun last known => agree last known value prev
  · intro meets last known value prev
    rcases meets value prev with decodes | agree
    · rw [sound.known_of_decodes node prev decodes] at known
      cases known
      exact ⟨rfl, rfl⟩
    · exact agree last known

/-! An archive node whose value is overwritten by one that does not decode. -/

def archiveValue : Bytes := ascii
  "\x7b\"stateType\":1,\"address\":\"10.0.0.1\",\"port\":8545,\"nodeType\":2,\"source\":\"official\"\x7d"

def brokenValue : Bytes := ascii "down"

def archiveDecoder : Decoder where
  node value := if value = archiveValue then
      (⟨1, ascii "10.0.0.1", 8545, nodeTypeArchive, 0, ascii "official"⟩, true)
    else (.zero, false)
  height _ := (none, false)
  gateway _ := (⟨[], none⟩, false)
  mirror _ := (.zero, false)
  versionObject _ := ([], false)
  versionText _ := ([], false)

def archiveKey : Bytes := ascii "1/nodes/a"

/-- The broken value is dropped by `dispatchPut`, but it is the PrevKv of the DELETE. -/
theorem overwritten_node_is_misnamed :
    (parseKey archiveKey).1.isNode = true ∧
    ¬ NamesDelivered
      (feedAfter archiveDecoder [.put archiveKey archiveValue, .put archiveKey brokenValue]).discover
      (feedAfter archiveDecoder [.put archiveKey archiveValue, .put archiveKey brokenValue,
        .delete archiveKey true]).discover archiveKey := by
  have node : (parseKey archiveKey).1.isNode = true := by decide +kernel
  refine ⟨node, fun names => ?_⟩
  have sound := feedAfter_sound archiveDecoder node
    [.put archiveKey archiveValue, .put archiveKey brokenValue]
  have same := (namesDelivered_iff sound.recorded node (some brokenValue)).mp names
    archiveValue (by decide +kernel) brokenValue rfl
  exact absurd same.1 (by decide +kernel)

/-- Without PrevKv the DELETE falls back on the recorded value. -/
def withoutPrevKv : List NodeCall :=
  [.put archiveKey archiveValue, .put archiveKey brokenValue, .delete archiveKey false]

theorem deletes_name_delivered_without_prevKv :
    NamesDelivered
      (feedAfter archiveDecoder [.put archiveKey archiveValue, .put archiveKey brokenValue]).discover
      (feedAfter archiveDecoder withoutPrevKv).discover archiveKey := by
  have nodes : ∀ call ∈ withoutPrevKv, (parseKey call.key).1.isNode = true := by decide +kernel
  refine (deletes_name_delivered_iff archiveDecoder nodes).mpr ?_
    [.put archiveKey archiveValue, .put archiveKey brokenValue] (.delete archiveKey false)
    ⟨List.prefix_refl _, nofun⟩
  rintro before call ⟨inside, delete⟩ value prev
  have member : call ∈ withoutPrevKv := inside.subset (by simp)
  simp only [withoutPrevKv, List.mem_cons, List.not_mem_nil, or_false] at member
  rcases member with rfl | rfl | rfl
  · exact absurd rfl (delete _ _)
  · exact absurd rfl (delete _ _)
  · simp [Feed.prevValue] at prev

end NodexProxy.Discovery
