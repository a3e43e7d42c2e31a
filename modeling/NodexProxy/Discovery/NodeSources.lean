import NodexProxy.Discovery.NodeDeletes

/-! Where the source of a node event comes from: a native key imposes it, any other takes it from
a value that was put under the key. -/

namespace NodexProxy.Discovery

open NodexProxy.Foundation

/-- The node events of discovery in the order of the channel, with their keys. -/
def Discover.nodesSent (discover : Discover) : List (Bytes × TargetNode) :=
  discover.dispatched.filterMap fun dispatch =>
    match dispatch.event with
    | .node node => some (dispatch.key, node)
    | _ => none

/-- The body is what some value put under the key decodes to, or blank. -/
def BodyPut (decoder : Decoder) (calls : List NodeCall) (key : Bytes) (body : NodeBody) : Prop :=
  body = .zero ∨ ∃ value, .put key value ∈ calls ∧ body = (decoder.node value).1

/-- Every value discovery and etcd hold was put under its key, and every node event is of such a
value. -/
structure Feed.Put (decoder : Decoder) (calls : List NodeCall) (feed : Feed) : Prop where
  store : ∀ key value, feed.store.lookup key = some value → .put key value ∈ calls
  known : ∀ key value, feed.discover.knownKeys.lookup key = some value → .put key value ∈ calls
  sent : ∀ dispatch ∈ feed.discover.dispatched, ∀ node, dispatch.event = .node node →
    (parseKey dispatch.key).1.isNode = true ∧ ∃ body changeType,
      node = targetNode dispatch.key body changeType ∧ BodyPut decoder calls dispatch.key body

section Events

variable {decoder : Decoder} {key : Bytes} {node : TargetNode}

theorem isNode_of_putEvent (event : putEvent decoder key value = some (.node node)) :
    (parseKey key).1.isNode = true := by
  unfold putEvent at event
  rcases parsed : parseKey key with ⟨kind, chainId, sub⟩
  rw [parsed] at event
  cases kind
  all_goals simp only [KeyKind.isNode]
  all_goals
    dsimp only at event
    first
    | cases event
    | split at event <;> cases event

theorem isNode_of_deleteEvent (event : deleteEvent decoder key prevValue = some (.node node)) :
    (parseKey key).1.isNode = true := by
  unfold deleteEvent at event
  rcases parsed : parseKey key with ⟨kind, chainId, sub⟩
  rw [parsed] at event
  cases kind <;> first | rfl | cases event

end Events

section Dispatches

variable {decoder : Decoder} {discover : Discover} {dispatch : Dispatch}

theorem Discover.mem_send {sent : Dispatch} (member : dispatch ∈ (discover.send sent).dispatched) :
    dispatch ∈ discover.dispatched ∨ dispatch = sent := by
  rcases List.mem_append.mp member with old | new
  · exact .inl old
  · exact .inr (List.mem_singleton.mp new)

theorem Discover.mem_dispatchPut
    (member : dispatch ∈ (discover.dispatchPut decoder key value).dispatched) :
    dispatch ∈ discover.dispatched ∨
      dispatch.key = key ∧ putEvent decoder key value = some dispatch.event := by
  unfold Discover.dispatchPut at member
  cases event : putEvent decoder key value with
  | none =>
    rw [event] at member
    exact .inl member
  | some sent =>
    rw [event] at member
    cases sent
    all_goals
      rcases Discover.mem_send member with old | rfl
      · exact .inl old
      · exact .inr ⟨rfl, rfl⟩

theorem Discover.known_dispatchPut
    (found : (discover.dispatchPut decoder key value).knownKeys.lookup other = some stored) :
    discover.knownKeys.lookup other = some stored ∨ other = key ∧ stored = value := by
  unfold Discover.dispatchPut at found
  cases event : putEvent decoder key value with
  | none =>
    rw [event] at found
    exact .inl found
  | some sent =>
    rw [event] at found
    cases sent with
    | height height => exact .inl found
    | _ =>
      rcases Assoc.lookup_insert_cases found with here | old
      · exact .inr here
      · exact .inl old.2

theorem Discover.mem_dispatchDelete
    (member : dispatch ∈ (discover.dispatchDelete decoder key prevValue).dispatched) :
    dispatch ∈ discover.dispatched ∨ dispatch.key = key ∧ deleteEvent decoder key
      (prevValue <|> discover.knownKeys.lookup key) = some dispatch.event := by
  unfold Discover.dispatchDelete at member
  dsimp only at member
  cases event : deleteEvent decoder key (prevValue <|> discover.knownKeys.lookup key) with
  | none =>
    rw [event] at member
    exact .inl member
  | some sent =>
    rw [event] at member
    rcases Discover.mem_send member with old | rfl
    · exact .inl old
    · exact .inr ⟨rfl, rfl⟩

theorem Discover.known_dispatchDelete
    (found : (discover.dispatchDelete decoder key prevValue).knownKeys.lookup other = some stored) :
    discover.knownKeys.lookup other = some stored := by
  rw [Discover.lookup_dispatchDelete] at found
  split_ifs at found
  exact found

end Dispatches

section Put

variable {decoder : Decoder} {calls : List NodeCall} {feed : Feed}

theorem BodyPut.mono (body : BodyPut decoder calls key decoded) (more : calls ⊆ all) :
    BodyPut decoder all key decoded := by
  rcases body with blank | ⟨value, put, same⟩
  · exact .inl blank
  · exact .inr ⟨value, more put, same⟩

theorem Feed.Put.mono (held : feed.Put decoder calls) (more : calls ⊆ all) :
    feed.Put decoder all := by
  refine ⟨fun key value found => more (held.store key value found),
    fun key value found => more (held.known key value found), fun dispatch member node event => ?_⟩
  obtain ⟨isNode, body, changeType, same, put⟩ := held.sent dispatch member node event
  exact ⟨isNode, body, changeType, same, put.mono more⟩

/-- The previous value of a DELETE was put under its key. -/
theorem Feed.Put.prevValue (held : feed.Put decoder calls) {call : NodeCall}
    (found : (feed.prevValue call <|> feed.discover.knownKeys.lookup call.key) = some value) :
    .put call.key value ∈ calls := by
  cases prev : feed.prevValue call with
  | none =>
    rw [prev] at found
    exact held.known _ value found
  | some last =>
    rw [prev] at found
    cases found
    cases call with
    | put key value => cases prev
    | delete key prevKv =>
      obtain ⟨-, stored⟩ := Option.ite_none_right_eq_some.mp prev
      exact held.store key value stored
    | gone key => exact held.known key value prev

theorem Feed.Put.dispatchDelete (held : feed.Put decoder calls) (call : NodeCall) :
    Feed.Put decoder calls ⟨feed.discover.dispatchDelete decoder call.key (feed.prevValue call),
      feed.store.erase call.key⟩ := by
  refine ⟨fun key value found => ?_, fun key value found => ?_, fun dispatch member node event => ?_⟩
  · rw [Assoc.lookup_erase_eq] at found
    split_ifs at found
    exact held.store key value found
  · exact held.known key value (Discover.known_dispatchDelete found)
  · rcases Discover.mem_dispatchDelete member with old | ⟨here, sent⟩
    · exact held.sent dispatch old node event
    · rw [event] at sent
      have isNode := isNode_of_deleteEvent sent
      rw [deleteEvent_node isNode] at sent
      cases sent
      rw [here]
      refine ⟨isNode, _, _, rfl, ?_⟩
      cases prev : feed.prevValue call <|> feed.discover.knownKeys.lookup call.key with
      | none => exact .inl rfl
      | some value => exact .inr ⟨value, held.prevValue prev, rfl⟩

theorem Feed.Put.apply (held : feed.Put decoder calls) (call : NodeCall) :
    (feed.apply decoder call).Put decoder (calls ++ [call]) := by
  have more : calls ⊆ calls ++ [call] := List.subset_append_left ..
  cases call with
  | put key value =>
    have newest : NodeCall.put key value ∈ calls ++ [.put key value] := by simp
    refine ⟨fun other stored found => ?_, fun other stored found => ?_,
      fun dispatch member node event => ?_⟩
    · rcases Assoc.lookup_insert_cases found with ⟨rfl, rfl⟩ | ⟨-, old⟩
      · exact newest
      · exact more (held.store other stored old)
    · rcases Discover.known_dispatchPut found with old | ⟨rfl, rfl⟩
      · exact more (held.known other stored old)
      · exact newest
    · rcases Discover.mem_dispatchPut member with old | ⟨here, sent⟩
      · exact (held.mono more).sent dispatch old node event
      · rw [event] at sent
        have isNode := isNode_of_putEvent sent
        rw [putEvent_node isNode] at sent
        obtain ⟨-, same⟩ := Option.ite_none_right_eq_some.mp sent
        cases same
        rw [here]
        exact ⟨isNode, _, _, rfl, .inr ⟨value, newest, rfl⟩⟩
  | delete key prevKv => exact (held.dispatchDelete (.delete key prevKv)).mono more
  | gone key => exact (held.dispatchDelete (.gone key)).mono more

theorem feedAfter_put (decoder : Decoder) (calls : List NodeCall) :
    (feedAfter decoder calls).Put decoder calls := by
  induction calls using List.reverseRecOn with
  | nil => exact ⟨by simp [feedAfter, Feed.new], by simp [feedAfter, Feed.new, Discover.new],
      by simp [feedAfter, Feed.new, Discover.new]⟩
  | append_singleton calls call inductionHypothesis =>
    rw [feedAfter_snoc]
    exact inductionHypothesis.apply call

end Put

/-- A value put under a regular key does not call itself native. -/
def NodeCall.KeepsNamespace (decoder : Decoder) : NodeCall → Prop
  | .put key value =>
    (parseKey key).1 = .node → (decoder.node value).1.source ≠ ascii "native"
  | _ => True

/-- The key decides whether a node event has the native source, if the values agree with it. -/
theorem nodesSent_source {decoder : Decoder} {calls : List NodeCall} {key : Bytes}
    {node : TargetNode}
    (sent : (key, node) ∈ (feedAfter decoder calls).discover.nodesSent) :
    ((parseKey key).1 = .node ∧ ((∀ call ∈ calls, call.KeepsNamespace decoder) →
      node.source ≠ ascii "native")) ∨
    (parseKey key).1 = .nativeNode ∧ node.source = ascii "native" := by
  obtain ⟨dispatch, member, event⟩ := List.mem_filterMap.mp sent
  split at event
  · rename_i held same
    cases event
    obtain ⟨isNode, body, changeType, rfl, put⟩ :=
      (feedAfter_put decoder calls).sent dispatch member node same
    cases kind : (parseKey dispatch.key).1 with
    | node =>
      refine .inl ⟨rfl, fun keeps => ?_⟩
      have plain : (targetNode dispatch.key body changeType).source = body.source := by
        simp [targetNode, sourced, kind]
      rw [plain]
      rcases put with rfl | ⟨value, put, rfl⟩
      · decide
      · exact keeps _ put kind
    | nativeNode =>
      refine .inr ⟨rfl, ?_⟩
      simp [targetNode, sourced, kind]
    | _ =>
      rw [kind] at isNode
      cases isNode
  · cases event

end NodexProxy.Discovery
