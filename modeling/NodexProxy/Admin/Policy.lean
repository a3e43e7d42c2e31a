import NodexProxy.Admin.GatewayUpdates
import NodexProxy.Admin.NodeWeight
import NodexProxy.Admin.RouteEdits
import NodexProxy.Foundation.Journal

/-! The routing policy of a chain: a weight for each node, and for each method the nodes that are
included and those that are excluded. The handlers keep it in one gateway record, and whatever
their calls interleave with, the record holds what the calls that went through make of the policy,
one after the other. -/

namespace NodexProxy.Admin

open NodexProxy.Foundation NodexProxy.Discovery

/-- What operators decide about a chain. -/
@[ext] structure Policy where
  weight : Bytes → Int
  included : Bytes → Set Bytes
  excluded : Bytes → Set Bytes

namespace Policy

/-- Every node has the default weight, and no method has a route. -/
def initial : Policy := ⟨fun _ => defaultWeight, fun _ => ∅, fun _ => ∅⟩

def weigh (policy : Policy) (nodeKey : Bytes) (weight : Int) : Policy :=
  { policy with weight := Function.update policy.weight nodeKey weight }

/-- The sets of one method, replaced. -/
def setRoute (policy : Policy) (method : Bytes) (included excluded : Set Bytes) : Policy :=
  { policy with
    included := Function.update policy.included method included
    excluded := Function.update policy.excluded method excluded }

def addKeys (policy : Policy) (request : MethodRouteRequest) : Policy :=
  policy.setRoute request.method
    (policy.included request.method ∪ listed request.includeNodeKeys)
    (policy.excluded request.method ∪ listed request.excludeNodeKeys)

def removeKeys (policy : Policy) (request : MethodRouteRequest) : Policy :=
  policy.setRoute request.method
    (policy.included request.method \ listed request.includeNodeKeys)
    (policy.excluded request.method \ listed request.excludeNodeKeys)

/-- Nothing is left of the node. -/
def forget (policy : Policy) (nodeKey : Bytes) : Policy where
  weight := Function.update policy.weight nodeKey defaultWeight
  included := fun method => policy.included method \ {nodeKey}
  excluded := fun method => policy.excluded method \ {nodeKey}

end Policy

/-- What a call is meant to do to the policy. `UpdateNode` has no weight to set. -/
def Operation.effect (policy : Policy) : Operation → Policy
  | .setWeight nodeKey (some weight) _ => policy.weigh nodeKey weight
  | .deleteWeight nodeKey _ => policy.weigh nodeKey defaultWeight
  | .addMethodRoute (some request) _ => policy.addKeys request
  | .removeMethodRoute (some request) _ => policy.removeKeys request
  | .deleteMethodRoute method => policy.setRoute method ∅ ∅
  | .addNode (some request) => policy.weigh request.key request.weight
  | .deleteNode nodeKey => policy.forget nodeKey
  | _ => policy

abbrev AdminEvent := Event Bytes Bytes Operation

def Policy.afterEvent (policy : Policy) (event : AdminEvent) : Policy :=
  event.operation.elim policy (Operation.effect policy)

/-- The policy after the calls that went through, in their order. -/
def Policy.after (policy : Policy) (history : List AdminEvent) : Policy :=
  history.foldl Policy.afterEvent policy

/-- `AddNode` does not write the default weight, so a node that is added with it has to have it
already. -/
def Policy.WeighsAdded (policy : Policy) : Operation → Prop
  | .addNode (some request) =>
    request.weight = defaultWeight → policy.weight request.key = defaultWeight
  | _ => True

/-- Whenever a node is added with the default weight, no other weight is left for it. -/
def Policy.AddsUnweighed (policy : Policy) (history : List AdminEvent) : Prop :=
  ∀ before event operation, before ++ [event] <+: history → event.operation = some operation →
    (policy.after before).WeighsAdded operation

theorem Policy.AddsUnweighed.front {policy : Policy} {history : List AdminEvent} {event : AdminEvent}
    (adds : policy.AddsUnweighed (history ++ [event])) : policy.AddsUnweighed history :=
  fun before _ _ inside asked => adds before _ _ (inside.trans (List.prefix_append _ _)) asked

theorem Policy.weigh_self {policy : Policy} {nodeKey : Bytes} {weight : Int}
    (same : policy.weight nodeKey = weight) : policy.weigh nodeKey weight = policy := by
  rw [Policy.weigh, ← same, Function.update_eq_self]

/-! The gateway record as a policy. -/

/-- `m[key]`, if the key is there. -/
def flag (keys : Option (Assoc Bytes Bool)) (key : Bytes) : Option Bool :=
  keys.bind fun stored => stored.lookup key

/-- Every key that is there is marked true. -/
def Marked (keys : Option (Assoc Bytes Bool)) : Prop := ∀ key, flag keys key ≠ some false

section Flags

variable {keys : Option (Assoc Bytes Bool)} {key : Bytes}

theorem mem_keySet_iff_flag : key ∈ keySet keys ↔ (flag keys key).isSome := by
  cases keys with
  | none => simp [flag]
  | some stored => rw [mem_keySet_some, flag, Option.bind_some, AList.lookup_isSome]

theorem Marked.none : Marked none := nofun

theorem Marked.empty : Marked (some ∅) := nofun

theorem Marked.insertKeys {inserted : List Bytes} (marked : Marked keys)
    (inserts : insertKeys inserted keys = some after) : Marked after := by
  unfold Admin.insertKeys at inserts
  split_ifs at inserts
  · cases inserts
    exact marked
  cases keys with
  | none => cases inserts
  | some stored =>
    cases inserts
    refine List.foldlRecOn (motive := fun stored => Marked (some stored)) inserted _ marked
      fun stored marked key _ other => ?_
    rw [flag, Option.bind_some, Assoc.lookup_insert_eq]
    split_ifs
    · simp
    · exact marked other

theorem Marked.deleteKey (marked : Marked keys) (key : Bytes) : Marked (deleteKey key keys) := by
  intro other
  cases keys with
  | none => exact (Option.some_ne_none false).symm
  | some stored =>
    rw [Discovery.deleteKey, Option.map_some, flag, Option.bind_some, Assoc.lookup_erase_eq]
    split_ifs
    · exact (Option.some_ne_none false).symm
    · exact marked other

theorem Marked.deleteKeys (marked : Marked keys) (deleted : List Bytes) :
    Marked (deleted.foldl (fun keys key => Discovery.deleteKey key keys) keys) :=
  List.foldlRecOn (motive := Marked) deleted _ marked fun _ marked key _ => marked.deleteKey key

end Flags

/-- The keys of both sets are marked. -/
def MarkedRoute (route : Option MethodRoute) : Prop :=
  Marked (route.bind MethodRoute.includeNodeKeys) ∧ Marked (route.bind MethodRoute.excludeNodeKeys)

theorem MarkedRoute.none : MarkedRoute none := ⟨.none, .none⟩

/-- The record has the weights and the sets of the policy. -/
structure Represents (gateway : GatewayBody) (policy : Policy) : Prop where
  distinct : gateway.Distinct
  weight : gateway.effectiveWeight = policy.weight
  included : gateway.included = policy.included
  excluded : gateway.excluded = policy.excluded
  marked : ∀ method, MarkedRoute (gateway.route method)

theorem Represents.initial : Represents ⟨[], none⟩ .initial where
  distinct := List.nodup_nil
  weight := rfl
  included := by
    funext method
    exact keySet_none
  excluded := by
    funext method
    exact keySet_none
  marked := fun _ => .none

/-- Two texts of the same policy: the weights are in the same order, and the maps hold the same. -/
structure Same (first second : GatewayBody) : Prop where
  weights : first.weights = second.weights
  includes : ∀ method key,
    flag ((first.route method).bind MethodRoute.includeNodeKeys) key =
      flag ((second.route method).bind MethodRoute.includeNodeKeys) key
  excludes : ∀ method key,
    flag ((first.route method).bind MethodRoute.excludeNodeKeys) key =
      flag ((second.route method).bind MethodRoute.excludeNodeKeys) key

section Edits

variable {gateway result : GatewayBody} {policy : Policy}

theorem Represents.of_same (represents : Represents gateway policy) (same : Same result gateway) :
    Represents result policy where
  distinct := by
    rw [GatewayBody.Distinct, same.weights]
    exact represents.distinct
  weight := by
    rw [← represents.weight]
    funext nodeKey
    rw [GatewayBody.effectiveWeight, GatewayBody.entries, same.weights]
    rfl
  included := by
    rw [← represents.included]
    ext method key
    rw [GatewayBody.included, GatewayBody.included, mem_keySet_iff_flag, mem_keySet_iff_flag,
      same.includes]
  excluded := by
    rw [← represents.excluded]
    ext method key
    rw [GatewayBody.excluded, GatewayBody.excluded, mem_keySet_iff_flag, mem_keySet_iff_flag,
      same.excludes]
  marked := by
    intro method
    have marked := represents.marked method
    refine ⟨fun key => ?_, fun key => ?_⟩
    · rw [same.includes]
      exact marked.1 key
    · rw [same.excludes]
      exact marked.2 key

theorem Represents.setWeight (represents : Represents gateway policy) (nodeKey : Bytes)
    (weight : Int) : Represents (gateway.setWeight nodeKey weight) (policy.weigh nodeKey weight) := by
  have routes (method : Bytes) :
      (gateway.setWeight nodeKey weight).route method = gateway.route method := by
    rw [GatewayBody.route, GatewayBody.methodRoutes_setWeight, GatewayBody.route]
  refine ⟨represents.distinct.setWeight nodeKey weight, ?_, ?_, ?_, fun method => ?_⟩
  · rw [GatewayBody.effectiveWeight_setWeight represents.distinct, represents.weight, Policy.weigh]
  · refine Eq.trans (funext fun method => ?_) represents.included
    rw [GatewayBody.included, routes, GatewayBody.included]
  · refine Eq.trans (funext fun method => ?_) represents.excluded
    rw [GatewayBody.excluded, routes, GatewayBody.excluded]
  · rw [routes]
    exact represents.marked method

/-- One route is edited. -/
theorem Represents.edited (represents : Represents gateway policy) {included excluded : Set Bytes}
    (edited : Edited gateway method included excluded result)
    (marked : MarkedRoute (result.route method)) :
    Represents result (policy.setRoute method included excluded) where
  distinct := by
    rw [GatewayBody.Distinct, edited.weights]
    exact represents.distinct
  weight := by
    refine Eq.trans (funext fun nodeKey => ?_) represents.weight
    rw [GatewayBody.effectiveWeight, GatewayBody.entries, edited.weights]
    rfl
  included := by
    rw [Policy.setRoute, ← represents.included]
    refine Function.eq_update_iff.mpr ⟨edited.inclusion, fun other apart => ?_⟩
    rw [GatewayBody.included, edited.others other apart, GatewayBody.included]
  excluded := by
    rw [Policy.setRoute, ← represents.excluded]
    refine Function.eq_update_iff.mpr ⟨edited.exclusion, fun other apart => ?_⟩
    rw [GatewayBody.excluded, edited.others other apart, GatewayBody.excluded]
  marked := by
    intro other
    by_cases here : other = method
    · rw [here]
      exact marked
    · rw [edited.others other here]
      exact represents.marked other

theorem Represents.addRouteKeys (represents : Represents gateway policy)
    (edits : addRouteKeys gateway request = some result) :
    Represents result (policy.addKeys request) := by
  have edited := addRouteKeys_edited edits
  rw [represents.included, represents.excluded] at edited
  refine represents.edited edited ?_
  rw [addRouteKeys_eq] at edits
  obtain ⟨included, wroteIncluded, edits⟩ := Option.bind_eq_some_iff.mp edits
  obtain ⟨excluded, wroteExcluded, edits⟩ := Option.bind_eq_some_iff.mp edits
  cases edits
  have base : Marked (baseRoute gateway request.method).includeNodeKeys ∧
      Marked (baseRoute gateway request.method).excludeNodeKeys := by
    have marked := represents.marked request.method
    unfold baseRoute
    cases found : gateway.route request.method with
    | none => exact ⟨.empty, .empty⟩
    | some route =>
      rw [found] at marked
      exact marked
  rw [route_insert, if_pos rfl]
  exact ⟨base.1.insertKeys wroteIncluded, base.2.insertKeys wroteExcluded⟩

theorem Represents.removeRouteKeys (represents : Represents gateway policy)
    (edits : removeRouteKeys gateway request = some result) :
    Represents result (policy.removeKeys request) := by
  obtain ⟨edited, -⟩ := removeRouteKeys_edited edits
  rw [represents.included, represents.excluded] at edited
  refine represents.edited edited ?_
  obtain ⟨route, found, -, after⟩ := removeRouteKeys_route edits
  have marked := represents.marked request.method
  rw [found] at marked
  rw [after, if_pos rfl, MethodRouteRequest.remove]
  split_ifs
  · exact .none
  · exact ⟨Marked.deleteKeys marked.1 _, Marked.deleteKeys marked.2 _⟩

theorem removeRoute_edited (edits : removeRoute gateway method = some result) :
    Edited gateway method ∅ ∅ result ∧ result.route method = none := by
  obtain ⟨routes, present, edits⟩ := Option.bind_eq_some_iff.mp edits
  obtain ⟨_, -, edits⟩ := Option.bind_eq_some_iff.mp edits
  cases edits
  have gone : GatewayBody.route { gateway with methodRoutes := some (routes.erase method) } method =
      none := AList.lookup_erase ..
  refine ⟨⟨?_, ?_, fun other apart => ?_, rfl⟩, gone⟩
  · rw [GatewayBody.included, gone, Option.bind_none, keySet_none]
  · rw [GatewayBody.excluded, gone, Option.bind_none, keySet_none]
  · rw [GatewayBody.route, GatewayBody.route, present]
    exact AList.lookup_erase_ne apart

theorem Represents.removeRoute (represents : Represents gateway policy)
    (edits : removeRoute gateway method = some result) :
    Represents result (policy.setRoute method ∅ ∅) := by
  obtain ⟨edited, gone⟩ := removeRoute_edited edits
  refine represents.edited edited ?_
  rw [gone]
  exact .none

theorem MarkedRoute.without (marked : MarkedRoute (some route)) (nodeKey : Bytes) :
    MarkedRoute (route.without nodeKey) := by
  unfold MethodRoute.without
  dsimp only
  split_ifs
  · exact .none
  · exact ⟨marked.1.deleteKey nodeKey, marked.2.deleteKey nodeKey⟩

theorem Represents.withoutNode (represents : Represents gateway policy) (nodeKey : Bytes) :
    Represents (withoutNode gateway nodeKey) (policy.forget nodeKey) := by
  have cleared := withoutNode_cleared represents.distinct nodeKey
  have weighed := represents.setWeight nodeKey defaultWeight
  refine ⟨weighed.distinct, weighed.weight, ?_, ?_, fun method => ?_⟩
  · funext method
    rw [cleared.included, represents.included, Policy.forget]
  · funext method
    rw [cleared.excluded, represents.excluded, Policy.forget]
  · rw [Admin.withoutNode, GatewayBody.route_clearMethodRoute]
    have marked := weighed.marked method
    cases found : (gateway.setWeight nodeKey defaultWeight).route method with
    | none => exact .none
    | some route =>
      rw [found] at marked
      exact marked.without nodeKey

end Edits

namespace Handler

variable (handler : Handler) (chainId : Bytes)

/-- What is written can be read back. -/
def Faithful : Prop :=
  ∀ gateway bytes, handler.marshalGateway gateway = .ok bytes →
    ∃ read, handler.unmarshalGateway bytes = .ok read ∧ Same read gateway

/-- The gateway in the store stands for this policy. -/
def Keeps (store : EtcdStore) (policy : Policy) : Prop :=
  ∃ gateway, handler.Reads chainId store gateway ∧ Represents gateway policy

variable {handler chainId} {store after : EtcdStore} {gateway : GatewayBody} {policy : Policy}

theorem Keeps.of_wrote (faithful : handler.Faithful) (wrote : handler.Wrote chainId store gateway)
    (represents : Represents gateway policy) : handler.Keeps chainId store policy := by
  obtain ⟨record, stored, marshals⟩ := wrote
  obtain ⟨read, unmarshals, same⟩ := faithful gateway record.value marshals
  refine ⟨read, ?_, represents.of_same same⟩
  rw [Reads, stored]
  exact unmarshals

theorem Keeps.of_records_eq (keeps : handler.Keeps chainId store policy)
    (same : after.records (gatewayKey handler.keyPrefix chainId) =
      store.records (gatewayKey handler.keyPrefix chainId)) :
    handler.Keeps chainId after policy := by
  obtain ⟨gateway, reads, represents⟩ := keeps
  refine ⟨gateway, ?_, represents⟩
  rw [Reads, same]
  exact reads

theorem storeWeight_keeps (faithful : handler.Faithful) (keeps : handler.Keeps chainId store policy)
    {next : Option Bytes → Answer} (fails : ∀ error, ¬Succeeds (next (some error)))
    (succeeds : Succeeds ((handler.storeWeight chainId nodeKey weight next).run store).1) :
    handler.Keeps chainId ((handler.storeWeight chainId nodeKey weight next).run store).2
      (policy.weigh nodeKey weight) := by
  obtain ⟨gateway, reads, represents⟩ := keeps
  rw [storeWeight, getGatewayConfig_run reads] at succeeds ⊢
  dsimp only at succeeds ⊢
  rw [updateGatewayConfig_run] at succeeds ⊢
  exact .of_wrote faithful (Wrote.of_stored fails succeeds) (represents.setWeight nodeKey weight)

/-- The three route handlers. -/
theorem editGateway_keeps (faithful : handler.Faithful) (keeps : handler.Keeps chainId store policy)
    {edit : GatewayBody → Option GatewayBody} {missing : Answer} {reply : GatewayBody → Reply}
    (refused : ¬Succeeds missing)
    (edits : ∀ gateway edited, Represents gateway policy → edit gateway = some edited →
      Represents edited changed)
    (succeeds : Succeeds ((handler.editGateway chainId edit missing reply).run store).1) :
    handler.Keeps chainId ((handler.editGateway chainId edit missing reply).run store).2 changed := by
  obtain ⟨gateway, reads, represents⟩ := keeps
  obtain ⟨edited, made, wrote⟩ := editGateway_succeeds reads refused succeeds
  exact .of_wrote faithful wrote (edits gateway edited represents made)

theorem deleteNodeCommit_keeps (faithful : handler.Faithful)
    (keeps : handler.Keeps chainId store policy)
    (succeeds : Succeeds ((handler.deleteNodeCommit chainId nodeKey).run store).1) :
    handler.Keeps chainId ((handler.deleteNodeCommit chainId nodeKey).run store).2
      (policy.forget nodeKey) := by
  obtain ⟨gateway, reads, represents⟩ := keeps
  rw [deleteNodeCommit, getGatewayConfig_run reads] at succeeds ⊢
  dsimp only at succeeds ⊢
  cases marshals : handler.marshalGateway
      ((gateway.setWeight nodeKey defaultWeight).clearMethodRoute nodeKey) with
  | error error =>
    rw [marshals] at succeeds
    exact absurd succeeds not_succeeds_error
  | ok bytes =>
    simp only [Program.run, meetsAll_stamp, if_true]
    exact .of_wrote faithful (Wrote.of_write marshals [_]) (represents.withoutNode nodeKey)

theorem setWeight_keeps (faithful : handler.Faithful) (keeps : handler.Keeps chainId store policy)
    (succeeds : Succeeds ((handler.setWeight chainId nodeKey weight pool).run store).1) :
    handler.Keeps chainId ((handler.setWeight chainId nodeKey weight pool).run store).2
      ((Operation.setWeight nodeKey weight pool).effect policy) := by
  unfold setWeight at succeeds ⊢
  cases weight with
  | none =>
    dsimp only at succeeds
    split_ifs at succeeds
    all_goals exact absurd succeeds not_succeeds_error
  | some weight =>
    dsimp only at succeeds ⊢
    split_ifs at succeeds ⊢
    · exact absurd succeeds not_succeeds_error
    · exact absurd succeeds not_succeeds_error
    · exact absurd succeeds not_succeeds_error
    · exact storeWeight_keeps faithful keeps (fun _ => not_succeeds_error) succeeds

theorem deleteWeight_keeps (faithful : handler.Faithful) (keeps : handler.Keeps chainId store policy)
    (succeeds : Succeeds ((handler.deleteWeight chainId nodeKey pool).run store).1) :
    handler.Keeps chainId ((handler.deleteWeight chainId nodeKey pool).run store).2
      (policy.weigh nodeKey defaultWeight) := by
  unfold deleteWeight at succeeds ⊢
  split_ifs at succeeds ⊢
  · exact absurd succeeds not_succeeds_error
  · exact absurd succeeds not_succeeds_error
  · exact storeWeight_keeps faithful keeps (fun _ => not_succeeds_error) succeeds

theorem addNode_keeps (faithful : handler.Faithful) (keeps : handler.Keeps chainId store policy)
    (weighs : policy.WeighsAdded (.addNode (some request)))
    (succeeds : Succeeds ((handler.addNode chainId (some request)).run store).1) :
    handler.Keeps chainId ((handler.addNode chainId (some request)).run store).2
      ((Operation.addNode (some request)).effect policy) := by
  obtain ⟨gateway, reads, represents⟩ := keeps
  have written := addNode_gateway reads succeeds
  by_cases default : request.weight = defaultWeight
  · rw [if_pos default] at written
    rw [Operation.effect, default, Policy.weigh_self (weighs default)]
    exact ⟨gateway, written, represents⟩
  · rw [if_neg default] at written
    exact .of_wrote faithful written (represents.setWeight request.key request.weight)

/-- The checks of a route request come before the edit. -/
theorem checkRouteRequest_keeps {next : MethodRouteRequest → Call}
    {request : Option MethodRouteRequest}
    (keeps : ∀ body, request = some body → Succeeds ((next body).run store).1 →
      handler.Keeps chainId ((next body).run store).2 changed)
    (succeeds : Succeeds ((checkRouteRequest chainId request pool next).run store).1) :
    handler.Keeps chainId ((checkRouteRequest chainId request pool next).run store).2 changed := by
  cases request with
  | none => exact absurd succeeds not_succeeds_error
  | some body =>
    have accepted := checkRouteRequest_succeeds succeeds
    rw [checkRouteRequest_accepted accepted] at succeeds ⊢
    exact keeps body rfl succeeds

/-- A guarded call run on its own. -/
theorem call_keeps (faithful : handler.Faithful) (keeps : handler.Keeps chainId store policy)
    {operation : Operation} (guarded : ¬operation.Unguarded) (weighs : policy.WeighsAdded operation)
    (succeeds : Succeeds ((handler.call chainId operation).run store).1) :
    handler.Keeps chainId ((handler.call chainId operation).run store).2
      (operation.effect policy) := by
  cases operation with
  | setWeight nodeKey weight pool => exact setWeight_keeps faithful keeps succeeds
  | deleteWeight nodeKey pool => exact deleteWeight_keeps faithful keeps succeeds
  | addMethodRoute request pool =>
    refine checkRouteRequest_keeps (fun body same stored => ?_) succeeds
    subst same
    exact editGateway_keeps faithful keeps Bool.false_ne_true
      (fun _ _ represents edits => represents.addRouteKeys edits) stored
  | removeMethodRoute request pool =>
    refine checkRouteRequest_keeps (fun body same stored => ?_) succeeds
    subst same
    exact editGateway_keeps faithful keeps not_succeeds_error
      (fun _ _ represents edits => represents.removeRouteKeys edits) stored
  | deleteMethodRoute method =>
    exact editGateway_keeps faithful keeps not_succeeds_error
      (fun _ _ represents edits => represents.removeRoute edits) succeeds
  | addNode request =>
    cases request with
    | none => exact absurd succeeds not_succeeds_error
    | some request => exact addNode_keeps faithful keeps weighs succeeds
  | updateNode nodeKey request => exact absurd trivial guarded
  | deleteNode nodeKey => exact absurd trivial guarded

/-! Interleaved calls. -/

variable {reads : List (Bytes × Option (Record Bytes))} {guards : List (Guard Bytes)}
  {writes : List (Write Bytes Bytes)} {answer : Except Bytes Bool → Answer}

/-- A transaction that ends a guarded program does what the program would do here. -/
theorem run_of_commit {program : Call} (optimistic : program.Optimistic Succeeds [])
    (reaches : program.Reaches store reads (.commit guards writes answer))
    (met : store.meetsAll guards = true) :
    Succeeds (program.run store).1 ∧ (program.run store).2 = store.write writes := by
  have reached : (Program.commit guards writes answer).Honest Succeeds :=
    optimistic.honest.reached reaches
  rw [reaches.run_eq optimistic met, Program.run, if_pos met]
  exact ⟨reached.1, rfl⟩

/-- `UpdateNode` writes its node and nothing else. -/
theorem updateNode_writes
    (reaches : (handler.updateNode chainId nodeKey request).Reaches store reads
      (.commit guards writes answer)) :
    ∃ bytes, writes = [.put (nodeEtcdKey handler.keyPrefix chainId nodeKey) bytes] := by
  unfold updateNode at reaches
  cases request with
  | none => cases reaches.of_done
  | some request =>
    dsimp only at reaches
    cases refused : request.validate with
    | some answer =>
      rw [refused] at reaches
      cases reaches.of_done
    | none =>
      rw [refused] at reaches
      obtain ⟨_, before, _, -, -, -, reaches⟩ := getManualNode_reaches reaches
      unfold updateNodeCommit at reaches
      cases marshals : handler.marshalNode (request.apply before) with
      | error error =>
        rw [marshals] at reaches
        cases reaches.of_done
      | ok bytes =>
        rw [marshals] at reaches
        cases reaches
        exact ⟨bytes, rfl⟩

/-- The transaction of any call, at the moment it goes through. `DeleteNode` may find its node gone
or replaced by then; its edit of the gateway is still made on the gateway as it is. -/
theorem commit_keeps (faithful : handler.Faithful) (keeps : handler.Keeps chainId store policy)
    {operation : Operation} (weighs : policy.WeighsAdded operation)
    (reaches : (handler.call chainId operation).Reaches store reads (.commit guards writes answer))
    (met : store.meetsAll guards = true) :
    handler.Keeps chainId (store.write writes) (operation.effect policy) := by
  by_cases guarded : operation.Unguarded
  · cases operation with
    | updateNode nodeKey request =>
      obtain ⟨bytes, rfl⟩ := updateNode_writes reaches
      refine keeps.of_records_eq (RevisionStore.records_write_of_ne ?_ store)
      simpa [Write.key] using nodeEtcdKey_ne_gatewayKey _ _ _
    | deleteNode nodeKey =>
      obtain ⟨_, _, _, -, -, -, reaches⟩ := getManualNode_reaches reaches
      obtain ⟨succeeds, written⟩ := run_of_commit (deleteNodeCommit_optimistic nodeKey) reaches met
      rw [← written]
      exact deleteNodeCommit_keeps faithful keeps succeeds
    | _ => cases guarded
  · obtain ⟨succeeds, written⟩ := run_of_commit (call_optimistic operation guarded) reaches met
    rw [← written]
    exact call_keeps faithful keeps guarded weighs succeeds

/-- The history leaves the gateway to the handlers. -/
def LeavesGateway (handler : Handler) (chainId : Bytes) (history : List AdminEvent) : Prop :=
  ∀ writes, .external writes ∈ history → ∀ write ∈ writes,
    write.key ≠ gatewayKey handler.keyPrefix chainId

theorem keeps_of_run {schedule : List AdminAction} {final : AdminPool} (faithful : handler.Faithful)
    (keeps : handler.Keeps chainId store policy)
    (run : exec (Pool.step (handler.call chainId)) (Pool.start store) schedule = some final)
    (leaves : handler.LeavesGateway chainId final.history)
    (adds : policy.AddsUnweighed final.history) :
    handler.Keeps chainId final.store (policy.after final.history) := by
  refine exec_induction (motive := fun _ (final : AdminPool) =>
    handler.LeavesGateway chainId final.history → policy.AddsUnweighed final.history →
      handler.Keeps chainId final.store (policy.after final.history)) (fun _ _ => keeps) ?_ run
    leaves adds
  intro schedule pool action final before inductionHypothesis stepped leaves adds
  rcases Pool.step_cases stepped with ⟨operation, -, rfl⟩ | ⟨index, client, moved, -, -, rfl⟩ |
    ⟨index, client, guards, writes, answer, reply, event, applies, found, rest, met, rfl⟩ |
    ⟨writes, -, rfl⟩
  · exact inductionHypothesis leaves adds
  · exact inductionHypothesis leaves adds
  · have kept := inductionHypothesis
      (fun writes member => leaves writes (List.mem_append_left _ member)) adds.front
    have weighs := adds pool.history event client.operation List.prefix_rfl applies.operation_eq
    show handler.Keeps chainId (pool.store.write writes) (policy.after (pool.history ++ [event]))
    rw [Policy.after, List.foldl_concat, Policy.afterEvent, applies.operation_eq]
    rcases (Pool.accounted_of_run call_honest before).settled index client found with
      ⟨reaches, -⟩ | ⟨_, done, -⟩
    · rw [rest] at reaches
      exact commit_keeps faithful kept weighs reaches met
    · cases done.symm.trans rest
  · have kept := inductionHypothesis
      (fun writes member => leaves writes (List.mem_append_left _ member)) adds.front
    show handler.Keeps chainId (pool.store.write writes)
      (policy.after (pool.history ++ [.external writes]))
    rw [Policy.after, List.foldl_concat]
    exact kept.of_records_eq (RevisionStore.records_write_of_ne
      (leaves writes (by simp)) pool.store)

end Handler

theorem sampleHandler_faithful : sampleHandler.Faithful := by
  intro gateway bytes marshals
  simp only [sampleHandler] at marshals
  split_ifs at marshals with weights empty
  · cases marshals
    exact ⟨gateway, by rw [weights]; rfl, rfl, fun _ _ => rfl, fun _ _ => rfl⟩
  · cases marshals
    exact ⟨gateway, by rw [empty]; rfl, rfl, fun _ _ => rfl, fun _ _ => rfl⟩

/-- A weight is set, but the reply to the transaction is lost. Then another node is added with the
default weight. -/
def lostWeight : List AdminAction :=
  [.submit (.setWeight (ascii "n") (some 50) (some [ascii "n"])), .advance 0,
    .lose 0 (ascii "context deadline exceeded"),
    .submit (.addNode (some ⟨1, ascii "m", ascii "10.0.0.1", 8545, 1, 100⟩)), .advance 1, .advance 1]

end NodexProxy.Admin
