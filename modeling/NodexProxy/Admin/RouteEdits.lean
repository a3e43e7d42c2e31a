import NodexProxy.Admin.Content
import NodexProxy.Admin.NodeUpdates

/-! The method-route handlers on the sets of node keys they edit. `AddMethodRoute` writes into the
key maps as they were decoded, and a set that was null or missing is no map to write into. -/

namespace NodexProxy.Admin

open NodexProxy.Foundation NodexProxy.Discovery

/-- The keys a request lists. -/
def listed (keys : List Bytes) : Set Bytes := { key | key ∈ keys }

section InsertKeys

variable {keys : List Bytes} {stored : Option (Assoc Bytes Bool)}

theorem mem_foldl_insert {key : Bytes} (keys : List Bytes) (stored : Assoc Bytes Bool) :
    key ∈ keys.foldl (fun stored key => stored.insert key true) stored ↔
      key ∈ stored ∨ key ∈ keys := by
  induction keys generalizing stored with
  | nil => simp
  | cons first rest inductionHypothesis =>
    rw [List.foldl_cons, inductionHypothesis, AList.mem_insert, List.mem_cons]
    tauto

theorem keySet_insertKeys (inserted : insertKeys keys stored = some after) :
    keySet after = keySet stored ∪ listed keys := by
  unfold insertKeys at inserted
  split_ifs at inserted with empty
  · cases inserted
    simp [listed, empty]
  · cases stored with
    | none => cases inserted
    | some stored =>
      cases inserted
      ext key
      simp [listed, mem_foldl_insert]

theorem insertKeys_eq_none : insertKeys keys stored = none ↔ keys ≠ [] ∧ stored = none := by
  unfold insertKeys
  split_ifs with empty
  · simp [empty]
  · cases stored <;> simp [empty]

end InsertKeys

/-- One method has these sets now, and all else is as it was. -/
structure Edited (gateway : GatewayBody) (method : Bytes) (included excluded : Set Bytes)
    (result : GatewayBody) : Prop where
  inclusion : result.included method = included
  exclusion : result.excluded method = excluded
  others : ∀ other, other ≠ method → result.route other = gateway.route other
  weights : result.weights = gateway.weights

/-- There is a map to write each requested key into. -/
def Writable (gateway : GatewayBody) (request : MethodRouteRequest) : Prop :=
  ∀ route, gateway.route request.method = some route →
    (request.includeNodeKeys ≠ [] → route.includeNodeKeys ≠ none) ∧
      (request.excludeNodeKeys ≠ [] → route.excludeNodeKeys ≠ none)

/-- The route `AddMethodRoute` writes into: the stored one, or a new one with two empty maps. -/
def baseRoute (gateway : GatewayBody) (method : Bytes) : MethodRoute :=
  (gateway.route method).getD ⟨some ∅, some ∅⟩

section AddRouteKeys

variable {gateway result : GatewayBody} {request : MethodRouteRequest}

theorem lookup_methodRoutes (gateway : GatewayBody) (method : Bytes) :
    (gateway.methodRoutes.getD ∅).lookup method = gateway.route method := by
  unfold GatewayBody.route
  cases gateway.methodRoutes <;> rfl

theorem keySet_baseRoute (gateway : GatewayBody) (method : Bytes) :
    keySet (baseRoute gateway method).includeNodeKeys = gateway.included method ∧
      keySet (baseRoute gateway method).excludeNodeKeys = gateway.excluded method := by
  have empty : keySet (some ∅) = ∅ := by
    ext key
    simp
  unfold baseRoute GatewayBody.included GatewayBody.excluded
  cases gateway.route method with
  | none => simp [empty]
  | some route => simp

theorem writable_iff : Writable gateway request ↔
    insertKeys request.includeNodeKeys (baseRoute gateway request.method).includeNodeKeys ≠ none ∧
      insertKeys request.excludeNodeKeys (baseRoute gateway request.method).excludeNodeKeys ≠
        none := by
  simp only [ne_eq, insertKeys_eq_none, not_and]
  unfold Writable baseRoute
  cases gateway.route request.method <;> simp

/-- The edit of `AddMethodRoute`, by the two maps it writes into. -/
theorem addRouteKeys_eq : addRouteKeys gateway request =
    (insertKeys request.includeNodeKeys (baseRoute gateway request.method).includeNodeKeys).bind
      fun included =>
        (insertKeys request.excludeNodeKeys
          (baseRoute gateway request.method).excludeNodeKeys).bind fun excluded =>
            some { gateway with methodRoutes := some ((gateway.methodRoutes.getD ∅).insert
              request.method ⟨included, excluded⟩) } := by
  unfold addRouteKeys baseRoute
  rw [← lookup_methodRoutes]
  rfl

theorem route_insert (gateway : GatewayBody) (method other : Bytes) (route : MethodRoute) :
    GatewayBody.route { gateway with
      methodRoutes := some ((gateway.methodRoutes.getD ∅).insert method route) } other =
      if other = method then some route else gateway.route other := by
  unfold GatewayBody.route
  rw [Option.bind_some, Assoc.lookup_insert_eq]
  split_ifs
  · rfl
  · exact lookup_methodRoutes gateway other

theorem addRouteKeys_edited (edits : addRouteKeys gateway request = some result) :
    Edited gateway request.method (gateway.included request.method ∪ listed request.includeNodeKeys)
      (gateway.excluded request.method ∪ listed request.excludeNodeKeys) result := by
  rw [addRouteKeys_eq] at edits
  obtain ⟨included, wroteIncluded, edits⟩ := Option.bind_eq_some_iff.mp edits
  obtain ⟨excluded, wroteExcluded, edits⟩ := Option.bind_eq_some_iff.mp edits
  cases edits
  have base := keySet_baseRoute gateway request.method
  refine ⟨?_, ?_, ?_, rfl⟩
  · rw [GatewayBody.included, route_insert, if_pos rfl, ← base.1]
    exact keySet_insertKeys wroteIncluded
  · rw [GatewayBody.excluded, route_insert, if_pos rfl, ← base.2]
    exact keySet_insertKeys wroteExcluded
  · intro other apart
    rw [route_insert, if_neg apart]

theorem addRouteKeys_of_writable (writable : Writable gateway request) :
    ∃ result, addRouteKeys gateway request = some result := by
  obtain ⟨includes, excludes⟩ := writable_iff.mp writable
  obtain ⟨included, wroteIncluded⟩ := Option.ne_none_iff_exists'.mp includes
  obtain ⟨excluded, wroteExcluded⟩ := Option.ne_none_iff_exists'.mp excludes
  rw [addRouteKeys_eq, wroteIncluded, Option.bind_some, wroteExcluded]
  exact ⟨_, rfl⟩

theorem addRouteKeys_panics (blocked : ¬Writable gateway request) :
    addRouteKeys gateway request = none := by
  rw [writable_iff, not_and_or, not_not, not_not] at blocked
  rw [addRouteKeys_eq]
  rcases blocked with includes | excludes
  · rw [includes]
    rfl
  · rw [excludes]
    cases insertKeys request.includeNodeKeys
      (baseRoute gateway request.method).includeNodeKeys <;> rfl

end AddRouteKeys

/-- The request passes the checks the route handlers share. -/
def Accepted (chainId : Bytes) (pool : Option (List Bytes)) (request : MethodRouteRequest) : Prop :=
  checkNodeExist chainId pool request = none ∧ request.method ≠ []

instance : Decidable (Accepted chainId pool request) := inferInstanceAs (Decidable (_ ∧ _))

theorem checkRouteRequest_accepted (accepted : Accepted chainId pool request)
    (next : MethodRouteRequest → Call) :
    Handler.checkRouteRequest chainId (some request) pool next = next request := by
  simp only [Handler.checkRouteRequest, accepted.1]
  rw [if_neg accepted.2]

theorem checkRouteRequest_succeeds {next : MethodRouteRequest → Call} {store : EtcdStore}
    (succeeds : Succeeds
      ((Handler.checkRouteRequest chainId (some request) pool next).run store).1) :
    Accepted chainId pool request := by
  simp only [Handler.checkRouteRequest] at succeeds
  cases checked : checkNodeExist chainId pool request with
  | some error =>
    rw [checked] at succeeds
    exact absurd succeeds not_succeeds_error
  | none =>
    refine ⟨checked, fun unnamed => ?_⟩
    simp only [checked, unnamed, if_true] at succeeds
    exact absurd succeeds not_succeeds_error

theorem stored_not_panicked (handler : Handler) (chainId : Bytes) (store : EtcdStore)
    (gateway : GatewayBody) (reply : Reply) :
    (handler.stored chainId store gateway (Handler.editAnswer reply)).1 ≠ .panicked := by
  unfold Handler.stored
  cases handler.marshalGateway gateway with
  | error error => exact Answer.noConfusion
  | ok bytes => exact Answer.noConfusion

/-- An accepted `AddMethodRoute` commits the union of the sets, without a panic, exactly when the
stored route has a map for each set that gets keys. -/
theorem addMethodRoute_union_iff (handler : Handler) (chainId : Bytes) (store : EtcdStore)
    (gateway : GatewayBody) (pool : Option (List Bytes)) (request : MethodRouteRequest)
    (reads : handler.Reads chainId store gateway) (accepted : Accepted chainId pool request) :
    (((handler.addMethodRoute chainId (some request) pool).run store).1 ≠ .panicked ∧
      ∃ result, Edited gateway request.method
          (gateway.included request.method ∪ listed request.includeNodeKeys)
          (gateway.excluded request.method ∪ listed request.excludeNodeKeys) result ∧
        (handler.addMethodRoute chainId (some request) pool).run store =
          handler.stored chainId store result
            (Handler.editAnswer (convertMethodRouteToResponse result request.method))) ↔
      Writable gateway request := by
  rw [Handler.addMethodRoute, checkRouteRequest_accepted accepted]
  constructor
  · rintro ⟨answered, -⟩
    by_contra blocked
    rw [Handler.editGateway_missing reads (addRouteKeys_panics blocked)] at answered
    exact answered rfl
  · intro writable
    obtain ⟨result, edits⟩ := addRouteKeys_of_writable writable
    rw [Handler.editGateway_run reads edits]
    exact ⟨stored_not_panicked handler chainId store result _, result, addRouteKeys_edited edits,
      rfl⟩

/-! One route, written by another tool: it has no exclude set. -/

def halfRoute : GatewayBody :=
  ⟨[], some [⟨ascii "eth_call", ⟨some [⟨ascii "n", true⟩].toAList, none⟩⟩].toAList⟩

def halfRouteText : Bytes :=
  ascii "\x7b\"method_routes\":\x7b\"eth_call\":\x7b\"include_node_keys\":" ++
    ascii "\x7b\"n\":true\x7d\x7d\x7d\x7d"

def routeHandler : Handler :=
  { sampleHandler with
    marshalGateway := fun gateway =>
      -- an empty map is left out
      if gateway = ⟨[], some ∅⟩ then .ok (ascii "\x7b\x7d")
      else if gateway = halfRoute then
        .ok (ascii "\x7b\"method_routes\":\x7b\"eth_call\":\x7b\"include_node_keys\":" ++
          ascii "\x7b\"n\":true\x7d,\"exclude_node_keys\":null\x7d\x7d\x7d")
      else sampleHandler.marshalGateway gateway
    unmarshalGateway := fun text =>
      if text = halfRouteText then .ok halfRoute else sampleHandler.unmarshalGateway text }

def routeStore : EtcdStore :=
  sampleStore.write [.put (ascii "/1/gateway") halfRouteText]

/-- A request that includes a node is fine with it. -/
theorem addMethodRoute_union_include :
    ∃ result, result.included (ascii "eth_call") =
        halfRoute.included (ascii "eth_call") ∪ listed [ascii "n"] ∧
      (routeHandler.addMethodRoute (ascii "1") (some ⟨ascii "eth_call", [ascii "n"], []⟩)
        (some [ascii "n"])).run routeStore = routeHandler.stored (ascii "1") routeStore result
          (Handler.editAnswer (convertMethodRouteToResponse result (ascii "eth_call"))) := by
  have reads : routeHandler.Reads (ascii "1") routeStore halfRoute := rfl
  have writable : Writable halfRoute ⟨ascii "eth_call", [ascii "n"], []⟩ := by
    intro route there
    cases there
    simp
  obtain ⟨-, result, edited, ran⟩ := (addMethodRoute_union_iff routeHandler (ascii "1") routeStore
    halfRoute (some [ascii "n"]) ⟨ascii "eth_call", [ascii "n"], []⟩ reads (by decide)).mpr writable
  exact ⟨result, edited.inclusion, ran⟩

/-- A request that excludes one writes to the map that is not there. -/
theorem addMethodRoute_panics_half :
    let request : MethodRouteRequest := ⟨ascii "eth_call", [], [ascii "n"]⟩
    routeHandler.Reads (ascii "1") routeStore halfRoute ∧
    Accepted (ascii "1") (some [ascii "n"]) request ∧
    ((routeHandler.addMethodRoute (ascii "1") (some request) (some [ascii "n"])).run
      routeStore).1 = .panicked := by
  refine ⟨rfl, by decide, by decide⟩

section RemoveRouteKeys

variable {gateway result : GatewayBody} {request : MethodRouteRequest}

/-- What is left of a route, or none if nothing is. -/
def MethodRouteRequest.remove (request : MethodRouteRequest) (route : MethodRoute) :
    Option MethodRoute :=
  let included := request.includeNodeKeys.foldl (fun keys key => deleteKey key keys)
    route.includeNodeKeys
  let excluded := request.excludeNodeKeys.foldl (fun keys key => deleteKey key keys)
    route.excludeNodeKeys
  if keyCount included = 0 ∧ keyCount excluded = 0 then none else some ⟨included, excluded⟩

/-- The route is deleted up to three times and may be put back; only the last step counts. -/
theorem removeRouteKeys_route (edits : removeRouteKeys gateway request = some result) :
    ∃ route, gateway.route request.method = some route ∧
      result.weights = gateway.weights ∧ ∀ method, result.route method =
        if method = request.method then request.remove route else gateway.route method := by
  unfold removeRouteKeys at edits
  obtain ⟨routes, present, edits⟩ := Option.bind_eq_some_iff.mp edits
  obtain ⟨route, found, edits⟩ := Option.bind_eq_some_iff.mp edits
  cases edits
  have same (method : Bytes) : gateway.route method = routes.lookup method := by
    rw [GatewayBody.route, present, Option.bind_some]
  refine ⟨route, (same _).trans found, rfl, fun method => ?_⟩
  rw [same, MethodRouteRequest.remove, GatewayBody.route, Option.bind_some]
  by_cases here : method = request.method
  · rw [if_pos here, here]
    split_ifs <;> simp
  · rw [if_neg here]
    split_ifs <;> simp [here]

theorem removeRouteKeys_edited (edits : removeRouteKeys gateway request = some result) :
    Edited gateway request.method
      (gateway.included request.method \ listed request.includeNodeKeys)
      (gateway.excluded request.method \ listed request.excludeNodeKeys) result ∧
      (result.route request.method = none ↔
        gateway.included request.method \ listed request.includeNodeKeys = ∅ ∧
          gateway.excluded request.method \ listed request.excludeNodeKeys = ∅) := by
  obtain ⟨route, found, weights, after⟩ := removeRouteKeys_route edits
  have here := after request.method
  rw [if_pos rfl, MethodRouteRequest.remove] at here
  have included : gateway.included request.method = keySet route.includeNodeKeys := by
    rw [GatewayBody.included, found, Option.bind_some]
  have excluded : gateway.excluded request.method = keySet route.excludeNodeKeys := by
    rw [GatewayBody.excluded, found, Option.bind_some]
  rw [included, excluded]
  have others (other : Bytes) (apart : other ≠ request.method) :
      result.route other = gateway.route other := by
    rw [after, if_neg apart]
  simp only [keyCount_eq_zero, keySet_deleteKeys] at here
  split_ifs at here with empty
  · refine ⟨⟨?_, ?_, others, weights⟩, by simp only [here, listed, empty, and_self]⟩
    · rw [GatewayBody.included, here, Option.bind_none, keySet_none]
      exact empty.1.symm
    · rw [GatewayBody.excluded, here, Option.bind_none, keySet_none]
      exact empty.2.symm
  · refine ⟨⟨?_, ?_, others, weights⟩, ?_⟩
    · rw [GatewayBody.included, here, Option.bind_some]
      exact keySet_deleteKeys ..
    · rw [GatewayBody.excluded, here, Option.bind_some]
      exact keySet_deleteKeys ..
    · rw [here]
      exact ⟨fun absent => absurd absent (Option.some_ne_none _), fun both => absurd both empty⟩

end RemoveRouteKeys

/-- A gateway without one node: nothing else is lost, and no route is empty. -/
structure Cleared (gateway : GatewayBody) (nodeKey : Bytes) (result : GatewayBody) : Prop where
  weights : nodeKey ∉ result.weights.map WeightInfo.nodeKey
  included : ∀ method, result.included method = gateway.included method \ {nodeKey}
  excluded : ∀ method, result.excluded method = gateway.excluded method \ {nodeKey}
  others : ∀ other, other ≠ nodeKey → result.effectiveWeight other = gateway.effectiveWeight other
  nonempty : ∀ method route, result.route method = some route →
    ¬(keySet route.includeNodeKeys = ∅ ∧ keySet route.excludeNodeKeys = ∅)

/-- The gateway `DeleteNode` writes. -/
def withoutNode (gateway : GatewayBody) (nodeKey : Bytes) : GatewayBody :=
  (gateway.setWeight nodeKey defaultWeight).clearMethodRoute nodeKey

theorem withoutNode_cleared {gateway : GatewayBody} (distinct : gateway.Distinct)
    (nodeKey : Bytes) : Cleared gateway nodeKey (withoutNode gateway nodeKey) := by
  have routes (method : Bytes) :
      (gateway.setWeight nodeKey defaultWeight).route method = gateway.route method := by
    rw [GatewayBody.route, GatewayBody.methodRoutes_setWeight, GatewayBody.route]
  refine ⟨GatewayBody.setWeight_default_absent distinct nodeKey, ?_, ?_, ?_, ?_⟩
  · intro method
    rw [withoutNode, GatewayBody.included_clearMethodRoute, GatewayBody.included, routes,
      GatewayBody.included]
  · intro method
    rw [withoutNode, GatewayBody.excluded_clearMethodRoute, GatewayBody.excluded, routes,
      GatewayBody.excluded]
  · intro other apart
    have weighed := GatewayBody.effectiveWeight_setWeight distinct nodeKey defaultWeight
    calc (withoutNode gateway nodeKey).effectiveWeight other
        = (gateway.setWeight nodeKey defaultWeight).effectiveWeight other := rfl
      _ = gateway.effectiveWeight other := by rw [weighed, Function.update_of_ne apart]
  · intro method route there
    exact GatewayBody.clearMethodRoute_nonempty there

theorem deleteNode_run {handler : Handler} {store : EtcdStore}
    (manual : handler.Manual chainId nodeKey store node)
    (reads : handler.Reads chainId store gateway) :
    (handler.deleteNode chainId nodeKey).run store =
      match handler.marshalGateway (withoutNode gateway nodeKey) with
      | .error _ => (.error 500 (ascii "failed to marshal gateway config"), store)
      | .ok bytes =>
        (.ok (.message (ascii "node " ++ nodeKey ++ ascii " deleted successfully")),
          store.write [.delete (nodeEtcdKey handler.keyPrefix chainId nodeKey),
            .put (gatewayKey handler.keyPrefix chainId) bytes]) := by
  rw [Handler.deleteNode, Handler.getManualNode_run manual, Handler.deleteNodeCommit,
    Handler.getGatewayConfig_run reads]
  dsimp only
  rw [← withoutNode]
  cases handler.marshalGateway (withoutNode gateway nodeKey) with
  | error error => rfl
  | ok bytes => exact if_pos (Handler.meetsAll_stamp store _)

theorem deleteNode_writes {handler : Handler} {store : EtcdStore}
    (reads : handler.Reads chainId store gateway)
    (succeeds : Succeeds ((handler.deleteNode chainId nodeKey).run store).1) :
    handler.Wrote chainId ((handler.deleteNode chainId nodeKey).run store).2
      (withoutNode gateway nodeKey) := by
  obtain ⟨node, manual⟩ := Handler.getManualNode_succeeds succeeds
  rw [deleteNode_run manual reads] at succeeds ⊢
  cases marshals : handler.marshalGateway (withoutNode gateway nodeKey) with
  | error error =>
    rw [marshals] at succeeds
    exact absurd succeeds not_succeeds_error
  | ok bytes => exact Handler.Wrote.of_write marshals [_]

/-- `RemoveMethodRoute` takes the requested keys out of one route, and `DeleteNode` takes its node
out of the gateway; neither leaves an empty route. -/
theorem routeRemoval_is_difference (handler : Handler) (chainId : Bytes) (store : EtcdStore)
    (gateway : GatewayBody) (reads : handler.Reads chainId store gateway) :
    (∀ request pool,
      Succeeds ((handler.removeMethodRoute chainId (some request) pool).run store).1 →
      ∃ result, handler.Wrote chainId
          ((handler.removeMethodRoute chainId (some request) pool).run store).2 result ∧
        Edited gateway request.method
          (gateway.included request.method \ listed request.includeNodeKeys)
          (gateway.excluded request.method \ listed request.excludeNodeKeys) result ∧
        (result.route request.method = none ↔
          result.included request.method = ∅ ∧ result.excluded request.method = ∅)) ∧
    (gateway.Distinct → ∀ nodeKey,
      Cleared gateway nodeKey (withoutNode gateway nodeKey) ∧
        (Succeeds ((handler.deleteNode chainId nodeKey).run store).1 →
          handler.Wrote chainId ((handler.deleteNode chainId nodeKey).run store).2
            (withoutNode gateway nodeKey))) := by
  refine ⟨fun request pool succeeds => ?_, fun distinct nodeKey => ?_⟩
  · rw [Handler.removeMethodRoute] at succeeds ⊢
    have accepted := checkRouteRequest_succeeds succeeds
    rw [checkRouteRequest_accepted accepted] at succeeds ⊢
    obtain ⟨result, edits, wrote⟩ :=
      Handler.editGateway_succeeds reads not_succeeds_error succeeds
    obtain ⟨edited, absent⟩ := removeRouteKeys_edited edits
    refine ⟨result, wrote, edited, ?_⟩
    rw [edited.inclusion, edited.exclusion]
    exact absent
  · exact ⟨withoutNode_cleared distinct nodeKey, deleteNode_writes reads⟩

/-- The only key of the route, removed by a request and with its node. -/
theorem routeRemoval_last_key :
    (∃ result, routeHandler.Wrote (ascii "1") ((routeHandler.removeMethodRoute (ascii "1")
        (some ⟨ascii "eth_call", [ascii "n"], []⟩) (some [ascii "n"])).run routeStore).2 result ∧
      result.included (ascii "eth_call") =
        halfRoute.included (ascii "eth_call") \ listed [ascii "n"]) ∧
    routeHandler.Wrote (ascii "1")
      ((routeHandler.deleteNode (ascii "1") (ascii "n")).run routeStore).2
      (withoutNode halfRoute (ascii "n")) := by
  have reads : routeHandler.Reads (ascii "1") routeStore halfRoute := rfl
  have manual : routeHandler.Manual (ascii "1") (ascii "n") routeStore sampleNode :=
    ⟨_, rfl, rfl, rfl⟩
  have marshals : routeHandler.marshalGateway ⟨[], some ∅⟩ = .ok (ascii "\x7b\x7d") := if_pos rfl
  have removed : removeRouteKeys halfRoute ⟨ascii "eth_call", [ascii "n"], []⟩ =
    some ⟨[], some ∅⟩ := rfl
  have cleared : withoutNode halfRoute (ascii "n") = ⟨[], some ∅⟩ := rfl
  obtain ⟨removes, deletes⟩ :=
    routeRemoval_is_difference routeHandler (ascii "1") routeStore halfRoute reads
  obtain ⟨result, wrote, edited, -⟩ := removes ⟨ascii "eth_call", [ascii "n"], []⟩
    (some [ascii "n"]) (by
      rw [Handler.removeMethodRoute, checkRouteRequest_accepted (by decide),
        Handler.editGateway_run reads removed, Handler.stored, marshals]
      exact succeeds_ok _)
  exact ⟨⟨result, wrote, edited.inclusion⟩, (deletes (by decide) (ascii "n")).2 (by
    rw [deleteNode_run manual reads, cleared, marshals]
    exact succeeds_ok _)⟩

end NodexProxy.Admin
