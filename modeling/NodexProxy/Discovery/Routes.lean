import NodexProxy.Discovery.Weights

/-! The method routes of a gateway as sets of node keys, with empty sets for a method that has no
route. -/

namespace NodexProxy.Discovery

open NodexProxy.Foundation

/-- The keys of a map; the nil map has none. -/
def keySet (keys : Option (Assoc Bytes Bool)) : Set Bytes := { key | ∃ stored ∈ keys, key ∈ stored }

section KeySet

variable {keys : Option (Assoc Bytes Bool)}

@[simp] theorem keySet_none : keySet none = ∅ := by
  simp [keySet]

@[simp] theorem mem_keySet_some {stored : Assoc Bytes Bool} :
    key ∈ keySet (some stored) ↔ key ∈ stored := by
  simp [keySet]

theorem keySet_deleteKey (key : Bytes) (keys : Option (Assoc Bytes Bool)) :
    keySet (deleteKey key keys) = keySet keys \ {key} := by
  cases keys with
  | none => simp [deleteKey]
  | some stored =>
    ext other
    simp [deleteKey, and_comm]

/-- The loop that deletes keys one by one. -/
theorem keySet_deleteKeys (deleted : List Bytes) (keys : Option (Assoc Bytes Bool)) :
    keySet (deleted.foldl (fun keys key => deleteKey key keys) keys) =
      keySet keys \ { key | key ∈ deleted } := by
  induction deleted generalizing keys with
  | nil => simp
  | cons key rest inductionHypothesis =>
    rw [List.foldl_cons, inductionHypothesis, keySet_deleteKey, Set.sdiff_sdiff]
    congr 1
    ext other
    simp

theorem keyCount_eq_zero : keyCount keys = 0 ↔ keySet keys = ∅ := by
  cases keys with
  | none => simp [keyCount]
  | some stored =>
    have entries : keyCount (some stored) = stored.keys.length := (List.length_map _).symm
    rw [entries, List.length_eq_zero_iff, List.eq_nil_iff_forall_not_mem,
      Set.eq_empty_iff_forall_notMem]
    simp [AList.mem_keys]

end KeySet

namespace GatewayBody

variable (gateway : GatewayBody) (method : Bytes)

def route : Option MethodRoute := gateway.methodRoutes.bind fun routes => routes.lookup method

def included : Set Bytes := keySet ((gateway.route method).bind MethodRoute.includeNodeKeys)

def excluded : Set Bytes := keySet ((gateway.route method).bind MethodRoute.excludeNodeKeys)

end GatewayBody

/-- A route without one node, or none if nothing is left of it. -/
def MethodRoute.without (nodeKey : Bytes) (route : MethodRoute) : Option MethodRoute :=
  let route : MethodRoute :=
    ⟨deleteKey nodeKey route.includeNodeKeys, deleteKey nodeKey route.excludeNodeKeys⟩
  if keyCount route.includeNodeKeys = 0 ∧ keyCount route.excludeNodeKeys = 0 then none else some route

theorem MethodRoute.without_none {route : MethodRoute} (gone : route.without nodeKey = none) :
    keySet route.includeNodeKeys \ {nodeKey} = ∅ ∧ keySet route.excludeNodeKeys \ {nodeKey} = ∅ := by
  unfold without at gone
  dsimp only at gone
  split_ifs at gone with empty
  rw [keyCount_eq_zero, keyCount_eq_zero, keySet_deleteKey, keySet_deleteKey] at empty
  exact empty

theorem MethodRoute.without_some {route left : MethodRoute}
    (kept : route.without nodeKey = some left) :
    keySet left.includeNodeKeys = keySet route.includeNodeKeys \ {nodeKey} ∧
      keySet left.excludeNodeKeys = keySet route.excludeNodeKeys \ {nodeKey} ∧
      ¬(keySet left.includeNodeKeys = ∅ ∧ keySet left.excludeNodeKeys = ∅) := by
  unfold without at kept
  dsimp only at kept
  split_ifs at kept with empty
  cases kept
  rw [keyCount_eq_zero, keyCount_eq_zero] at empty
  exact ⟨keySet_deleteKey .., keySet_deleteKey .., empty⟩

theorem lookup_clearRoute (nodeKey : Bytes) (routes : Assoc Bytes MethodRoute)
    (method other : Bytes) :
    (clearRoute nodeKey routes method).lookup other =
      if other = method then (routes.lookup method).bind (MethodRoute.without nodeKey)
      else routes.lookup other := by
  unfold clearRoute
  cases found : routes.lookup method with
  | none =>
    by_cases here : other = method
    · subst here
      simp [found]
    · simp [here]
  | some route =>
    simp only [Option.bind_some, MethodRoute.without]
    split_ifs with empty here here
    · rw [here, AList.lookup_erase]
    · rw [AList.lookup_erase_ne here]
    · rw [here, AList.lookup_insert]
    · rw [AList.lookup_insert_ne here]

/-- The loop over the methods: each one is visited once. -/
theorem lookup_clearRoutes (nodeKey : Bytes) {methods : List Bytes} (distinct : methods.Nodup)
    (routes : Assoc Bytes MethodRoute) (method : Bytes) :
    (methods.foldl (clearRoute nodeKey) routes).lookup method =
      if method ∈ methods then (routes.lookup method).bind (MethodRoute.without nodeKey)
      else routes.lookup method := by
  induction methods generalizing routes with
  | nil => simp
  | cons first rest inductionHypothesis =>
    obtain ⟨absent, distinct⟩ := List.nodup_cons.mp distinct
    rw [List.foldl_cons, inductionHypothesis distinct, lookup_clearRoute]
    by_cases here : method = first
    · subst here
      simp [absent]
    · simp [here]

namespace GatewayBody

/-- `ClearMethodRoute` takes the node out of every route. -/
theorem route_clearMethodRoute (gateway : GatewayBody) (nodeKey method : Bytes) :
    (gateway.clearMethodRoute nodeKey).route method =
      (gateway.route method).bind (MethodRoute.without nodeKey) := by
  unfold clearMethodRoute route
  cases gateway.methodRoutes with
  | none => rfl
  | some routes =>
    have distinct : routes.keys.Nodup := routes.nodupKeys
    rw [Option.map_some, Option.bind_some, Option.bind_some, lookup_clearRoutes nodeKey distinct]
    split
    · rfl
    · rename_i absent
      have missing : routes.lookup method = none := AList.lookup_eq_none.mpr absent
      rw [missing]
      rfl

/-- Either set of a route loses the node. -/
theorem keySet_clearMethodRoute (gateway : GatewayBody) (nodeKey method : Bytes)
    {keys : MethodRoute → Option (Assoc Bytes Bool)}
    (gone : ∀ route, route.without nodeKey = none → keySet (keys route) \ {nodeKey} = ∅)
    (kept : ∀ route left, route.without nodeKey = some left →
      keySet (keys left) = keySet (keys route) \ {nodeKey}) :
    keySet (((gateway.clearMethodRoute nodeKey).route method).bind keys) =
      keySet ((gateway.route method).bind keys) \ {nodeKey} := by
  rw [route_clearMethodRoute]
  cases gateway.route method with
  | none => simp
  | some route =>
    rw [Option.bind_some, Option.bind_some]
    cases cleared : route.without nodeKey with
    | none => rw [gone route cleared, Option.bind_none, keySet_none]
    | some left => exact kept route left cleared

theorem included_clearMethodRoute (gateway : GatewayBody) (nodeKey method : Bytes) :
    (gateway.clearMethodRoute nodeKey).included method = gateway.included method \ {nodeKey} :=
  gateway.keySet_clearMethodRoute nodeKey method (fun _ left => (MethodRoute.without_none left).1)
    fun _ _ left => (MethodRoute.without_some left).1

theorem excluded_clearMethodRoute (gateway : GatewayBody) (nodeKey method : Bytes) :
    (gateway.clearMethodRoute nodeKey).excluded method = gateway.excluded method \ {nodeKey} :=
  gateway.keySet_clearMethodRoute nodeKey method (fun _ left => (MethodRoute.without_none left).2)
    fun _ _ left => (MethodRoute.without_some left).2.1

/-- No route with two empty sets is left, also of those that never listed the node. -/
theorem clearMethodRoute_nonempty {gateway : GatewayBody} {route : MethodRoute}
    (there : (gateway.clearMethodRoute nodeKey).route method = some route) :
    ¬(keySet route.includeNodeKeys = ∅ ∧ keySet route.excludeNodeKeys = ∅) := by
  rw [route_clearMethodRoute] at there
  obtain ⟨old, -, kept⟩ := Option.bind_eq_some_iff.mp there
  exact (MethodRoute.without_some kept).2.2

end GatewayBody

end NodexProxy.Discovery
