import NodexProxy.Admin.Policy
import NodexProxy.Lb.ControlPlane
import NodexProxy.Lb.GatewayWeights

/-! From the admin handlers to the node a request goes to. Operators edit a policy through the
handlers, etcd orders the edits, and a proxy that has caught up draws its nodes by that policy. -/

namespace NodexProxy.Lb

open NodexProxy.Foundation NodexProxy.Discovery
open NodexProxy.Admin (AdminAction AdminPool EtcdStore Handler Policy Represents gatewayKey)

/-! What the handlers write is what discovery watches. -/

def changeOf : Write Bytes Bytes → Change
  | .put key value => .put key value
  | .delete key => .delete key

/-- The history of etcd has the base store and then the journal, revision by revision. What comes
later is left open. -/
structure Logs (history : History) (base : EtcdStore) (journal : List (List (Write Bytes Bytes))) :
    Prop where
  past : ∀ key, (history.storeAt base.revision).lookup key = (base.records key).map Record.value
  later : ∀ index writes, journal[index]? = some writes →
    history (base.revision + index + 1) = writes.map changeOf

/-- The writes of one revision, on both sides. -/
theorem lookup_changes (revision : Nat) (writes : List (Write Bytes Bytes))
    {store : Assoc Bytes Bytes} {records : Bytes → Option (Record Bytes)}
    (same : ∀ key, store.lookup key = (records key).map Record.value) (key : Bytes) :
    ((writes.map changeOf).foldl Change.apply store).lookup key =
      (writes.foldl (Write.apply revision) records key).map Record.value := by
  induction writes generalizing store records with
  | nil => exact same key
  | cons write rest inductionHypothesis =>
    rw [List.map_cons, List.foldl_cons, List.foldl_cons]
    refine inductionHypothesis fun other => ?_
    rw [Change.lookup_apply]
    cases write with
    | put target value =>
      by_cases here : other = target
      · simp [here, changeOf, Change.key, Change.value, Write.apply]
      · simp [here, changeOf, Change.key, Write.apply, same]
    | delete target =>
      by_cases here : other = target
      · simp [here, changeOf, Change.key, Change.value, Write.apply]
      · simp [here, changeOf, Change.key, Write.apply, same]

theorem Logs.lookup_storeAt {history : History} {base : EtcdStore}
    {journal : List (List (Write Bytes Bytes))} (logs : Logs history base journal) (key : Bytes) :
    (history.storeAt (base.revision + journal.length)).lookup key =
      ((journal.foldl RevisionStore.write base).records key).map Record.value := by
  induction journal using List.reverseRecOn generalizing key with
  | nil => exact logs.past key
  | append_singleton journal writes inductionHypothesis =>
    have earlier : Logs history base journal := by
      refine ⟨logs.past, fun index writes listed => logs.later index writes ?_⟩
      rw [List.getElem?_append_left (List.getElem?_eq_some_iff.mp listed).1]
      exact listed
    have written := logs.later journal.length writes (by simp)
    have next : history.between (base.revision + journal.length)
        (base.revision + journal.length + 1) = writes.map changeOf := by
      rw [← written]
      simp [History.between]
    rw [List.length_append, List.length_singleton, ← Nat.add_assoc,
      history.storeAt_later (Nat.le_succ (base.revision + journal.length)), next, List.foldl_concat]
    exact lookup_changes _ writes (inductionHypothesis earlier) key

/-! The policy as the load balancer applies it. -/

/-- Requests of the method may go to the node: it is included, or no node is included and it is not
excluded. -/
def Admits (policy : Policy) (method nodeKey : Bytes) : Prop :=
  ((policy.included method).Nonempty → nodeKey ∈ policy.included method) ∧
    (policy.included method = ∅ → nodeKey ∉ policy.excluded method)

/-- The tables of the chain are those of the gateway; without a gateway there are none. -/
structure Applies (strategy : GatewayStrategy) (chainId : Bytes) (gateway : GatewayBody) :
    Prop where
  weights : ∀ node, strategy.nodeWeight chainId node = gateway.effectiveWeight node.key
  routes : ∀ method, ((strategy.methodRouteMap.lookup chainId).bind fun routes =>
    routes.lookup method) = gateway.route method

section Tables

variable {strategy : GatewayStrategy} {chainId : Bytes} {gateway : GatewayBody} {policy : Policy}

theorem Applies.of_absent (absent : strategy.content chainId = none) :
    Applies strategy chainId ⟨[], none⟩ := by
  have same : strategy.content chainId = GatewayStrategy.new.content chainId := absent
  obtain ⟨weights, routes⟩ := GatewayStrategy.content_inj same
  refine ⟨fun node => ?_, fun method => ?_⟩
  · rw [GatewayStrategy.nodeWeight, weights]
    rfl
  · rw [routes]
    rfl

theorem Applies.of_content (distinct : gateway.Distinct)
    (there : strategy.content chainId =
      some (.gateway (some (weightTable gateway.weights)) (some (gateway.methodRoutes.getD ∅)))) :
    Applies strategy chainId gateway := by
  have same : strategy.content chainId =
      (GatewayStrategy.new.updateGateway chainId gateway).content chainId := by
    rw [there]
    simp [GatewayStrategy.content, GatewayStrategy.updateGateway]
  obtain ⟨weights, routes⟩ := GatewayStrategy.content_inj same
  refine ⟨fun node => ?_, fun method => ?_⟩
  · rw [← nodeWeight_updateGateway .new chainId distinct, GatewayStrategy.nodeWeight, weights]
    rfl
  · rw [routes, GatewayStrategy.updateGateway, AList.lookup_insert, Option.bind_some]
    exact Admin.lookup_methodRoutes gateway method

theorem listed_iff {keys : Option (Assoc Bytes Bool)} (marked : Admin.Marked keys) (node : Node) :
    listed keys node = true ↔ node.key ∈ keySet keys := by
  have value : listed keys node = (Admin.flag keys node.key).getD false := rfl
  rw [value, Admin.mem_keySet_iff_flag]
  cases found : Admin.flag keys node.key with
  | none => simp
  | some mark =>
    cases mark with
    | false => exact absurd found (marked node.key)
    | true => simp

theorem keyCount_pos_iff {keys : Option (Assoc Bytes Bool)} :
    0 < keyCount keys ↔ (keySet keys).Nonempty := by
  rw [Nat.pos_iff_ne_zero, ne_eq, keyCount_eq_zero, Set.nonempty_iff_ne_empty]

theorem Applies.filterNodesByMethod (applies : Applies strategy chainId gateway)
    (represents : Represents gateway policy) {method : Bytes} {admits : Node → Bool}
    (decides : ∀ node, admits node = true ↔ Admits policy method node.key) (nodes : List Node) :
    strategy.filterNodesByMethod chainId method nodes = nodes.filter admits := by
  have marked := represents.marked method
  unfold Admits at decides
  unfold GatewayStrategy.filterNodesByMethod
  rw [← represents.included, ← represents.excluded, GatewayBody.included,
    GatewayBody.excluded] at decides
  rw [applies.routes]
  cases found : gateway.route method with
  | none =>
    simp only [found, Option.bind_none, keySet_none] at decides
    exact (List.filter_eq_self.mpr fun node _ => (decides node).mpr (by simp)).symm
  | some route =>
    simp only [found, Option.bind_some] at decides
    rw [found] at marked
    have included : Admin.Marked route.includeNodeKeys := marked.1
    have excluded : Admin.Marked route.excludeNodeKeys := marked.2
    dsimp only
    unfold applyMethodRoutes
    split_ifs with some others
    · rw [keyCount_pos_iff] at some
      refine List.filter_congr fun node _ => ?_
      rw [Bool.eq_iff_iff, decides, listed_iff included]
      simp [some, some.ne_empty]
    · rw [keyCount_pos_iff, Set.not_nonempty_iff_eq_empty] at some
      refine List.filter_congr fun node _ => ?_
      rw [Bool.eq_iff_iff, decides, Bool.not_eq_true', ← Bool.not_eq_true, listed_iff excluded]
      simp [some]
    · rw [keyCount_pos_iff, Set.not_nonempty_iff_eq_empty] at some others
      exact (List.filter_eq_self.mpr fun node _ =>
        (decides node).mpr (by simp [some, others])).symm

end Tables

section Rollout

variable {decoder : Decoder} {history : History} {proxied : Bytes → Bool} {handler : Handler}
  {chainId chain : Bytes} {store : EtcdStore} {gateway : GatewayBody}
  {schedule : List ControlAction} {state : ControlPlane}

theorem parseKey_of_gatewayCell {key : Bytes} (about : keyCell key = some (.gateway chain)) :
    ∃ sub, parseKey key = (.gateway, chain, sub) := by
  unfold keyCell at about
  rcases parsed : parseKey key with ⟨kind, named, sub⟩
  rw [parsed] at about
  cases kind with
  | gateway =>
    cases about
    exact ⟨sub, rfl⟩
  | version =>
    obtain ⟨-, same⟩ := Option.ite_none_left_eq_some.mp about
    cases same
  | _ => cases about

/-- A proxy at the revision of a store applies the gateway the handlers read there. -/
theorem applies_of_run
    (run : exec (ControlPlane.step decoder history handler.keyPrefix proxied) .new schedule =
      some state)
    (decodes : ∀ bytes body, handler.unmarshalGateway bytes = .ok body →
      decoder.gateway bytes = (body, true))
    (sole : SoleKey history handler.keyPrefix (.gateway chain)
      (gatewayKey handler.keyPrefix chainId))
    (stored : (history.storeAt state.watch.discover.watchRevision).lookup
        (gatewayKey handler.keyPrefix chainId) =
      (store.records (gatewayKey handler.keyPrefix chainId)).map Record.value)
    (drained : state.queues .gateway = []) (reads : handler.Reads chainId store gateway)
    (distinct : gateway.Distinct) : Applies state.background.gatewayStrategy chain gateway := by
  obtain ⟨sub, parsed⟩ := parseKey_of_gatewayCell sole.about
  unfold Handler.Reads at reads
  cases found : store.records (gatewayKey handler.keyPrefix chainId) with
  | none =>
    rw [found] at reads stored
    subst reads
    refine .of_absent ?_
    exact ControlPlane.read_of_determined run (.deleted sole (by rw [parsed]; rfl) stored) trivial
      drained
  | some record =>
    rw [found] at reads stored
    have event : putEvent decoder (gatewayKey handler.keyPrefix chainId) record.value =
        some (.gateway ⟨gateway, chain, .put⟩) := by
      simp [putEvent, parsed, decodes record.value gateway reads]
    refine .of_content distinct ?_
    exact ControlPlane.read_of_determined run (.stored sole stored event) trivial drained

/-- One weight is set, and a proxy takes it from a snapshot. -/
def weightCalls : List AdminAction :=
  [.submit (.setWeight (ascii "n") (some 50) (some [ascii "n"])), .advance 0, .advance 0]

def weightDecoder : Decoder :=
  { plainDecoder with
    gateway := fun bytes => match Admin.sampleHandler.unmarshalGateway bytes with
      | .ok body => (body, true)
      | .error _ => (⟨[], none⟩, false) }

def weightHistory : History
  | 1 => [.put (ascii "/1/gateway") Admin.sampleWeightsText]
  | _ => []

def weightSchedule : List ControlAction :=
  [.watch (.init 1 [(ascii "/1/gateway", Admin.sampleWeightsText)]), .select .gateway]

theorem weightHistory_sole :
    SoleKey weightHistory (ascii "/") (.gateway (ascii "1")) (ascii "/1/gateway") where
  watched := by decide
  about := by decide +kernel
  alone := by
    intro other _ written _
    obtain ⟨revision, change, listed, rfl⟩ := written
    unfold weightHistory at listed
    split at listed
    · rw [List.mem_singleton.mp listed]
      rfl
    · cases listed

end Rollout

end NodexProxy.Lb
