import NodexProxy.Admin.MirrorCalls
import NodexProxy.Lb.PolicyRollout

/-! From the mirror handlers to the copies of a request. Operators edit the table of targets in
etcd, and a proxy that has caught up copies the requests of the chain to the targets of that
table. -/

namespace NodexProxy.Lb

open NodexProxy.Foundation NodexProxy.Discovery
open NodexProxy.Admin (EtcdStore MirrorAction MirrorHandler MirrorPool MirrorTable sampleMirror
  sampleMirrorHandler)

/-- Discovery reads the keys of the table as targets of the chain, and no others. -/
structure MirrorKeys (handler : MirrorHandler) (chainId chain : Bytes) (history : History)
    (table : MirrorTable) : Prop where
  parses : ∀ addrKey, (table addrKey).isSome →
    keyCell (handler.etcdKey chainId addrKey) = some (.mirror chain addrKey)
  own : ∀ key addrKey, handler.keyPrefix <+: key → history.Writes key →
    keyCell key = some (.mirror chain addrKey) → key = handler.etcdKey chainId addrKey

section Rollout

variable {decoder : Decoder} {history : History} {proxied : Bytes → Bool}
  {handler : MirrorHandler} {chainId chain addrKey : Bytes} {store : EtcdStore}
  {table : MirrorTable} {schedule : List ControlAction} {state : ControlPlane}

theorem parseKey_of_mirrorCell {key : Bytes} (about : keyCell key = some (.mirror chain addrKey)) :
    parseKey key = (.mirror, chain, addrKey) := by
  unfold keyCell at about
  rcases parsed : parseKey key with ⟨kind, named, sub⟩
  rw [parsed] at about
  cases kind with
  | mirror =>
    cases about
    rfl
  | version =>
    obtain ⟨-, same⟩ := Option.ite_none_left_eq_some.mp about
    cases same
  | _ => cases about

theorem MirrorKeys.sole (keys : MirrorKeys handler chainId chain history table)
    (about : keyCell (handler.etcdKey chainId addrKey) = some (.mirror chain addrKey)) :
    SoleKey history handler.keyPrefix (.mirror chain addrKey) (handler.etcdKey chainId addrKey) where
  watched := by
    rw [MirrorHandler.etcdKey, Admin.mirrorEtcdKey, List.append_assoc, List.append_assoc]
    exact List.prefix_append ..
  about := about
  alone := fun key watched written => keys.own key addrKey watched written

/-- What etcd determines for a target is what the table has. -/
theorem MirrorKeys.determined {revision : Nat}
    (keys : MirrorKeys handler chainId chain history table)
    (decodes : ∀ body bytes, handler.marshalMirror body = .ok bytes →
      decoder.mirror bytes = (body, true))
    (holds : handler.Holds chainId store table)
    (stored : (history.storeAt revision).lookup (handler.etcdKey chainId addrKey) =
      (store.records (handler.etcdKey chainId addrKey)).map Record.value) :
    Determined decoder history handler.keyPrefix revision (.mirror chain addrKey)
      ((table addrKey).map fun body => .mirror ⟨body, chain, addrKey, false⟩) := by
  have held := holds addrKey
  cases listed : table addrKey with
  | some body =>
    have about := keys.parses addrKey (by rw [listed]; rfl)
    rw [listed] at held
    obtain ⟨record, found, marshals⟩ := Option.map_eq_some_iff.mp held
    rw [found] at stored
    have event : putEvent decoder (handler.etcdKey chainId addrKey) record.value =
        some (.mirror ⟨body, chain, addrKey, false⟩) := by
      simp [putEvent, parseKey_of_mirrorCell about, decodes body record.value marshals.symm]
    exact .stored (keys.sole about) stored event
  | none =>
    rw [listed] at held
    rw [Option.map_eq_none_iff.mp held] at stored
    by_cases about : keyCell (handler.etcdKey chainId addrKey) = some (.mirror chain addrKey)
    · exact .deleted (keys.sole about) (by rw [parseKey_of_mirrorCell about]; rfl) stored
    · refine .unwritten fun key watched written same => about ?_
      rw [← keys.own key addrKey watched written same]
      exact same

end Rollout

theorem Mirroring.mem_getMirrorURLs {mirroring : Mirroring} {chain url : Bytes} :
    url ∈ mirroring.getMirrorURLs chain ↔
      ∃ addrKey target, mirroring.target chain addrKey = some target ∧ targetURL target = url := by
  unfold Mirroring.getMirrorURLs Mirroring.target
  cases mirroring.mirrors.lookup chain with
  | none => simp
  | some targets =>
    simp only [List.mem_map, Option.getD_some, Sigma.exists]
    simp only [← AList.mem_lookup_iff, Option.mem_def]

/-- A request is copied to URLs of its chain only. -/
theorem Proxy.mirrored_of_requestMirror (mirroring : Mirroring) (tokens : Nat → Bool)
    (context : RoutedContext) (exchange : Exchange) :
    ∃ after sent, Proxy.requestMirror mirroring tokens context exchange = .ok after ∧
      after.mirrored = exchange.mirrored ++ sent ∧
      ∀ copy ∈ sent, copy.1 ∈ mirroring.getMirrorURLs context.chainId ∧
        copy.2 = exchange.rawRequestBody.read exchange.arrays := by
  unfold Proxy.requestMirror
  dsimp only
  split_ifs with empty
  · exact ⟨exchange, [], rfl, (List.append_nil _).symm, fun _ member => absurd member List.not_mem_nil⟩
  · refine ⟨_, _, rfl, rfl, fun copy member => ?_⟩
    obtain ⟨entry, allowed, rfl⟩ := List.mem_map.mp member
    have listed := (List.mem_filter.mp allowed).1
    exact ⟨List.fst_mem_of_mem_zipIdx listed, rfl⟩

def mirrorDecoder : Decoder := { plainDecoder with mirror := fun _ => (sampleMirror.body, true) }

def mirrorHistory : History
  | 1 => [.put (ascii "/1/mirror/10.0.0.1:8545") (ascii "mirror")]
  | _ => []

def mirrorSchedule : List ControlAction :=
  [.watch (.init 1 [(ascii "/1/mirror/10.0.0.1:8545", ascii "mirror")]), .select .mirror]

theorem mirrorHistory_writes {key : Bytes} (written : mirrorHistory.Writes key) :
    key = ascii "/1/mirror/10.0.0.1:8545" := by
  obtain ⟨revision, change, listed, rfl⟩ := written
  unfold mirrorHistory at listed
  split at listed
  · rw [List.mem_singleton.mp listed]
    rfl
  · cases listed

end NodexProxy.Lb
