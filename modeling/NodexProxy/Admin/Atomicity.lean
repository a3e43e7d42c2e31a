import NodexProxy.Admin.Handler

/-! Which handlers guard their transaction on everything they read. All but two do; for
`DeleteNode` and `UpdateNode` it is said what has to hold of the node record instead. -/

namespace NodexProxy.Admin

open NodexProxy.Foundation NodexProxy.Discovery

abbrev AdminPool := Pool Bytes Bytes Bytes Answer Operation

abbrev AdminAction := PoolAction Bytes Bytes Bytes Operation

def Succeeds (answer : Answer) : Prop := answer.succeeded = true

theorem succeeds_ok (reply : Reply) : Succeeds (.ok reply) := rfl

theorem not_succeeds_error : ¬Succeeds (.error status message) := Bool.false_ne_true

theorem addNode_refused {request : AddNodeRequest} (refused : request.validate = some answer) :
    ¬Succeeds answer := by
  unfold AddNodeRequest.validate at refused
  split_ifs at refused
  all_goals
    cases refused
    exact not_succeeds_error

theorem updateNode_refused {request : UpdateNodeRequest} (refused : request.validate = some answer) :
    ¬Succeeds answer := by
  unfold UpdateNodeRequest.validate at refused
  split_ifs at refused
  cases refused
  exact not_succeeds_error

/-- The two handlers that leave the node record they read out of their transaction. -/
def Operation.Unguarded : Operation → Prop
  | .updateNode _ _ => True
  | .deleteNode _ => True
  | _ => False

namespace Handler

variable {handler : Handler} {chainId : Bytes}

theorem getGatewayConfig_optimistic {next : Except Bytes (GatewayBody × Nat) → Call}
    (found : ∀ reply gateway, (next (.ok (gateway, stampOf reply))).Optimistic Succeeds
      ((gatewayKey handler.keyPrefix chainId, reply) :: seen))
    (failed : ∀ error, ∃ answer, next (.error error) = .done answer ∧ ¬Succeeds answer) :
    (handler.getGatewayConfig chainId next).Optimistic Succeeds seen := by
  constructor
  · intro reply
    cases reply with
    | none => exact found none _
    | some record =>
      dsimp only
      cases handler.unmarshalGateway record.value with
      | ok gateway => exact found (some record) gateway
      | error error =>
        obtain ⟨answer, ends, fails⟩ := failed (ascii "failed to parse gateway config: " ++ error)
        simp only [ends]
        exact fails
  · intro error
    exact failed _

theorem updateGatewayConfig_optimistic {next : Option Bytes → Answer} {gateway : GatewayBody}
    (succeeds : Succeeds (next none)) (fails : ∀ error, ¬Succeeds (next (some error)))
    (reply : Option (Record Bytes)) :
    (handler.updateGatewayConfigWithTransaction chainId gateway (stampOf reply) next).Optimistic
      Succeeds [(gatewayKey handler.keyPrefix chainId, reply)] := by
  unfold updateGatewayConfigWithTransaction
  cases handler.marshalGateway gateway with
  | error error => exact fails _
  | ok bytes =>
    refine ⟨?_, succeeds, fails _, fun error => fails _⟩
    intro read listed
    cases List.mem_singleton.mp listed
    exact ⟨_, List.mem_singleton_self _, .inl rfl⟩

theorem storeWeight_optimistic {next : Option Bytes → Answer} (succeeds : Succeeds (next none))
    (fails : ∀ error, ¬Succeeds (next (some error))) (nodeKey : Bytes) (weight : Int) :
    (handler.storeWeight chainId nodeKey weight next).Optimistic Succeeds [] := by
  apply getGatewayConfig_optimistic
  · intro reply gateway
    exact updateGatewayConfig_optimistic succeeds fails reply
  · intro error
    exact ⟨_, rfl, fails error⟩

theorem editGateway_optimistic {missing : Answer} (edit : GatewayBody → Option GatewayBody)
    (refused : ¬Succeeds missing) (reply : GatewayBody → Reply) :
    (handler.editGateway chainId edit missing reply).Optimistic Succeeds [] := by
  apply getGatewayConfig_optimistic
  · intro reply gateway
    dsimp only
    cases edit gateway with
    | none => exact refused
    | some edited =>
      apply updateGatewayConfig_optimistic
      · exact succeeds_ok _
      · exact fun _ => not_succeeds_error
  · intro error
    exact ⟨_, rfl, not_succeeds_error⟩

theorem checkRouteRequest_optimistic {next : MethodRouteRequest → Call}
    (checked : ∀ request, (next request).Optimistic Succeeds [])
    (request : Option MethodRouteRequest) (pool : Option (List Bytes)) :
    (checkRouteRequest chainId request pool next).Optimistic Succeeds [] := by
  unfold checkRouteRequest
  cases request with
  | none => exact not_succeeds_error
  | some request =>
    dsimp only
    cases checkNodeExist chainId pool request with
    | some error => exact not_succeeds_error
    | none =>
      dsimp only
      split_ifs
      · exact not_succeeds_error
      · exact checked request

theorem addNodeCommit_optimistic {guards : List (Guard Bytes)}
    (pinned : ∀ read ∈ seen, ∃ guard ∈ guards, RevisionStore.Pins guard read.1 read.2)
    (request : AddNodeRequest) (writes : List (Write Bytes Bytes)) :
    (addNodeCommit request guards writes).Optimistic Succeeds seen :=
  ⟨pinned, succeeds_ok _, not_succeeds_error, fun _ => not_succeeds_error⟩

theorem addNode_optimistic (request : Option AddNodeRequest) :
    (handler.addNode chainId request).Optimistic Succeeds [] := by
  unfold addNode
  cases request with
  | none => exact not_succeeds_error
  | some request =>
    dsimp only
    cases refused : request.validate with
    | some answer => exact addNode_refused refused
    | none =>
      refine ⟨fun reply => ?_, fun error => ⟨_, rfl, not_succeeds_error⟩⟩
      cases reply with
      | some record => exact not_succeeds_error
      | none =>
        dsimp only
        cases handler.marshalNode (newNode request) with
        | error error => exact not_succeeds_error
        | ok node =>
          dsimp only
          split_ifs
          · apply addNodeCommit_optimistic
            intro read listed
            cases List.mem_singleton.mp listed
            exact ⟨_, List.mem_singleton_self _, .inr ⟨rfl, rfl⟩⟩
          · apply getGatewayConfig_optimistic
            · intro reply gateway
              dsimp only
              cases handler.marshalGateway (gateway.setWeight request.key request.weight) with
              | error error => exact not_succeeds_error
              | ok bytes =>
                apply addNodeCommit_optimistic
                intro read listed
                rcases List.mem_cons.mp listed with rfl | listed
                · exact ⟨_, List.mem_cons_of_mem _ (List.mem_singleton_self _), .inl rfl⟩
                · cases List.mem_singleton.mp listed
                  exact ⟨_, List.mem_cons_self .., .inr ⟨rfl, rfl⟩⟩
            · intro error
              exact ⟨_, rfl, not_succeeds_error⟩

theorem deleteNodeCommit_optimistic (nodeKey : Bytes) :
    (handler.deleteNodeCommit chainId nodeKey).Optimistic Succeeds [] := by
  apply getGatewayConfig_optimistic
  · intro reply gateway
    dsimp only
    cases handler.marshalGateway
        ((gateway.setWeight nodeKey defaultWeight).clearMethodRoute nodeKey) with
    | error error => exact not_succeeds_error
    | ok bytes =>
      refine ⟨?_, succeeds_ok _, not_succeeds_error, fun _ => not_succeeds_error⟩
      intro read listed
      cases List.mem_singleton.mp listed
      exact ⟨_, List.mem_singleton_self _, .inl rfl⟩
  · intro error
    exact ⟨_, rfl, not_succeeds_error⟩

theorem setWeight_optimistic (nodeKey : Bytes) (weight : Option Int) (pool : Option (List Bytes)) :
    (handler.setWeight chainId nodeKey weight pool).Optimistic Succeeds [] := by
  unfold setWeight
  cases weight with
  | none =>
    dsimp only
    split_ifs
    all_goals exact not_succeeds_error
  | some weight =>
    dsimp only
    split_ifs
    · exact not_succeeds_error
    · exact not_succeeds_error
    · exact not_succeeds_error
    · exact storeWeight_optimistic (succeeds_ok _) (fun _ => not_succeeds_error) nodeKey weight

theorem deleteWeight_optimistic (nodeKey : Bytes) (pool : Option (List Bytes)) :
    (handler.deleteWeight chainId nodeKey pool).Optimistic Succeeds [] := by
  unfold deleteWeight
  split_ifs
  · exact not_succeeds_error
  · exact not_succeeds_error
  · exact storeWeight_optimistic (succeeds_ok _) (fun _ => not_succeeds_error) nodeKey _

theorem call_optimistic (operation : Operation) (guarded : ¬operation.Unguarded) :
    (handler.call chainId operation).Optimistic Succeeds [] := by
  cases operation with
  | setWeight nodeKey weight pool => exact setWeight_optimistic nodeKey weight pool
  | deleteWeight nodeKey pool => exact deleteWeight_optimistic nodeKey pool
  | addMethodRoute request pool =>
    apply checkRouteRequest_optimistic
    intro request
    apply editGateway_optimistic
    exact Bool.false_ne_true
  | removeMethodRoute request pool =>
    apply checkRouteRequest_optimistic
    intro request
    apply editGateway_optimistic
    exact not_succeeds_error
  | deleteMethodRoute method =>
    exact editGateway_optimistic (removeRoute · method) not_succeeds_error _
  | addNode request => exact addNode_optimistic request
  | updateNode nodeKey request => exact absurd trivial guarded
  | deleteNode nodeKey => exact absurd trivial guarded

theorem getManualNode_honest {next : NodeBody → Call}
    (honest : ∀ node, (next node).Honest Succeeds) (nodeKey : Bytes) (refusal : String) :
    (handler.getManualNode chainId nodeKey refusal next).Honest Succeeds := by
  intro reply
  cases reply with
  | error error => exact not_succeeds_error
  | ok reply =>
    cases reply with
    | none => exact not_succeeds_error
    | some record =>
      dsimp only
      cases handler.unmarshalNode record.value with
      | error error => exact not_succeeds_error
      | ok node =>
        dsimp only
        split_ifs
        · exact not_succeeds_error
        · exact honest node

theorem updateNodeCommit_optimistic (nodeKey : Bytes) (node : NodeBody) :
    (handler.updateNodeCommit chainId nodeKey node).Optimistic Succeeds [] := by
  unfold updateNodeCommit
  cases handler.marshalNode node with
  | error error => exact not_succeeds_error
  | ok bytes =>
    refine ⟨?_, succeeds_ok _, not_succeeds_error, fun _ => not_succeeds_error⟩
    intro read listed
    cases listed

theorem updateNode_honest (nodeKey : Bytes) (request : Option UpdateNodeRequest) :
    (handler.updateNode chainId nodeKey request).Honest Succeeds := by
  unfold updateNode
  cases request with
  | none => exact not_succeeds_error
  | some request =>
    dsimp only
    cases refused : request.validate with
    | some answer => exact updateNode_refused refused
    | none =>
      apply getManualNode_honest
      intro node
      exact (updateNodeCommit_optimistic nodeKey _).honest

theorem call_honest (operation : Operation) :
    (handler.call chainId operation).Honest Succeeds := by
  by_cases guarded : operation.Unguarded
  · cases operation with
    | updateNode nodeKey request => exact updateNode_honest nodeKey request
    | deleteNode nodeKey =>
      apply getManualNode_honest
      intro node
      exact (deleteNodeCommit_optimistic nodeKey).honest
    | _ => cases guarded
  · exact (call_optimistic operation guarded).honest

variable (handler chainId) in
/-- The node is stored, can be decoded to this, and is a manual one. -/
def Manual (nodeKey : Bytes) (store : EtcdStore) (node : NodeBody) : Prop :=
  ∃ record, store.records (nodeEtcdKey handler.keyPrefix chainId nodeKey) = some record ∧
    handler.unmarshalNode record.value = .ok node ∧ node.source = ascii "manual"

theorem getManualNode_run {next : NodeBody → Call} {store : EtcdStore}
    (manual : handler.Manual chainId nodeKey store node) :
    (handler.getManualNode chainId nodeKey refusal next).run store = (next node).run store := by
  obtain ⟨record, stored, decoded, source⟩ := manual
  simp [getManualNode, Program.run, stored, decoded, source]

/-- A call that got past its check has read a manual node. -/
theorem getManualNode_reaches {next : NodeBody → Call} {store : EtcdStore}
    (reaches : (handler.getManualNode chainId nodeKey refusal next).Reaches store reads
      (.commit guards writes answer)) :
    ∃ record node rest, reads = (nodeEtcdKey handler.keyPrefix chainId nodeKey, some record) :: rest ∧
      handler.unmarshalNode record.value = .ok node ∧ node.source = ascii "manual" ∧
      (next node).Reaches store rest (.commit guards writes answer) := by
  cases reaches with
  | failed reaches => cases reaches.of_done
  | @read _ reply _ rest _ _ reaches =>
    cases reply with
    | none => cases reaches.of_done
    | some record =>
      dsimp only at reaches
      cases decoded : handler.unmarshalNode record.value with
      | error error =>
        rw [decoded] at reaches
        cases reaches.of_done
      | ok node =>
        rw [decoded] at reaches
        dsimp only at reaches
        split_ifs at reaches with source
        · cases reaches.of_done
        · exact ⟨record, node, rest, rfl, decoded, not_not.mp source, reaches⟩

theorem deleteNode_run_eq {store : EtcdStore}
    (reaches : (handler.deleteNode chainId nodeKey).Reaches store reads
      (.commit guards writes answer))
    (met : store.meetsAll guards = true) (manual : handler.Manual chainId nodeKey store node) :
    (handler.deleteNode chainId nodeKey).run store =
      (Program.commit guards writes answer).run store := by
  obtain ⟨_, _, _, -, -, -, reaches⟩ := getManualNode_reaches reaches
  calc (handler.deleteNode chainId nodeKey).run store
      = (handler.deleteNodeCommit chainId nodeKey).run store := getManualNode_run manual
    _ = (Program.commit guards writes answer).run store :=
      reaches.run_eq (deleteNodeCommit_optimistic nodeKey) met

/-- The record an update would make of the stored one is the one it is about to write. -/
def Overlays (request : UpdateNodeRequest) (reads : List (Bytes × Option (Record Bytes)))
    (handler : Handler) (node : NodeBody) : Prop :=
  ∀ key record, (key, some record) ∈ reads → ∀ before,
    handler.unmarshalNode record.value = .ok before → request.apply node = request.apply before

theorem updateNode_run_eq {store : EtcdStore}
    (reaches : (handler.updateNode chainId nodeKey (some request)).Reaches store reads
      (.commit guards writes answer))
    (met : store.meetsAll guards = true) (manual : handler.Manual chainId nodeKey store node)
    (overlays : Overlays request reads handler node) :
    (handler.updateNode chainId nodeKey (some request)).run store =
      (Program.commit guards writes answer).run store := by
  unfold updateNode at reaches ⊢
  dsimp only at reaches ⊢
  cases refused : request.validate with
  | some answer =>
    rw [refused] at reaches
    cases reaches.of_done
  | none =>
    rw [refused] at reaches
    obtain ⟨record, before, rest, rfl, decoded, -, reaches⟩ := getManualNode_reaches reaches
    have same := overlays _ record (List.mem_cons_self ..) before decoded
    dsimp only
    rw [getManualNode_run manual, same]
    exact reaches.run_eq (updateNodeCommit_optimistic nodeKey _) met

variable (handler chainId)

/-- A `DeleteNode` about to go through finds its node stored and manual. -/
def DeletesManual (pool : AdminPool) (index : Nat) : Prop :=
  ∀ client nodeKey guards writes answer, pool.clients[index]? = some client →
    client.operation = .deleteNode nodeKey → client.rest = .commit guards writes answer →
    pool.store.meetsAll guards = true → ∃ node, handler.Manual chainId nodeKey pool.store node

/-- An `UpdateNode` about to write finds its node stored and manual, with every field that it
leaves alone as it was when the node was read. -/
def UpdatesCurrent (pool : AdminPool) (index : Nat) : Prop :=
  ∀ client nodeKey request guards writes answer, pool.clients[index]? = some client →
    client.operation = .updateNode nodeKey (some request) →
    client.rest = .commit guards writes answer →
    ∃ node, handler.Manual chainId nodeKey pool.store node ∧
      Overlays request client.reads handler node

variable {handler chainId}

theorem commitsAtomically {pool : AdminPool}
    (accounted : Pool.Accounted (handler.call chainId) Succeeds pool)
    (deletes : handler.DeletesManual chainId pool index)
    (updates : handler.UpdatesCurrent chainId pool index) :
    Pool.CommitsAtomically (handler.call chainId) pool index := by
  intro client guards writes answer found rest met
  rcases accounted.settled index client found with ⟨reaches, -⟩ | ⟨_, done, -⟩
  · rw [rest] at reaches
    by_cases guarded : client.operation.Unguarded
    · cases asked : client.operation with
      | updateNode nodeKey request =>
        rw [asked] at reaches
        cases request with
        | none => cases reaches.of_done
        | some request =>
          obtain ⟨node, manual, overlays⟩ := updates client nodeKey request guards writes answer
            found asked rest
          exact updateNode_run_eq reaches met manual overlays
      | deleteNode nodeKey =>
        rw [asked] at reaches
        obtain ⟨node, manual⟩ := deletes client nodeKey guards writes answer found asked rest met
        exact deleteNode_run_eq reaches met manual
      | _ =>
        rw [asked] at guarded
        cases guarded
    · exact reaches.run_eq (call_optimistic _ guarded) met
  · cases done.symm.trans rest

end Handler

end NodexProxy.Admin
