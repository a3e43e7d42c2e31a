import NodexProxy.Admin.Atomicity

/-! Concurrent edits of one node record. -/

namespace NodexProxy.Admin

open NodexProxy.Foundation NodexProxy.Discovery

/-- The calls that add, change or delete this node. -/
def Operation.OnNode (nodeKey : Bytes) : Operation → Prop
  | .addNode request => ∀ added, request = some added → added.key = nodeKey
  | .updateNode key _ => key = nodeKey
  | .deleteNode key => key = nodeKey
  | _ => False

namespace Handler

variable (handler : Handler) (chainId nodeKey : Bytes)

def record (store : EtcdStore) : Option (Record Bytes) :=
  store.records (nodeEtcdKey handler.keyPrefix chainId nodeKey)

/-- No update of the node is lost in a run, and a record that is not a manual one is left alone
by every call, whether or not its reply is lost. -/
structure NodeSerial (store : EtcdStore) (schedule : List AdminAction) (final : AdminPool) :
    Prop where
  serializes : Pool.Serializes (handler.call chainId) Succeeds (handler.record chainId nodeKey) store
    schedule final
  manual : ∀ index pool action next stored,
    Pool.Passes (handler.call chainId) store schedule pool action →
    Pool.Calls action index ∨ Pool.Commits action index →
    pool.step (handler.call chainId) action = some next →
    handler.record chainId nodeKey pool.store = some stored →
    (∀ node, ¬handler.Manual chainId nodeKey pool.store node) →
    handler.record chainId nodeKey next.store = some stored

variable {handler chainId nodeKey}

theorem getManualNode_succeeds {next : NodeBody → Call} {store : EtcdStore}
    (succeeds : Succeeds ((handler.getManualNode chainId nodeKey refusal next).run store).1) :
    ∃ node, handler.Manual chainId nodeKey store node := by
  simp only [getManualNode, Program.run] at succeeds
  cases stored : store.records (nodeEtcdKey handler.keyPrefix chainId nodeKey) with
  | none =>
    rw [stored] at succeeds
    exact absurd succeeds not_succeeds_error
  | some record =>
    rw [stored] at succeeds
    dsimp only at succeeds
    cases decoded : handler.unmarshalNode record.value with
    | error error =>
      rw [decoded] at succeeds
      exact absurd succeeds not_succeeds_error
    | ok node =>
      rw [decoded] at succeeds
      dsimp only at succeeds
      split_ifs at succeeds with source
      · exact absurd succeeds not_succeeds_error
      · exact ⟨node, record, stored, decoded, not_not.mp source⟩

theorem addNode_valid {request : AddNodeRequest} {store : EtcdStore}
    (succeeds : Succeeds ((handler.addNode chainId (some request)).run store).1) :
    request.validate = none := by
  cases refused : request.validate with
  | none => rfl
  | some answer =>
    simp only [addNode, refused] at succeeds
    exact absurd succeeds (addNode_refused refused)

theorem addNode_succeeds {request : AddNodeRequest} {store : EtcdStore}
    (succeeds : Succeeds ((handler.addNode chainId (some request)).run store).1) :
    handler.record chainId request.key store = none := by
  have valid := addNode_valid succeeds
  cases stored : store.records (nodeEtcdKey handler.keyPrefix chainId request.key) with
  | none => exact stored
  | some record =>
    simp only [addNode, valid, Program.run, stored] at succeeds
    exact absurd succeeds not_succeeds_error

/-- A call on the node that succeeds finds no record, or a manual one. -/
theorem onNode_succeeds {operation : Operation} {store : EtcdStore}
    (onNode : operation.OnNode nodeKey)
    (succeeds : Succeeds ((handler.call chainId operation).run store).1) :
    handler.record chainId nodeKey store = none ∨
      ∃ node, handler.Manual chainId nodeKey store node := by
  cases operation with
  | addNode request =>
    cases request with
    | none => exact absurd succeeds not_succeeds_error
    | some request =>
      left
      rw [← onNode request rfl]
      exact addNode_succeeds succeeds
  | updateNode key request =>
    cases onNode
    cases request with
    | none => exact absurd succeeds not_succeeds_error
    | some request =>
      right
      simp only [call, updateNode] at succeeds
      cases refused : request.validate with
      | some answer =>
        rw [refused] at succeeds
        exact absurd succeeds (updateNode_refused refused)
      | none =>
        rw [refused] at succeeds
        exact getManualNode_succeeds succeeds
  | deleteNode key =>
    cases onNode
    exact .inr (getManualNode_succeeds succeeds)
  | _ => cases onNode

end Handler

variable {handler : Handler} {chainId nodeKey : Bytes} {store : EtcdStore}
  {schedule : List AdminAction} {final : AdminPool}

/-- However the calls on a node and outside writers interleave, and whichever replies are lost: if
each `DeleteNode` that goes through finds the node stored and manual, and each `UpdateNode` finds it
so and otherwise as it was read, no update of the node is lost. -/
theorem node_updates_not_lost
    (run : exec (Pool.step (handler.call chainId)) (Pool.start store) schedule = some final)
    (listed : ∀ operation, .submit operation ∈ schedule → operation.OnNode nodeKey)
    (deletes : ∀ index pool action, Pool.Passes (handler.call chainId) store schedule pool action →
      Pool.Commits action index → handler.DeletesManual chainId pool index)
    (updates : ∀ index pool action, Pool.Passes (handler.call chainId) store schedule pool action →
      Pool.Commits action index → handler.UpdatesCurrent chainId pool index) :
    handler.NodeSerial chainId nodeKey store schedule final := by
  have commits (index : Nat) (pool : AdminPool) (action : AdminAction)
      (passes : Pool.Passes (handler.call chainId) store schedule pool action)
      (commits : Pool.Commits action index) :
      Pool.CommitsAtomically (handler.call chainId) pool index := by
    have manual := deletes index pool action passes commits
    have current := updates index pool action passes commits
    obtain ⟨before, -, reached⟩ := passes
    exact Handler.commitsAtomically (Pool.accounted_of_run Handler.call_honest reached) manual current
  refine ⟨Pool.serializes_of_run Handler.call_honest run commits _, ?_⟩
  intro index pool action next stored passes acts last present foreign
  have here := passes
  obtain ⟨before, shorter, reached⟩ := here
  have accounted := Pool.accounted_of_run Handler.call_honest reached
  rcases Pool.step_effect Handler.call_honest accounted (commits index pool action passes) acts last with
    same | ⟨client, known, succeeds, -⟩
  · rw [same]
    exact present
  · have submitted := Pool.submitted_of_run reached client known
    have onNode := listed _ (shorter.subset (List.mem_append_left _ submitted))
    rcases Handler.onNode_succeeds onNode succeeds with absent | ⟨node, manual⟩
    · cases absent.symm.trans present
    · exact absurd manual (foreign node)

/-- An update with nothing in its way. -/
def plainUpdate : List AdminAction :=
  [.submit (.updateNode (ascii "n") (some ⟨[], 8546⟩)), .advance 0, .advance 0]

theorem plainUpdate_passes
    (passes : Pool.Passes (sampleHandler.call (ascii "1")) sampleStore plainUpdate pool action) :
    pool.store = sampleStore ∧ ∀ client ∈ pool.clients,
      client.operation = .updateNode (ascii "n") (some ⟨[], 8546⟩) ∧
      ∀ read ∈ client.reads, read.2 = sampleHandler.record (ascii "1") (ascii "n") sampleStore := by
  obtain ⟨before, ⟨rest, same⟩, reached⟩ := passes
  rcases before with _ | ⟨first, _ | ⟨second, _ | ⟨third, before⟩⟩⟩
  all_goals simp [plainUpdate] at same
  · cases Option.some.inj reached
    refine ⟨rfl, ?_⟩
    intro client listed
    cases listed
  · obtain ⟨rfl, -⟩ := same
    cases Option.some.inj reached
    refine ⟨rfl, ?_⟩
    intro client listed
    cases List.mem_singleton.mp listed
    exact ⟨rfl, by simp⟩
  · obtain ⟨rfl, rfl, -⟩ := same
    cases Option.some.inj reached
    refine ⟨rfl, ?_⟩
    intro client listed
    cases List.mem_singleton.mp listed
    refine ⟨rfl, ?_⟩
    intro read listed
    cases List.mem_singleton.mp listed
    rfl

theorem node_updates_not_lost_plain :
    ∃ final, exec (Pool.step (sampleHandler.call (ascii "1"))) (Pool.start sampleStore) plainUpdate =
        some final ∧
      sampleHandler.NodeSerial (ascii "1") (ascii "n") sampleStore plainUpdate final := by
  refine ⟨_, rfl, node_updates_not_lost rfl ?_ ?_ ?_⟩
  · intro operation listed
    simp only [plainUpdate, List.mem_cons, PoolAction.submit.injEq, reduceCtorEq, List.not_mem_nil,
      or_false] at listed
    subst listed
    rfl
  · intro index pool action passes _ client nodeKey guards writes answer found asked
    have update := ((plainUpdate_passes passes).2 client (List.mem_of_getElem? found)).1
    cases update.symm.trans asked
  · intro index pool action passes _ client nodeKey request guards writes answer found asked rest
    obtain ⟨stored, clients⟩ := plainUpdate_passes passes
    obtain ⟨update, reads⟩ := clients client (List.mem_of_getElem? found)
    cases update.symm.trans asked
    rw [stored]
    refine ⟨sampleNode, ⟨_, rfl, rfl, rfl⟩, ?_⟩
    intro key record listed before decoded
    cases reads _ listed
    cases decoded
    rfl

/-- An update that writes after a deletion it has not seen. -/
def lateUpdate : List AdminAction :=
  [.submit (.updateNode (ascii "n") (some ⟨[], 8546⟩)), .advance 0,
    .submit (.deleteNode (ascii "n")), .advance 1, .advance 1, .advance 1, .advance 0]

theorem late_update_recreates_node :
    ∃ final : AdminPool,
      exec (Pool.step (sampleHandler.call (ascii "1"))) (Pool.start sampleStore) lateUpdate =
        some final ∧
      final.history.map Event.committed = [some 1, some 0] ∧
      (sampleHandler.record (ascii "1") (ascii "n") final.store).map Record.value =
        some movedNodeText ∧
      sampleHandler.record (ascii "1") (ascii "n")
        (Pool.replay (sampleHandler.call (ascii "1")) sampleStore final.history) = none ∧
      ¬sampleHandler.NodeSerial (ascii "1") (ascii "n") sampleStore lateUpdate final := by
  refine ⟨_, rfl, rfl, by decide, by decide, ?_⟩
  intro serial
  have same := serial.serializes.replayed
  revert same
  decide

end NodexProxy.Admin
