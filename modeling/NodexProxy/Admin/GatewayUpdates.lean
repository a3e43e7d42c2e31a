import NodexProxy.Admin.Atomicity

/-! Concurrent edits of one chain's gateway record. -/

namespace NodexProxy.Admin

open NodexProxy.Foundation NodexProxy.Discovery

/-- All handlers but `UpdateNode`, which leaves the gateway alone. -/
def Operation.EditsGateway : Operation → Prop
  | .updateNode _ _ => False
  | _ => True

namespace Handler

variable (handler : Handler) (chainId : Bytes)

def gateway (store : EtcdStore) : Option Bytes :=
  (store.records (gatewayKey handler.keyPrefix chainId)).map Record.value

/-- No gateway update is lost in a run, and a call that is refused changes nothing in etcd. -/
structure GatewaySerial (store : EtcdStore) (schedule : List AdminAction) (final : AdminPool) :
    Prop where
  serializes : Pool.Serializes (handler.call chainId) Succeeds (handler.gateway chainId) store
    schedule final
  refused : ∀ index client answer, final.clients[index]? = some client →
    client.rest = .done answer → ¬Succeeds answer →
    ∀ pool action next, Pool.Passes (handler.call chainId) store schedule pool action →
      Pool.Calls action index → pool.step (handler.call chainId) action = some next →
      next.store = pool.store

end Handler

variable {handler : Handler} {chainId : Bytes} {store : EtcdStore} {schedule : List AdminAction}
  {final : AdminPool}

/-- However the calls and outside writers interleave, and whichever replies are lost: if each
`DeleteNode` that goes through finds its node still stored and manual, no gateway update is lost. -/
theorem gateway_updates_not_lost
    (run : exec (Pool.step (handler.call chainId)) (Pool.start store) schedule = some final)
    (listed : ∀ operation, .submit operation ∈ schedule → operation.EditsGateway)
    (deletes : ∀ index pool action, Pool.Passes (handler.call chainId) store schedule pool action →
      Pool.Commits action index → handler.DeletesManual chainId pool index) :
    handler.GatewaySerial chainId store schedule final := by
  have commits (index : Nat) (pool : AdminPool) (action : AdminAction)
      (passes : Pool.Passes (handler.call chainId) store schedule pool action)
      (commits : Pool.Commits action index) :
      Pool.CommitsAtomically (handler.call chainId) pool index := by
    have manual := deletes index pool action passes commits
    obtain ⟨before, shorter, reached⟩ := passes
    apply Handler.commitsAtomically (Pool.accounted_of_run Handler.call_honest reached) manual
    intro client nodeKey request guards writes answer found asked
    have submitted := Pool.submitted_of_run reached client (List.mem_of_getElem? found)
    rw [asked] at submitted
    have here := shorter.subset (List.mem_append_left _ submitted)
    exact (listed _ here).elim
  refine ⟨Pool.serializes_of_run Handler.call_honest run commits _, ?_⟩
  intro index client answer found done refused pool action next passes calls last
  exact Pool.refused_unchanged Handler.call_honest run found done refused passes calls last

/-- A deletion with nothing in its way. -/
def plainDelete : List AdminAction :=
  [.submit (.deleteNode (ascii "n")), .advance 0, .advance 0, .advance 0]

theorem plainDelete_passes
    (passes : Pool.Passes (sampleHandler.call (ascii "1")) sampleStore plainDelete pool action) :
    pool.store = sampleStore := by
  obtain ⟨before, ⟨rest, same⟩, reached⟩ := passes
  have stored : (exec (Pool.step (sampleHandler.call (ascii "1"))) (Pool.start sampleStore)
      before).map Pool.store = some sampleStore := by
    rcases before with _ | ⟨first, _ | ⟨second, _ | ⟨third, _ | ⟨fourth, before⟩⟩⟩⟩
    all_goals simp [plainDelete] at same
    · rfl
    · obtain ⟨rfl, -⟩ := same
      rfl
    · obtain ⟨rfl, rfl, -⟩ := same
      rfl
    · obtain ⟨rfl, rfl, rfl, -⟩ := same
      rfl
  rw [reached] at stored
  exact Option.some.inj stored

theorem gateway_updates_not_lost_plain :
    ∃ final, exec (Pool.step (sampleHandler.call (ascii "1"))) (Pool.start sampleStore) plainDelete =
        some final ∧ sampleHandler.GatewaySerial (ascii "1") sampleStore plainDelete final := by
  refine ⟨_, rfl, gateway_updates_not_lost rfl ?_ ?_⟩
  · intro operation listed
    simp only [plainDelete, List.mem_cons, PoolAction.submit.injEq, reduceCtorEq, List.not_mem_nil,
      or_false] at listed
    subst listed
    trivial
  · intro index pool action passes _ client nodeKey guards writes answer found asked rest met
    rw [plainDelete_passes passes]
    obtain ⟨before, shorter, reached⟩ := passes
    have submitted := Pool.submitted_of_run reached client (List.mem_of_getElem? found)
    have here := shorter.subset (List.mem_append_left _ submitted)
    rw [asked] at here
    simp only [plainDelete, List.mem_cons, PoolAction.submit.injEq, Operation.deleteNode.injEq,
      reduceCtorEq, List.not_mem_nil, or_false] at here
    subst here
    exact ⟨sampleNode, _, rfl, rfl, rfl⟩

/-- Two deletions of one node with a weight set in between; the first has read the node early. -/
def staleDelete : List AdminAction :=
  [.submit (.deleteNode (ascii "n")), .advance 0,
    .submit (.deleteNode (ascii "n")), .advance 1, .advance 1, .advance 1,
    .submit (.setWeight (ascii "n") (some 50) (some [ascii "n"])), .advance 2, .advance 2,
    .advance 0, .advance 0]

theorem stale_delete_discards_weight :
    ∃ final : AdminPool,
      exec (Pool.step (sampleHandler.call (ascii "1"))) (Pool.start sampleStore) staleDelete =
        some final ∧
      final.history.map Event.committed = [some 1, some 2, some 0] ∧
      sampleHandler.gateway (ascii "1") final.store = some (ascii "\x7b\x7d") ∧
      sampleHandler.gateway (ascii "1")
        (Pool.replay (sampleHandler.call (ascii "1")) sampleStore final.history) =
          some sampleWeightsText ∧
      ¬sampleHandler.GatewaySerial (ascii "1") sampleStore staleDelete final := by
  refine ⟨_, rfl, rfl, by decide, by decide, ?_⟩
  intro serial
  have same := serial.serializes.replayed
  revert same
  decide

end NodexProxy.Admin
