import NodexProxy.Admin.Atomicity
import NodexProxy.Discovery.Routes

/-! What one handler call does to the gateway of a chain, as a change of its content. A call that
interleaves with others does at its commit what it would do there on its own. -/

namespace NodexProxy.Admin

open NodexProxy.Foundation NodexProxy.Discovery

theorem nodeEtcdKey_ne_gatewayKey (keyPrefix chainId nodeKey : Bytes) :
    nodeEtcdKey keyPrefix chainId nodeKey ≠ gatewayKey keyPrefix chainId := by
  intro same
  have tail : ascii "/nodes/" ++ nodeKey = ascii "/gateway" := by
    simpa [nodeEtcdKey, gatewayKey] using same
  have second := congrArg (fun bytes => bytes[1]?) tail
  simp [ascii] at second

namespace Handler

variable (handler : Handler) (chainId : Bytes)

/-- The gateway `getGatewayConfig` gets from a store; without a record it is the empty one. -/
def Reads (store : EtcdStore) (gateway : GatewayBody) : Prop :=
  match store.records (gatewayKey handler.keyPrefix chainId) with
  | none => gateway = ⟨[], none⟩
  | some record => handler.unmarshalGateway record.value = .ok gateway

/-- The record of the gateway is the text of this one. -/
def Wrote (store : EtcdStore) (gateway : GatewayBody) : Prop :=
  ∃ record, store.records (gatewayKey handler.keyPrefix chainId) = some record ∧
    handler.marshalGateway gateway = .ok record.value

variable {handler chainId} {store : EtcdStore} {gateway : GatewayBody}

theorem getGatewayConfig_run (reads : handler.Reads chainId store gateway)
    (next : Except Bytes (GatewayBody × Nat) → Call) :
    (handler.getGatewayConfig chainId next).run store =
      (next (.ok (gateway, stampOf (store.records (gatewayKey handler.keyPrefix chainId))))).run
        store := by
  simp only [getGatewayConfig, Program.run]
  unfold Reads at reads
  cases stored : store.records (gatewayKey handler.keyPrefix chainId) with
  | none =>
    simp only [stored] at reads
    rw [reads]
    rfl
  | some record =>
    simp only [stored] at reads
    simp only [reads]
    rfl

theorem Wrote.of_write (marshals : handler.marshalGateway gateway = .ok bytes)
    (writes : List (Write Bytes Bytes)) :
    handler.Wrote chainId
      (store.write (writes ++ [.put (gatewayKey handler.keyPrefix chainId) bytes])) gateway := by
  refine ⟨⟨bytes, store.revision + 1, versionOf ((store.write writes).records
    (gatewayKey handler.keyPrefix chainId)) + 1⟩, ?_, marshals⟩
  simp only [RevisionStore.write, List.foldl_append, List.foldl_cons, List.foldl_nil, Write.apply]
  exact Function.update_self ..

/-- The answer and the store of a call that writes this gateway where it read one. -/
def stored (handler : Handler) (chainId : Bytes) (store : EtcdStore) (gateway : GatewayBody)
    (next : Option Bytes → Answer) : Answer × EtcdStore :=
  match handler.marshalGateway gateway with
  | .error error => (next (some (ascii "failed to marshal gateway config: " ++ error)), store)
  | .ok bytes => (next none, store.write [.put (gatewayKey handler.keyPrefix chainId) bytes])

theorem Wrote.of_stored {next : Option Bytes → Answer} (fails : ∀ error, ¬Succeeds (next (some error)))
    (succeeds : Succeeds (handler.stored chainId store gateway next).1) :
    handler.Wrote chainId (handler.stored chainId store gateway next).2 gateway := by
  unfold stored at succeeds ⊢
  cases marshals : handler.marshalGateway gateway with
  | error error =>
    rw [marshals] at succeeds
    exact absurd succeeds (fails _)
  | ok bytes => exact Wrote.of_write marshals []

/-- A comparison with the record that is there holds. -/
theorem meetsAll_stamp (store : EtcdStore) (key : Bytes) :
    store.meetsAll [.modRevision key (stampOf (store.records key))] = true := by
  simp [RevisionStore.meetsAll, RevisionStore.meets]

theorem updateGatewayConfig_run (gateway : GatewayBody) (next : Option Bytes → Answer) :
    (handler.updateGatewayConfigWithTransaction chainId gateway
      (stampOf (store.records (gatewayKey handler.keyPrefix chainId))) next).run store =
      handler.stored chainId store gateway next := by
  unfold updateGatewayConfigWithTransaction stored
  cases handler.marshalGateway gateway with
  | error error => rfl
  | ok bytes => exact if_pos (meetsAll_stamp store _)

/-- How the route handlers answer once the gateway has been written, or not. -/
def editAnswer (reply : Reply) (error : Option Bytes) : Answer :=
  match error with
  | some error => .error 500 error
  | none => .ok reply

theorem editGateway_run (reads : handler.Reads chainId store gateway)
    {edit : GatewayBody → Option GatewayBody} (edits : edit gateway = some edited)
    (missing : Answer) (reply : GatewayBody → Reply) :
    (handler.editGateway chainId edit missing reply).run store =
      handler.stored chainId store edited (editAnswer (reply edited)) := by
  rw [editGateway, getGatewayConfig_run reads]
  dsimp only
  rw [edits]
  exact updateGatewayConfig_run edited _

theorem editGateway_missing (reads : handler.Reads chainId store gateway)
    {edit : GatewayBody → Option GatewayBody} (refuses : edit gateway = none) (missing : Answer)
    (reply : GatewayBody → Reply) :
    (handler.editGateway chainId edit missing reply).run store = (missing, store) := by
  rw [editGateway, getGatewayConfig_run reads]
  dsimp only
  rw [refuses]
  rfl

/-- An edit that is committed has written the edited gateway. -/
theorem editGateway_succeeds (reads : handler.Reads chainId store gateway)
    {edit : GatewayBody → Option GatewayBody} {missing : Answer} {reply : GatewayBody → Reply}
    (refused : ¬Succeeds missing)
    (succeeds : Succeeds ((handler.editGateway chainId edit missing reply).run store).1) :
    ∃ edited, edit gateway = some edited ∧ handler.Wrote chainId
      ((handler.editGateway chainId edit missing reply).run store).2 edited := by
  cases edits : edit gateway with
  | none =>
    rw [editGateway_missing reads edits] at succeeds
    exact absurd succeeds refused
  | some edited =>
    rw [editGateway_run reads edits] at succeeds ⊢
    exact ⟨edited, rfl, Wrote.of_stored (fun _ => not_succeeds_error) succeeds⟩

end Handler

end NodexProxy.Admin
