import NodexProxy.Foundation.Serial

/-! What a run of clients writes to the store, transaction by transaction. The store reached is the
journal applied to the store at the start. -/

namespace NodexProxy.Foundation

variable {Key Value Error Answer Operation : Type} [DecidableEq Key]

namespace Pool

variable (programOf : Operation → Program Key Value Error Answer)

/-- The writes of an action, if it writes. -/
def wrote (pool : Pool Key Value Error Answer Operation) :
    PoolAction Key Value Error Operation → Option (List (Write Key Value))
  | .external writes => some writes
  | .advance index | .lose index _ => pool.clients[index]?.bind fun client =>
    match client.rest with
    | .commit guards writes _ => if pool.store.meetsAll guards then some writes else none
    | _ => none
  | _ => none

/-- The writes of a run, one list for each revision. -/
def journal (pool : Pool Key Value Error Answer Operation) :
    List (PoolAction Key Value Error Operation) → List (List (Write Key Value))
  | [] => []
  | action :: rest =>
    (pool.wrote action).toList ++
      (pool.step programOf action).elim [] fun next => next.journal rest

variable {programOf} {pool next final : Pool Key Value Error Answer Operation}
  {action : PoolAction Key Value Error Operation}
  {schedule : List (PoolAction Key Value Error Operation)}

theorem store_of_step (stepped : pool.step programOf action = some next) :
    next.store = (pool.wrote action).toList.foldl RevisionStore.write pool.store := by
  cases action with
  | submit operation =>
    cases stepped
    rfl
  | advance index =>
    obtain ⟨client, found, moved⟩ := Option.bind_eq_some_iff.mp stepped
    rw [wrote, found, Option.bind_some]
    obtain ⟨operation, reads, rest⟩ := client
    cases rest with
    | done answer => cases moved
    | get key more =>
      cases moved
      rfl
    | commit guards writes answer =>
      simp only [advance] at moved ⊢
      split_ifs at moved ⊢
      · cases moved
        rfl
      · cases moved
        rfl
  | fail index error =>
    obtain ⟨client, -, moved⟩ := Option.bind_eq_some_iff.mp stepped
    obtain ⟨_, -, rfl⟩ := fail_cases moved
    rfl
  | lose index error =>
    obtain ⟨client, found, moved⟩ := Option.bind_eq_some_iff.mp stepped
    obtain ⟨guards, writes, answer, rest, met, rfl⟩ := lose_cases moved
    simp [wrote, found, rest, met]
  | external writes =>
    cases stepped
    rfl

theorem store_of_journal (run : exec (step programOf) pool schedule = some final) :
    final.store = (journal programOf pool schedule).foldl RevisionStore.write pool.store := by
  induction schedule generalizing pool with
  | nil =>
    cases run
    rfl
  | cons action rest inductionHypothesis =>
    obtain ⟨next, stepped, run⟩ := Option.bind_eq_some_iff.mp run
    rw [journal, stepped, List.foldl_append, ← store_of_step stepped]
    exact inductionHypothesis run

end Pool

def Write.key : Write Key Value → Key
  | .put key _ => key
  | .delete key => key

/-- A key that is not written keeps its record. -/
theorem RevisionStore.records_write_of_ne {writes : List (Write Key Value)} {key : Key}
    (elsewhere : ∀ write ∈ writes, write.key ≠ key) (store : RevisionStore Key Value) :
    (store.write writes).records key = store.records key := by
  refine List.foldlRecOn (motive := fun records => records key = store.records key) writes
    (Write.apply (store.revision + 1)) rfl fun records kept write member => ?_
  have apart := (elsewhere write member).symm
  cases write with
  | put target value => exact (Function.update_of_ne apart ..).trans kept
  | delete target => exact (Function.update_of_ne apart ..).trans kept

/-- A key that is only deleted has no record afterwards. -/
theorem RevisionStore.records_write_of_not_put {writes : List (Write Key Value)} {key : Key}
    [DecidableEq Value] (noPut : ∀ value, .put key value ∉ writes) (store : RevisionStore Key Value) :
    (store.write writes).records key =
      if .delete key ∈ writes then none else store.records key := by
  unfold RevisionStore.write
  dsimp only
  generalize store.revision + 1 = revision
  generalize store.records = records
  induction writes generalizing records with
  | nil => rfl
  | cons write rest inductionHypothesis =>
    rw [List.foldl_cons, inductionHypothesis fun value listed =>
      noPut value (List.mem_cons_of_mem _ listed)]
    cases write with
    | put target value =>
      have apart : key ≠ target := by
        rintro rfl
        exact noPut value List.mem_cons_self
      simp [Write.apply, apart]
    | delete target =>
      by_cases same : key = target
      · subst same
        simp [Write.apply]
      · simp [Write.apply, same]

omit [DecidableEq Key] in
/-- Versions count from 1, so only an absent key has version 0. -/
theorem RevisionStore.vacant_of_version {store : RevisionStore Key Value} {key : Key}
    (zero : versionOf (store.records key) = 0) : store.records key = none := by
  cases stored : store.records key with
  | none => rfl
  | some record =>
    rw [stored] at zero
    have counted := (store.stamped key record stored).2.2
    exact absurd zero (Nat.one_le_iff_ne_zero.mp counted)

/-- Each entry of a journal is a revision. -/
theorem RevisionStore.revision_foldl_write (journal : List (List (Write Key Value)))
    (store : RevisionStore Key Value) :
    (journal.foldl RevisionStore.write store).revision = store.revision + journal.length := by
  induction journal generalizing store with
  | nil => rfl
  | cons writes rest inductionHypothesis =>
    rw [List.foldl_cons, inductionHypothesis, List.length_cons]
    show store.revision + 1 + rest.length = _
    omega

end NodexProxy.Foundation
