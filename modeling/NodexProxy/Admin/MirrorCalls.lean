import NodexProxy.Foundation.Journal
import NodexProxy.Lb.Mirrors

/-! The mirror handlers that write to etcd. Each target has a key of its own, `AddMirror` claims it
with a transaction, `DeleteMirror` looks before it deletes, and `DeleteAllMirrors` deletes by the
common beginning of the keys. Whatever they interleave with, etcd holds the table that the writes
make, one after the other. -/

namespace NodexProxy.Admin

open NodexProxy.Foundation NodexProxy.Discovery NodexProxy.Lb

/-- `json.Marshal` at the stored record, with the text of its error. -/
structure MirrorHandler where
  keyPrefix : Bytes
  marshalMirror : MirrorBody → Except Bytes Bytes

/-- The requests, with what `Bind` made of the body. -/
inductive MirrorCall where
  | addMirror (bound : Except Bytes MirrorRequest)
  | deleteMirror (bound : Except Bytes MirrorRequest)
deriving DecidableEq

abbrev MirrorAnswer := Except Answer MirrorReply

abbrev MirrorProgram := Program Bytes Bytes Bytes MirrorAnswer

abbrev MirrorPool := Pool Bytes Bytes Bytes MirrorAnswer MirrorCall

abbrev MirrorAction := PoolAction Bytes Bytes Bytes MirrorCall

abbrev MirrorEvent := Event Bytes Bytes MirrorCall

def MirrorRequest.body (request : MirrorRequest) : MirrorBody :=
  ⟨request.address, request.port, request.rateLimit⟩

def mirrorFailure (text : String) (error : Bytes) : MirrorAnswer :=
  .error (.error 500 (ascii text ++ error))

namespace MirrorHandler

variable (handler : MirrorHandler) (chainId : Bytes)

def etcdKey (addrKey : Bytes) : Bytes := mirrorEtcdKey handler.keyPrefix chainId addrKey

def addMirror (bound : Except Bytes MirrorRequest) : MirrorProgram :=
  match checkLocal chainId bound with
  | .error answer => .done (.error answer)
  | .ok request =>
    .get (handler.etcdKey chainId request.addrKey) fun
      | .error error => .done (mirrorFailure "failed to get mirror from etcd: " error)
      | .ok (some _) =>
        .done (.error (.error 400 (ascii "mirror " ++ request.addrKey ++ ascii " already exists")))
      | .ok none =>
        match handler.marshalMirror request.body with
        | .error error => .done (mirrorFailure "failed to marshal mirror data: " error)
        | .ok bytes =>
          .commit [.version (handler.etcdKey chainId request.addrKey) 0]
            [.put (handler.etcdKey chainId request.addrKey) bytes] fun
            | .error error => mirrorFailure "failed to commit transaction: " error
            | .ok false =>
              .error (badRequest "concurrent modification detected, please retry")
            | .ok true =>
              .ok (.added request.address request.port (mirrorURL request.address request.port)
                request.rateLimit (ascii "mirror target added successfully"))

/-- `Delete` is a transaction without comparisons. -/
def deleteMirror (bound : Except Bytes MirrorRequest) : MirrorProgram :=
  match checkLocal chainId bound with
  | .error answer => .done (.error answer)
  | .ok request =>
    .get (handler.etcdKey chainId request.addrKey) fun
      | .error _ => .done (mirrorFailure "failed to get mirror from etcd" [])
      | .ok none =>
        .done (.error (.error 404 (ascii "mirror " ++ request.addrKey ++ ascii " not found")))
      | .ok (some _) =>
        .commit [] [.delete (handler.etcdKey chainId request.addrKey)] fun
          | .error error => mirrorFailure "failed to delete mirror from etcd: " error
          -- there is no comparison to fail
          | .ok false => mirrorFailure "failed to delete mirror from etcd: " []
          | .ok true => .ok (.message (ascii "mirror target deleted successfully"))

def call : MirrorCall → MirrorProgram
  | .addMirror bound => handler.addMirror chainId bound
  | .deleteMirror bound => handler.deleteMirror chainId bound

/-- `DeleteAllMirrors`: its answer and what it writes. A ranged delete is a delete of each stored
key of the range; `stored` has the keys etcd holds, or the text of the error. -/
def deleteAllMirrors (stored : Except Bytes (List Bytes)) :
    MirrorAnswer × List (Write Bytes Bytes) :=
  if chainId = [] then (.error (badRequest "chainId is required"), [])
  else
    match stored with
    | .error error => (mirrorFailure "failed to delete mirrors from etcd: " error, [])
    | .ok keys =>
      (.ok (.message (ascii "all mirror targets deleted successfully")),
        (keys.filter (handler.etcdKey chainId []).isPrefixOf).map .delete)

end MirrorHandler

/-! The table of targets that the calls edit. -/

/-- The targets of a chain, by address key. -/
abbrev MirrorTable := Bytes → Option MirrorBody

def MirrorCall.effect (table : MirrorTable) : MirrorCall → MirrorTable
  | .addMirror (.ok request) => Function.update table request.addrKey (some request.body)
  | .deleteMirror (.ok request) => Function.update table request.addrKey none
  | _ => table

namespace MirrorHandler

variable (handler : MirrorHandler) (chainId : Bytes)

/-- A write from outside removes the targets whose keys it deletes. -/
def afterEvent (table : MirrorTable) : MirrorEvent → MirrorTable
  | .commit _ call | .lost _ call => call.effect table
  | .external writes => fun addrKey =>
    if .delete (handler.etcdKey chainId addrKey) ∈ writes then none else table addrKey

def tableAfter (history : List MirrorEvent) : MirrorTable :=
  history.foldl (handler.afterEvent chainId) fun _ => none

/-- Nobody else puts targets of the chain. -/
def SoleWriter (history : List MirrorEvent) : Prop :=
  ∀ writes, .external writes ∈ history →
    ∀ addrKey value, .put (handler.etcdKey chainId addrKey) value ∉ writes

/-- Etcd has the text of each target of the table and of no other. -/
def Holds (store : RevisionStore Bytes Bytes) (table : MirrorTable) : Prop :=
  ∀ addrKey, (store.records (handler.etcdKey chainId addrKey)).map (Except.ok ∘ Record.value) =
    (table addrKey).map handler.marshalMirror

variable {handler chainId}

@[simp] theorem etcdKey_inj {addrKey other : Bytes} :
    handler.etcdKey chainId addrKey = handler.etcdKey chainId other ↔ addrKey = other :=
  List.append_right_inj _

@[simp] theorem tableAfter_snoc (history : List MirrorEvent) (event : MirrorEvent) :
    handler.tableAfter chainId (history ++ [event]) =
      handler.afterEvent chainId (handler.tableAfter chainId history) event :=
  List.foldl_concat ..

theorem honest (call : MirrorCall) :
    (handler.call chainId call).Honest fun answer => answer.isOk = true := by
  cases call with
  | addMirror bound =>
    show (handler.addMirror chainId bound).Honest _
    unfold addMirror
    split
    · exact Bool.false_ne_true
    · rintro (error | _ | record)
      · exact Bool.false_ne_true
      · dsimp only
        split
        · exact Bool.false_ne_true
        · exact ⟨rfl, Bool.false_ne_true, fun _ => Bool.false_ne_true⟩
      · exact Bool.false_ne_true
  | deleteMirror bound =>
    show (handler.deleteMirror chainId bound).Honest _
    unfold deleteMirror
    split
    · exact Bool.false_ne_true
    · rintro (error | _ | record)
      · exact Bool.false_ne_true
      · exact Bool.false_ne_true
      · exact ⟨rfl, Bool.false_ne_true, fun _ => Bool.false_ne_true⟩

theorem request_of_checkLocal {bound : Except Bytes MirrorRequest} {request : MirrorRequest}
    (passes : checkLocal chainId bound = .ok request) : bound = .ok request := by
  unfold checkLocal at passes
  split_ifs at passes
  cases bound with
  | error text => cases passes
  | ok given =>
    dsimp only at passes
    split at passes
    · cases passes
    · cases passes
      rfl

/-- The transactions of the two handlers. -/
inductive Commits (handler : MirrorHandler) (chainId : Bytes) :
    MirrorCall → List (Guard Bytes) → List (Write Bytes Bytes) → Prop where
  | add (request : MirrorRequest) (marshals : handler.marshalMirror request.body = .ok bytes) :
    Commits handler chainId (.addMirror (.ok request))
      [.version (handler.etcdKey chainId request.addrKey) 0]
      [.put (handler.etcdKey chainId request.addrKey) bytes]
  | delete (request : MirrorRequest) :
    Commits handler chainId (.deleteMirror (.ok request)) []
      [.delete (handler.etcdKey chainId request.addrKey)]

theorem commits_of_reaches {store : RevisionStore Bytes Bytes} {call : MirrorCall}
    {reads : List (Bytes × Option (Record Bytes))}
    (reaches : (handler.call chainId call).Reaches store reads (.commit guards writes answer)) :
    handler.Commits chainId call guards writes := by
  cases call with
  | addMirror bound =>
    change (handler.addMirror chainId bound).Reaches _ _ _ at reaches
    unfold addMirror at reaches
    split at reaches
    · cases reaches
    · rename_i request passes
      cases request_of_checkLocal passes
      cases reaches with
      | failed more => cases more
      | @read _ reply _ _ _ _ more =>
        cases reply with
        | some record => cases more
        | none =>
          dsimp only at more
          split at more
          · cases more
          · cases more
            exact .add request ‹_›
  | deleteMirror bound =>
    change (handler.deleteMirror chainId bound).Reaches _ _ _ at reaches
    unfold deleteMirror at reaches
    split at reaches
    · cases reaches
    · rename_i request passes
      cases request_of_checkLocal passes
      cases reaches with
      | failed more => cases more
      | @read _ reply _ _ _ _ more =>
        cases reply with
        | none => cases more
        | some record =>
          cases more
          exact .delete request

section Runs

variable {store base : RevisionStore Bytes Bytes} {table : MirrorTable}
  {actions : List MirrorAction} {pool : MirrorPool}

theorem Commits.holds {call : MirrorCall} (commits : handler.Commits chainId call guards writes)
    (holds : handler.Holds chainId store table) :
    handler.Holds chainId (store.write writes) (call.effect table) := by
  intro addrKey
  cases commits with
  | add request marshals =>
    by_cases same : addrKey = request.addrKey
    · subst same
      simp [RevisionStore.write, Write.apply, MirrorCall.effect, marshals]
    · simp [RevisionStore.write, Write.apply, MirrorCall.effect, same, holds addrKey]
  | delete request =>
    by_cases same : addrKey = request.addrKey
    · subst same
      simp [RevisionStore.write, Write.apply, MirrorCall.effect]
    · simp [RevisionStore.write, Write.apply, MirrorCall.effect, same, holds addrKey]

theorem Holds.external (holds : handler.Holds chainId store table)
    (noPut : ∀ addrKey value, .put (handler.etcdKey chainId addrKey) value ∉ writes) :
    handler.Holds chainId (store.write writes)
      (handler.afterEvent chainId table (.external writes)) := by
  intro addrKey
  rw [RevisionStore.records_write_of_not_put (noPut addrKey)]
  dsimp only [afterEvent]
  split_ifs
  · rfl
  · exact holds addrKey

/-- The comparison of `AddMirror` only holds for a target that is not there. -/
theorem Holds.absent (holds : handler.Holds chainId store table)
    (met : store.meetsAll [.version (handler.etcdKey chainId addrKey) 0] = true) :
    table addrKey = none := by
  have vacant : store.records (handler.etcdKey chainId addrKey) = none := by
    apply RevisionStore.vacant_of_version
    simpa [RevisionStore.meetsAll, RevisionStore.meets] using met
  have same := holds addrKey
  rw [vacant] at same
  exact Option.map_eq_none_iff.mp same.symm

/-- What a run keeps: etcd has the table, and no target was added over another one. -/
structure Kept (handler : MirrorHandler) (chainId : Bytes) (pool : MirrorPool) : Prop where
  holds : handler.Holds chainId pool.store (handler.tableAfter chainId pool.history)
  fresh : ∀ before event request, before ++ [event] <+: pool.history →
    event.operation = some (.addMirror (.ok request)) →
      handler.tableAfter chainId before request.addrKey = none

theorem afterEvent_applies {call : MirrorCall} {event : MirrorEvent}
    (applies : Pool.Applies index call action reply event) :
    handler.afterEvent chainId table event = call.effect table := by
  cases applies <;> rfl

theorem kept_of_run (vacant : ∀ addrKey, base.records (handler.etcdKey chainId addrKey) = none)
    (run : exec (Pool.step (handler.call chainId)) (Pool.start base) actions = some pool)
    (sole : handler.SoleWriter chainId pool.history) : handler.Kept chainId pool := by
  refine exec_induction (motive := fun _ pool =>
    handler.SoleWriter chainId pool.history → handler.Kept chainId pool) (fun _ => ?_) ?_ run sole
  · refine ⟨fun addrKey => ?_, fun before event request listed => ?_⟩
    · exact congrArg _ (vacant addrKey)
    · simp [Pool.start] at listed
  intro past pool action final before kept stepped sole
  have accounted := Pool.accounted_of_run honest before
  rcases Pool.step_cases stepped with ⟨operation, -, rfl⟩ | ⟨index, client, moved, -, -, rfl⟩ |
    ⟨index, client, guards, writes, answer, reply, event, applies, found, rest, met, rfl⟩ |
    ⟨writes, -, rfl⟩
  · exact ⟨(kept sole).holds, (kept sole).fresh⟩
  · exact ⟨(kept sole).holds, (kept sole).fresh⟩
  · have kept := kept fun writes listed => sole writes (List.mem_append_left _ listed)
    rcases accounted.settled index client found with ⟨reaches, -⟩ | ⟨answer, done, -⟩
    · rw [rest] at reaches
      have commits := commits_of_reaches reaches
      refine ⟨?_, fun earlier noted request listed asked => ?_⟩
      · rw [tableAfter_snoc, afterEvent_applies applies]
        exact commits.holds kept.holds
      · rcases List.prefix_concat_iff.mp listed with last | listed
        · obtain ⟨rfl, same⟩ := List.append_inj' last rfl
          obtain rfl := List.singleton_inj.mp same
          rw [Option.some.inj (applies.operation_eq.symm.trans asked)] at commits
          cases commits with
          | add request marshals => exact kept.holds.absent met
        · exact kept.fresh earlier noted request listed asked
    · cases done.symm.trans rest
  · have kept := kept fun writes listed => sole writes (List.mem_append_left _ listed)
    refine ⟨?_, fun earlier noted request listed asked => ?_⟩
    · rw [tableAfter_snoc]
      exact kept.holds.external (sole writes (by simp))
    · rcases List.prefix_concat_iff.mp listed with last | listed
      · obtain ⟨-, same⟩ := List.append_inj' last rfl
        obtain rfl := List.singleton_inj.mp same
        cases asked
      · exact kept.fresh earlier noted request listed asked

theorem put_notMem_deleteAllMirrors {stored : Except Bytes (List Bytes)} {key value : Bytes} :
    .put key value ∉ (handler.deleteAllMirrors chainId stored).2 := by
  unfold deleteAllMirrors
  split_ifs
  · exact List.not_mem_nil
  · cases stored with
    | error error => exact List.not_mem_nil
    | ok keys => simp

/-- `DeleteAllMirrors` empties the table. -/
theorem afterEvent_deleteAllMirrors (named : chainId ≠ []) {keys : List Bytes}
    (present : ∀ addrKey, (table addrKey).isSome → handler.etcdKey chainId addrKey ∈ keys) :
    handler.afterEvent chainId table
      (.external (handler.deleteAllMirrors chainId (.ok keys)).2) = fun _ => none := by
  funext addrKey
  dsimp only [afterEvent]
  split_ifs with deleted
  · rfl
  · by_contra there
    refine deleted ?_
    rw [deleteAllMirrors, if_neg named]
    refine List.mem_map_of_mem (List.mem_filter.mpr ⟨present addrKey ?_, ?_⟩)
    · exact Option.isSome_iff_ne_none.mpr there
    · rw [List.isPrefixOf_iff_prefix, etcdKey, etcdKey, mirrorEtcdKey, mirrorEtcdKey,
        List.append_nil]
      exact List.prefix_append ..

end Runs

end MirrorHandler

def sampleMirror : MirrorRequest := ⟨ascii "10.0.0.1", 8545, some 20⟩

def sampleMirrorHandler : MirrorHandler where
  keyPrefix := ascii "/"
  marshalMirror := fun body =>
    if body = sampleMirror.body then .ok (ascii "mirror") else .error (ascii "unsupported value")

def mirrorRace : List MirrorAction :=
  [.submit (.addMirror (.ok sampleMirror)), .submit (.addMirror (.ok sampleMirror)), .advance 0,
    .advance 1, .advance 1, .advance 0]

def mirrorRaceCleared : List MirrorAction :=
  mirrorRace ++ [.external (sampleMirrorHandler.deleteAllMirrors (ascii "1")
    (.ok [ascii "/1/gateway", ascii "/1/mirror/10.0.0.1:8545"])).2]

end NodexProxy.Admin
