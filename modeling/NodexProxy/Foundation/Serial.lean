import NodexProxy.Foundation.Clients

/-! Interleaved clients against the same clients one after another: where each transaction
that goes through does what its operation would do on its own at that moment, the history
replays to the store reached. -/

namespace NodexProxy.Foundation

variable {Key Value Error Answer Operation : Type} [DecidableEq Key]

/-- A step of one client that leaves the store alone. -/
inductive Client.Moves (store : RevisionStore Key Value)
    (client : Client Key Value Error Answer Operation) :
    Client Key Value Error Answer Operation → Prop where
  | read : client.rest = .get key next →
      Moves store client { client with
        reads := client.reads ++ [(key, store.records key)]
        rest := next (.ok (store.records key)) }
  | readFailed : client.rest = .get key next →
      Moves store client { client with rest := next (.error error) }
  | refused : client.rest = .commit guards writes answer → store.meetsAll guards = false →
      Moves store client { client with rest := .done (answer (.ok false)) }
  | commitFailed : client.rest = .commit guards writes answer →
      Moves store client { client with rest := .done (answer (.error error)) }

omit [DecidableEq Key] in
theorem Client.Moves.not_done {client moved : Client Key Value Error Answer Operation}
    (moves : client.Moves store moved) : client.rest ≠ .done answer := by
  intro done
  cases moves with
  | read rest => cases done.symm.trans rest
  | readFailed rest => cases done.symm.trans rest
  | refused rest => cases done.symm.trans rest
  | commitFailed rest => cases done.symm.trans rest

omit [DecidableEq Key] in
theorem Client.Moves.operation_eq {client moved : Client Key Value Error Answer Operation}
    (moves : client.Moves store moved) : moved.operation = client.operation := by
  cases moves <;> rfl

namespace Pool

/-- A transaction of the client is applied: what the client is told and what the history notes. -/
inductive Applies (index : Nat) (operation : Operation) :
    PoolAction Key Value Error Operation → Except Error Bool → Event Key Value Operation → Prop where
  | reported : Applies index operation (.advance index) (.ok true) (.commit index operation)
  | lost : Applies index operation (.lose index error) (.error error) (.lost index operation)

variable {programOf : Operation → Program Key Value Error Answer} {success : Answer → Prop}
  {pool final : Pool Key Value Error Answer Operation} {operation : Operation}
  {action : PoolAction Key Value Error Operation} {event : Event Key Value Operation}

theorem advance_cases {client : Client Key Value Error Answer Operation}
    (last : pool.advance index client = some final) :
    (∃ moved, client.Moves pool.store moved ∧
        final = { pool with clients := pool.clients.set index moved }) ∨
      ∃ guards writes answer, client.rest = .commit guards writes answer ∧
        pool.store.meetsAll guards = true ∧
        final = {
          store := pool.store.write writes
          clients := pool.clients.set index { client with rest := .done (answer (.ok true)) }
          history := pool.history ++ [.commit index client.operation] } := by
  obtain ⟨operation, reads, rest⟩ := client
  cases rest with
  | done answer => cases last
  | get key next =>
    cases last
    exact .inl ⟨_, .read rfl, rfl⟩
  | commit guards writes answer =>
    simp only [advance] at last
    split_ifs at last with met
    · cases last
      exact .inr ⟨guards, writes, answer, rfl, met, rfl⟩
    · cases last
      exact .inl ⟨_, .refused rfl (Bool.eq_false_of_not_eq_true met), rfl⟩

omit [DecidableEq Key] in
theorem fail_cases {client : Client Key Value Error Answer Operation}
    (last : pool.fail index client error = some final) :
    ∃ moved, client.Moves pool.store moved ∧
      final = { pool with clients := pool.clients.set index moved } := by
  obtain ⟨operation, reads, rest⟩ := client
  cases rest with
  | done answer => cases last
  | get key next =>
    cases last
    exact ⟨_, .readFailed rfl, rfl⟩
  | commit guards writes answer =>
    cases last
    exact ⟨_, .commitFailed rfl, rfl⟩

theorem lose_cases {client : Client Key Value Error Answer Operation}
    (last : pool.lose index client error = some final) :
    ∃ guards writes answer, client.rest = .commit guards writes answer ∧
      pool.store.meetsAll guards = true ∧
      final = {
        store := pool.store.write writes
        clients := pool.clients.set index { client with rest := .done (answer (.error error)) }
        history := pool.history ++ [.lost index client.operation] } := by
  obtain ⟨operation, reads, rest⟩ := client
  cases rest with
  | done answer => cases last
  | get key next => cases last
  | commit guards writes answer =>
    simp only [lose] at last
    split_ifs at last with met
    cases last
    exact ⟨guards, writes, answer, rfl, met, rfl⟩

theorem step_cases (last : pool.step programOf action = some final) :
    (∃ operation, action = .submit operation ∧ final =
        { pool with clients := pool.clients ++ [⟨operation, [], programOf operation⟩] }) ∨
      (∃ index client moved, pool.clients[index]? = some client ∧ client.Moves pool.store moved ∧
        final = { pool with clients := pool.clients.set index moved }) ∨
      (∃ index client guards writes answer reply event,
        Applies index client.operation action reply event ∧
        pool.clients[index]? = some client ∧ client.rest = .commit guards writes answer ∧
        pool.store.meetsAll guards = true ∧
        final = {
          store := pool.store.write writes
          clients := pool.clients.set index { client with rest := .done (answer reply) }
          history := pool.history ++ [event] }) ∨
      ∃ writes, action = .external writes ∧ final = { pool with
        store := pool.store.write writes
        history := pool.history ++ [.external writes] } := by
  cases action with
  | submit operation =>
    cases last
    exact .inl ⟨operation, rfl, rfl⟩
  | advance index =>
    obtain ⟨client, found, last⟩ := Option.bind_eq_some_iff.mp last
    rcases advance_cases last with ⟨moved, moves, rfl⟩ | ⟨guards, writes, answer, rest, met, rfl⟩
    · exact .inr (.inl ⟨index, client, moved, found, moves, rfl⟩)
    · exact .inr (.inr (.inl ⟨index, client, guards, writes, answer, _, _, .reported, found, rest,
        met, rfl⟩))
  | fail index error =>
    obtain ⟨client, found, last⟩ := Option.bind_eq_some_iff.mp last
    obtain ⟨moved, moves, rfl⟩ := fail_cases last
    exact .inr (.inl ⟨index, client, moved, found, moves, rfl⟩)
  | lose index error =>
    obtain ⟨client, found, last⟩ := Option.bind_eq_some_iff.mp last
    obtain ⟨guards, writes, answer, rest, met, rfl⟩ := lose_cases last
    exact .inr (.inr (.inl ⟨index, client, guards, writes, answer, _, _, .lost, found, rest, met,
      rfl⟩))
  | external writes =>
    cases last
    exact .inr (.inr (.inr ⟨writes, rfl, rfl⟩))

def committed (history : List (Event Key Value Operation)) : List Nat :=
  history.filterMap Event.committed

def applied (history : List (Event Key Value Operation)) : List Nat :=
  history.filterMap Event.applied

omit [DecidableEq Key] in
theorem committed_sublist_applied (history : List (Event Key Value Operation)) :
    (committed history).Sublist (applied history) := by
  induction history with
  | nil => exact .slnil
  | cons event rest inductionHypothesis =>
    cases event with
    | commit client operation => exact inductionHypothesis.cons_cons client
    | lost client operation => exact inductionHypothesis.cons client
    | external writes => exact inductionHypothesis

omit [DecidableEq Key] in
theorem Applies.operation_eq (applies : Applies index operation action reply event) :
    event.operation = some operation := by
  cases applies <;> rfl

omit [DecidableEq Key] in
theorem Applies.applied_eq (applies : Applies index operation action reply event) :
    event.applied = some index := by
  cases applies <;> rfl

omit [DecidableEq Key] in
theorem Applies.applied_snoc (applies : Applies index operation action reply event)
    (history : List (Event Key Value Operation)) :
    applied (history ++ [event]) = applied history ++ [index] := by
  simp [applied, applies.applied_eq]

omit [DecidableEq Key] in
theorem Applies.mem_committed_snoc (applies : Applies index operation action reply event)
    (apart : other ≠ index) (history : List (Event Key Value Operation)) :
    other ∈ committed (history ++ [event]) ↔ other ∈ committed history := by
  cases applies <;> simp [committed, Event.committed, apart]

omit [DecidableEq Key] in
@[simp] theorem committed_external (history : List (Event Key Value Operation)) :
    committed (history ++ [.external writes]) = committed history := by
  simp [committed, Event.committed]

omit [DecidableEq Key] in
@[simp] theorem applied_external (history : List (Event Key Value Operation)) :
    applied (history ++ [.external writes]) = applied history := by
  simp [applied, Event.applied]

variable (programOf success)

/-- A client is on its way and has not written, or it is finished and reports success exactly when
it has written and learned of it. -/
def Settled (store : RevisionStore Key Value) (history : List (Event Key Value Operation))
    (index : Nat) (client : Client Key Value Error Answer Operation) : Prop :=
  ((programOf client.operation).Reaches store client.reads client.rest ∧
      index ∉ applied history) ∨
    ∃ answer, client.rest = .done answer ∧ (success answer ↔ index ∈ committed history)

/-- Every client is accounted for, and no client has written twice. -/
structure Accounted (pool : Pool Key Value Error Answer Operation) : Prop where
  settled : ∀ index client, pool.clients[index]? = some client →
    Settled programOf success pool.store pool.history index client
  known : ∀ event ∈ pool.history, ∀ index, event.applied = some index →
    ∃ client, pool.clients[index]? = some client ∧ event.operation = some client.operation
  once : (applied pool.history).Nodup

variable {programOf success} {base : RevisionStore Key Value}
  {past later : List (Event Key Value Operation)}

omit [DecidableEq Key] in
theorem accounted_start (store : RevisionStore Key Value) :
    Accounted programOf success (start store : Pool Key Value Error Answer Operation) where
  settled := by simp [start]
  known := by simp [start]
  once := List.nodup_nil

omit [DecidableEq Key] in
theorem not_committed {history : List (Event Key Value Operation)} (fresh : index ∉ applied history) :
    index ∉ committed history :=
  fun listed => fresh ((committed_sublist_applied history).subset listed)

omit [DecidableEq Key] in
/-- What the client of an applied transaction is told is a success when the history has it so. -/
theorem Applies.success_iff {guards : List (Guard Key)} {writes : List (Write Key Value)}
    {answer : Except Error Bool → Answer} (applies : Applies index operation action reply event)
    (honest : (Program.commit guards writes answer).Honest success) (fresh : index ∉ applied past) :
    success (answer reply) ↔ index ∈ committed (past ++ [event]) := by
  cases applies with
  | reported => exact iff_of_true honest.1 (by simp [committed, Event.committed])
  | lost =>
    refine iff_of_false (honest.2.2 _) ?_
    have kept : committed (past ++ [.lost index operation]) = committed past := by
      simp [committed, Event.committed]
    rw [kept]
    exact not_committed fresh

omit [DecidableEq Key] in
theorem Settled.moves {client moved : Client Key Value Error Answer Operation}
    (honest : ∀ operation, (programOf operation).Honest success)
    (settled : Settled programOf success base past index client)
    (moves : client.Moves base moved) : Settled programOf success base past index moved := by
  rcases settled with ⟨reaches, fresh⟩ | ⟨answer, done, -⟩
  · have reached := (honest client.operation).reached reaches
    cases moves with
    | read rest =>
      rw [rest] at reaches
      exact .inl ⟨reaches.snoc (.read base _), fresh⟩
    | readFailed rest =>
      rw [rest] at reaches
      exact .inl ⟨reaches.fail _, fresh⟩
    | refused rest =>
      rw [rest] at reached
      exact .inr ⟨_, rfl, iff_of_false reached.2.1 (not_committed fresh)⟩
    | commitFailed rest =>
      rw [rest] at reached
      exact .inr ⟨_, rfl, iff_of_false (reached.2.2 _) (not_committed fresh)⟩
  · exact absurd done moves.not_done

theorem Settled.write {client : Client Key Value Error Answer Operation}
    (settled : Settled programOf success base past index client)
    (writes : List (Write Key Value)) (same : index ∈ committed later ↔ index ∈ committed past)
    (older : index ∈ applied later → index ∈ applied past) :
    Settled programOf success (base.write writes) later index client := by
  rcases settled with ⟨reaches, fresh⟩ | ⟨answer, done, agrees⟩
  · exact .inl ⟨reaches.write writes, mt older fresh⟩
  · exact .inr ⟨answer, done, agrees.trans same.symm⟩

omit [DecidableEq Key] in
theorem Accounted.lt (accounted : Accounted programOf success pool)
    (listed : index ∈ applied pool.history) : index < pool.clients.length := by
  obtain ⟨event, stored, writer⟩ := List.mem_filterMap.mp listed
  obtain ⟨client, found, -⟩ := accounted.known event stored index writer
  exact (List.getElem?_eq_some_iff.mp found).1

omit [DecidableEq Key] in
/-- Replacing a client by one with the same operation keeps every applied operation known. -/
theorem known_set {clients : List (Client Key Value Error Answer Operation)}
    {client : Client Key Value Error Answer Operation} {index position : Nat}
    {asked : Option Operation} (moved : Client Key Value Error Answer Operation)
    (found : clients[index]? = some client) (same : moved.operation = client.operation)
    (known : ∃ client, clients[position]? = some client ∧ asked = some client.operation) :
    ∃ client, (clients.set index moved)[position]? = some client ∧ asked = some client.operation := by
  obtain ⟨other, stored, rfl⟩ := known
  by_cases equal : index = position
  · subst equal
    cases found.symm.trans stored
    refine ⟨moved, ?_, congrArg some same.symm⟩
    exact List.getElem?_set_self (List.getElem?_eq_some_iff.mp found).1
  · exact ⟨other, (List.getElem?_set_ne equal).trans stored, rfl⟩

omit [DecidableEq Key] in
theorem Accounted.submit (accounted : Accounted programOf success pool) (operation : Operation) :
    Accounted programOf success
      { pool with clients := pool.clients ++ [⟨operation, [], programOf operation⟩] } where
  settled := by
    intro index client found
    rw [List.getElem?_append] at found
    split_ifs at found with old
    · exact accounted.settled index client found
    · obtain ⟨_, rfl⟩ := List.getElem?_eq_some_iff.mp found
      left
      refine ⟨?_, fun listed => old (accounted.lt listed)⟩
      simpa using Program.Reaches.here
  known := by
    intro event stored index writer
    obtain ⟨client, found, same⟩ := accounted.known event stored index writer
    have inside := (List.getElem?_eq_some_iff.mp found).1
    exact ⟨client, (List.getElem?_append_left inside).trans found, same⟩
  once := accounted.once

omit [DecidableEq Key] in
theorem Accounted.move {client moved : Client Key Value Error Answer Operation}
    (honest : ∀ operation, (programOf operation).Honest success)
    (accounted : Accounted programOf success pool) (found : pool.clients[index]? = some client)
    (moves : client.Moves pool.store moved) :
    Accounted programOf success { pool with clients := pool.clients.set index moved } where
  settled := by
    intro position other stored
    rw [List.getElem?_set] at stored
    split_ifs at stored with same inside
    · cases stored
      subst same
      exact (accounted.settled index client found).moves honest moves
    · exact accounted.settled position other stored
  known := by
    intro event stored position writer
    exact known_set moved found moves.operation_eq (accounted.known event stored position writer)
  once := accounted.once

theorem Accounted.apply {client : Client Key Value Error Answer Operation}
    (honest : ∀ operation, (programOf operation).Honest success)
    (accounted : Accounted programOf success pool) (found : pool.clients[index]? = some client)
    (rest : client.rest = .commit guards writes answer)
    (applies : Applies index client.operation action reply event) :
    Accounted programOf success {
      store := pool.store.write writes
      clients := pool.clients.set index { client with rest := .done (answer reply) }
      history := pool.history ++ [event] } := by
  obtain ⟨reaches, fresh⟩ | ⟨_, done, -⟩ := accounted.settled index client found
  · refine ⟨?_, ?_, ?_⟩
    · intro position other stored
      rw [List.getElem?_set] at stored
      split_ifs at stored with same inside
      · cases stored
        subst same
        have reached := (honest client.operation).reached reaches
        rw [rest] at reached
        exact .inr ⟨_, rfl, applies.success_iff reached fresh⟩
      · apply (accounted.settled position other stored).write
        · exact applies.mem_committed_snoc (Ne.symm same) _
        · intro listed
          rw [applies.applied_snoc] at listed
          exact (List.mem_append.mp listed).resolve_right fun here =>
            same (List.mem_singleton.mp here).symm
    · intro noted stored position writer
      apply known_set { client with rest := .done (answer reply) } found rfl
      rcases List.mem_append.mp stored with earlier | now
      · exact accounted.known noted earlier position writer
      · obtain rfl := List.mem_singleton.mp now
        obtain rfl := Option.some.inj (applies.applied_eq.symm.trans writer)
        exact ⟨client, found, applies.operation_eq⟩
    · rw [applies.applied_snoc]
      exact accounted.once.append (List.nodup_singleton _) (by simpa using fresh)
  · cases done.symm.trans rest

theorem Accounted.external (accounted : Accounted programOf success pool)
    (writes : List (Write Key Value)) :
    Accounted programOf success { pool with
      store := pool.store.write writes
      history := pool.history ++ [.external writes] } where
  settled := by
    intro index client found
    apply (accounted.settled index client found).write
    · rw [committed_external]
    · rw [applied_external]
      exact id
  known := by
    intro event stored index writer
    rcases List.mem_append.mp stored with earlier | now
    · exact accounted.known event earlier index writer
    · obtain rfl := List.mem_singleton.mp now
      cases writer
  once := by
    rw [applied_external]
    exact accounted.once

theorem Accounted.step (honest : ∀ operation, (programOf operation).Honest success)
    (accounted : Accounted programOf success pool)
    (last : pool.step programOf action = some final) : Accounted programOf success final := by
  rcases step_cases last with ⟨operation, -, rfl⟩ | ⟨index, client, moved, found, moves, rfl⟩ |
    ⟨index, client, guards, writes, answer, reply, event, applies, found, rest, -, rfl⟩ |
    ⟨writes, -, rfl⟩
  · exact accounted.submit operation
  · exact accounted.move honest found moves
  · exact accounted.apply honest found rest applies
  · exact accounted.external writes

theorem accounted_of_run (honest : ∀ operation, (programOf operation).Honest success)
    (run : exec (step programOf) (start base) schedule = some final) :
    Accounted programOf success final :=
  exec_invariant (motive := Accounted programOf success) (accounted_start base)
    (fun _ _ _ accounted last => accounted.step honest last) run

omit [DecidableEq Key] in
theorem Accounted.reported (honest : ∀ operation, (programOf operation).Honest success)
    (accounted : Accounted programOf success pool) (found : pool.clients[index]? = some client)
    (done : client.rest = .done answer) : success answer ↔ index ∈ committed pool.history := by
  rcases accounted.settled index client found with ⟨reaches, fresh⟩ | ⟨_, same, agrees⟩
  · have reached := (honest client.operation).reached reaches
    rw [done] at reached
    exact iff_of_false reached (not_committed fresh)
  · cases done.symm.trans same
    exact agrees

variable (programOf success)

/-- The pools a schedule goes through, each with the action taken there. -/
def Passes (store : RevisionStore Key Value) (schedule : List (PoolAction Key Value Error Operation))
    (pool : Pool Key Value Error Answer Operation) (action : PoolAction Key Value Error Operation) :
    Prop :=
  ∃ before, before ++ [action] <+: schedule ∧
    exec (step programOf) (start store) before = some pool

/-- Run one after the other, all operations of the history succeed. -/
def Serial (store : RevisionStore Key Value) : List (Event Key Value Operation) → Prop
  | [] => True
  | .commit _ operation :: history | .lost _ operation :: history =>
    success ((programOf operation).run store).1 ∧ Serial ((programOf operation).run store).2 history
  | .external writes :: history => Serial (store.write writes) history

/-- If the client's transaction goes through, it does what its operation would do now. -/
def CommitsAtomically (pool : Pool Key Value Error Answer Operation) (index : Nat) : Prop :=
  ∀ client guards writes answer, pool.clients[index]? = some client →
    client.rest = .commit guards writes answer → pool.store.meetsAll guards = true →
    (programOf client.operation).run pool.store = (Program.commit guards writes answer).run pool.store

/-- The action puts the transaction of the client to the store, which may apply it. -/
def Commits (action : PoolAction Key Value Error Operation) (index : Nat) : Prop :=
  action = .advance index ∨ ∃ error, action = .lose index error

variable {programOf success}

/-- Where its transaction is applied, the operation of a client would succeed and do the same. -/
theorem applied_effect {client : Client Key Value Error Answer Operation}
    (honest : ∀ operation, (programOf operation).Honest success)
    (accounted : Accounted programOf success pool) (atomic : CommitsAtomically programOf pool index)
    (found : pool.clients[index]? = some client) (rest : client.rest = .commit guards writes answer)
    (met : pool.store.meetsAll guards = true) :
    success ((programOf client.operation).run pool.store).1 ∧
      ((programOf client.operation).run pool.store).2 = pool.store.write writes := by
  rw [atomic client guards writes answer found rest met]
  simp only [Program.run, met, if_true, and_true]
  rcases accounted.settled index client found with ⟨reaches, -⟩ | ⟨_, done, -⟩
  · have reached := (honest client.operation).reached reaches
    rw [rest] at reached
    exact reached.1
  · cases done.symm.trans rest

omit [DecidableEq Key] in
theorem Applies.commits (applies : Applies index operation action reply event) :
    Commits action index := by
  cases applies with
  | reported => exact .inl rfl
  | lost => exact .inr ⟨_, rfl⟩

theorem Applies.replay_eq (applies : Applies index operation action reply event)
    (store : RevisionStore Key Value) :
    replayEvent programOf store event = ((programOf operation).run store).2 := by
  cases applies <;> rfl

theorem Applies.serial (applies : Applies index operation action reply event)
    (succeeds : success ((programOf operation).run base).1) :
    Serial programOf success base [event] := by
  cases applies <;> exact ⟨succeeds, trivial⟩

theorem serial_append (first second : List (Event Key Value Operation)) :
    Serial programOf success base (first ++ second) ↔
      Serial programOf success base first ∧
        Serial programOf success (replay programOf base first) second := by
  induction first generalizing base with
  | nil => simp [Serial, replay]
  | cons event rest inductionHypothesis =>
    cases event with
    | commit client operation =>
      simp only [List.cons_append, Serial, inductionHypothesis, and_assoc]
      rfl
    | lost client operation =>
      simp only [List.cons_append, Serial, inductionHypothesis, and_assoc]
      rfl
    | external writes =>
      simp only [List.cons_append, Serial, inductionHypothesis]
      rfl

theorem replay_snoc (history : List (Event Key Value Operation))
    (event : Event Key Value Operation) :
    replay programOf base (history ++ [event]) =
      replayEvent programOf (replay programOf base history) event :=
  List.foldl_concat ..

/-- The history of an interleaved run is a serial one that leads to the same store. -/
theorem serial_of_run (honest : ∀ operation, (programOf operation).Honest success)
    (run : exec (step programOf) (start base) schedule = some final)
    (atomic : ∀ index pool action, Passes programOf base schedule pool action →
      Commits action index → CommitsAtomically programOf pool index) :
    final.store = replay programOf base final.history ∧
      Serial programOf success base final.history := by
  refine exec_induction (motive := fun schedule final =>
    (∀ index pool action, Passes programOf base schedule pool action →
      Commits action index → CommitsAtomically programOf pool index) →
    final.store = replay programOf base final.history ∧
      Serial programOf success base final.history) ?_ ?_ run atomic
  · exact fun _ => ⟨rfl, trivial⟩
  intro schedule pool action final before inductionHypothesis last atomic
  obtain ⟨same, serial⟩ := inductionHypothesis fun index pool action ⟨first, shorter, reached⟩ =>
    atomic index pool action ⟨first, shorter.trans (List.prefix_append _ _), reached⟩
  rcases step_cases last with ⟨operation, -, rfl⟩ | ⟨index, client, moved, -, -, rfl⟩ |
    ⟨index, client, guards, writes, answer, reply, event, applies, found, rest, met, rfl⟩ |
    ⟨writes, -, rfl⟩
  · exact ⟨same, serial⟩
  · exact ⟨same, serial⟩
  · obtain ⟨reported, written⟩ := applied_effect honest (accounted_of_run honest before)
      (atomic index pool action ⟨schedule, List.prefix_rfl, before⟩ applies.commits) found rest met
    rw [same] at reported written
    refine ⟨?_, (serial_append _ _).mpr ⟨serial, applies.serial reported⟩⟩
    rw [replay_snoc, applies.replay_eq, written, same]
  · refine ⟨?_, (serial_append _ _).mpr ⟨serial, trivial⟩⟩
    rw [replay_snoc, replayEvent, same]

/-- A call of the client: one that is answered, or one that fails without effect. -/
def Calls (action : PoolAction Key Value Error Operation) (index : Nat) : Prop :=
  action = .advance index ∨ ∃ error, action = .fail index error

omit [DecidableEq Key] in
theorem Applies.index_eq (applies : Applies position operation action reply event)
    (acts : Calls action index ∨ Commits action index) : position = index := by
  cases applies <;> simp_all [Calls, Commits]

/-- Unless its reply is lost, a client changes the store only by a transaction it learns of. -/
theorem step_store (calls : Calls action index) (last : pool.step programOf action = some final) :
    final.store = pool.store ∨ index ∈ committed final.history := by
  rcases calls with rfl | ⟨error, rfl⟩
  · obtain ⟨client, found, last⟩ := Option.bind_eq_some_iff.mp last
    rcases advance_cases last with ⟨moved, moves, rfl⟩ | ⟨guards, writes, answer, -, -, rfl⟩
    · exact .inl rfl
    · exact .inr (by simp [committed, Event.committed])
  · obtain ⟨client, found, last⟩ := Option.bind_eq_some_iff.mp last
    obtain ⟨moved, moves, rfl⟩ := fail_cases last
    exact .inl rfl

/-- Where a step of a client changes the store, its operation would succeed and do the same. -/
theorem step_effect (honest : ∀ operation, (programOf operation).Honest success)
    (accounted : Accounted programOf success pool)
    (atomic : Commits action index → CommitsAtomically programOf pool index)
    (acts : Calls action index ∨ Commits action index)
    (last : pool.step programOf action = some final) :
    final.store = pool.store ∨ ∃ client ∈ pool.clients,
      success ((programOf client.operation).run pool.store).1 ∧
        ((programOf client.operation).run pool.store).2 = final.store := by
  rcases step_cases last with ⟨operation, -, rfl⟩ | ⟨position, client, moved, -, -, rfl⟩ |
    ⟨position, client, guards, writes, answer, reply, event, applies, found, rest, met, rfl⟩ |
    ⟨writes, outside, rfl⟩
  · exact .inl rfl
  · exact .inl rfl
  · obtain rfl := applies.index_eq acts
    exact .inr ⟨client, List.mem_of_getElem? found,
      applied_effect honest accounted (atomic applies.commits) found rest met⟩
  · rcases acts with (asked | ⟨error, asked⟩) | (asked | ⟨error, asked⟩)
    all_goals cases outside.symm.trans asked

theorem step_history (last : pool.step programOf action = some final) :
    pool.history <+: final.history := by
  rcases step_cases last with ⟨operation, -, rfl⟩ | ⟨index, client, moved, -, -, rfl⟩ |
    ⟨index, client, guards, writes, answer, reply, event, -, -, -, -, rfl⟩ | ⟨writes, -, rfl⟩
  · exact List.prefix_rfl
  · exact List.prefix_rfl
  · exact List.prefix_append _ _
  · exact List.prefix_append _ _

/-- A client that did not succeed has changed the store in none of its steps, unless it was by a
transaction whose reply was lost. -/
theorem refused_unchanged (honest : ∀ operation, (programOf operation).Honest success)
    (run : exec (step programOf) (start base) schedule = some final)
    (found : final.clients[index]? = some client) (done : client.rest = .done answer)
    (refused : ¬success answer) (passes : Passes programOf base schedule pool action)
    (calls : Calls action index) (last : pool.step programOf action = some next) :
    next.store = pool.store := by
  obtain ⟨before, ⟨rest, rfl⟩, reached⟩ := passes
  rcases step_store calls last with same | listed
  · exact same
  · obtain ⟨middle, first, onwards⟩ := exec_append_some run
    cases first.symm.trans (exec_extend reached last)
    have grown : next.history <+: final.history :=
      exec_invariant (motive := fun later : Pool Key Value Error Answer Operation =>
        next.history <+: later.history) List.prefix_rfl
        (fun _ _ _ holds last => holds.trans (step_history last)) onwards
    have kept : index ∈ committed final.history := (grown.filterMap _).subset listed
    exact absurd (((accounted_of_run honest run).reported honest found done).mpr kept) refused

/-- Where a client's step ends in success, it was its transaction. -/
theorem success_effect (honest : ∀ operation, (programOf operation).Honest success)
    (accounted : Accounted programOf success pool) (atomic : CommitsAtomically programOf pool index)
    (last : pool.step programOf (.advance index) = some final)
    (found : final.clients[index]? = some client) (done : client.rest = .done answer)
    (succeeded : success answer) :
    (programOf client.operation).run pool.store = (answer, final.store) := by
  obtain ⟨earlier, there, last⟩ := Option.bind_eq_some_iff.mp last
  rcases advance_cases last with ⟨moved, moves, rfl⟩ | ⟨guards, writes, reply, rest, met, rfl⟩
  · obtain rfl : moved = client := by
      have inside := (List.getElem?_eq_some_iff.mp there).1
      simpa [List.getElem?_set_self inside] using found
    rcases accounted.settled index earlier there with settled | ⟨_, ended, -⟩
    · rcases Settled.moves honest (.inl settled) moves with ⟨reaches, -⟩ | ⟨_, same, agrees⟩
      · have reached := (honest moved.operation).reached reaches
        rw [done] at reached
        exact absurd succeeded reached
      · cases done.symm.trans same
        exact absurd (agrees.mp succeeded) (not_committed settled.2)
    · exact absurd ended moves.not_done
  · obtain rfl : { earlier with rest := .done (reply (.ok true)) } = client := by
      have inside := (List.getElem?_eq_some_iff.mp there).1
      simpa [List.getElem?_set_self inside] using found
    cases done
    have alone := atomic earlier guards writes reply there rest met
    rw [alone]
    simp [Program.run, met]

/-- Clients only do what they were asked. -/
theorem submitted_of_run (run : exec (step programOf) (start base) schedule = some final) :
    ∀ client ∈ final.clients, .submit client.operation ∈ schedule := by
  refine exec_induction (motive := fun schedule (final : Pool Key Value Error Answer Operation) =>
    ∀ client ∈ final.clients, .submit client.operation ∈ schedule) ?_ ?_ run
  · intro client listed
    cases listed
  · intro schedule pool action final _ inductionHypothesis last client listed
    rcases step_cases last with ⟨operation, rfl, rfl⟩ | ⟨index, earlier, moved, found, moves, rfl⟩ |
      ⟨index, earlier, guards, writes, answer, reply, event, -, found, -, -, rfl⟩ | ⟨writes, -, rfl⟩
    · rcases List.mem_append.mp listed with old | fresh
      · exact List.mem_append_left _ (inductionHypothesis client old)
      · cases List.mem_singleton.mp fresh
        exact List.mem_append_right _ (List.mem_singleton_self _)
    · apply List.mem_append_left
      rcases List.mem_or_eq_of_mem_set listed with old | rfl
      · exact inductionHypothesis client old
      · rw [moves.operation_eq]
        exact inductionHypothesis earlier (List.mem_of_getElem? found)
    · apply List.mem_append_left
      rcases List.mem_or_eq_of_mem_set listed with old | rfl
      · exact inductionHypothesis client old
      · exact inductionHypothesis earlier (List.mem_of_getElem? found)
    · exact List.mem_append_left _ (inductionHypothesis client listed)

variable (programOf success)

/-- As far as one can observe, the run is one of the operations whose transactions were applied, in
that order; all of them are reported as successes but those whose reply was lost. -/
structure Serializes (observe : RevisionStore Key Value → Observation)
    (base : RevisionStore Key Value) (schedule : List (PoolAction Key Value Error Operation))
    (final : Pool Key Value Error Answer Operation) : Prop where
  /-- An operation that ends in success has the effect it would have on its own. -/
  atomic : ∀ index pool next client answer,
    Passes programOf base schedule pool (.advance index) →
    pool.step programOf (.advance index) = some next →
    next.clients[index]? = some client → client.rest = .done answer → success answer →
    observe next.store = observe ((programOf client.operation).run pool.store).2
  replayed : observe final.store = observe (replay programOf base final.history)
  serial : Serial programOf success base final.history
  reported : ∀ index client answer, final.clients[index]? = some client →
    client.rest = .done answer → (success answer ↔ index ∈ committed final.history)
  once : (applied final.history).Nodup

variable {programOf success}

theorem serializes_of_run (honest : ∀ operation, (programOf operation).Honest success)
    (run : exec (step programOf) (start base) schedule = some final)
    (commits : ∀ index pool action, Passes programOf base schedule pool action →
      Commits action index → CommitsAtomically programOf pool index)
    (observe : RevisionStore Key Value → Observation) :
    Serializes programOf success observe base schedule final := by
  have whole := accounted_of_run honest run
  obtain ⟨replayed, serial⟩ := serial_of_run honest run commits
  refine ⟨?_, by rw [replayed], serial, ?_, whole.once⟩
  · intro index pool next client answer passes last found done succeeded
    have atomic := commits index pool _ passes (.inl rfl)
    obtain ⟨before, -, reached⟩ := passes
    rw [success_effect honest (accounted_of_run honest reached) atomic last found done succeeded]
  · intro index client answer found done
    exact whole.reported honest found done

end Pool

end NodexProxy.Foundation
