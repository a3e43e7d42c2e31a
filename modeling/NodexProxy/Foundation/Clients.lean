import NodexProxy.Foundation.Execution
import NodexProxy.Foundation.RevisionStore

/-! Clients of a revision store. Each one reads some keys, one call at a time, and then ends
with at most one transaction; any number of them run interleaved. -/

namespace NodexProxy.Foundation

variable {Key Value Error Answer Operation : Type} [DecidableEq Key]

/-- What a client has left to do. A call that fails hands its error to the client. -/
inductive Program (Key Value Error Answer : Type) where
  | done (answer : Answer)
  | get (key : Key) (next : Except Error (Option (Record Value)) → Program Key Value Error Answer)
  | commit (guards : List (Guard Key)) (writes : List (Write Key Value))
      (answer : Except Error Bool → Answer)

namespace Program

/-- The program run without interruption. -/
def run (store : RevisionStore Key Value) :
    Program Key Value Error Answer → Answer × RevisionStore Key Value
  | .done answer => (answer, store)
  | .get key next => (next (.ok (store.records key))).run store
  | .commit guards writes answer =>
    if store.meetsAll guards then (answer (.ok true), store.write writes)
    else (answer (.ok false), store)

/-- What can come of the program while nobody else writes. Any call may fail, and a transaction
that fails may have been applied all the same. -/
inductive Solo (store : RevisionStore Key Value) : Program Key Value Error Answer → Answer →
    RevisionStore Key Value → Prop where
  | done : Solo store (.done answer) answer store
  | read : Solo store (next (.ok (store.records key))) answer after →
      Solo store (.get key next) answer after
  | failedRead : Solo store (next (.error error)) answer after →
      Solo store (.get key next) answer after
  | wrote : store.meetsAll guards = true →
      Solo store (.commit guards writes answer) (answer (.ok true)) (store.write writes)
  | refused : store.meetsAll guards = false →
      Solo store (.commit guards writes answer) (answer (.ok false)) store
  | failedCommit : Solo store (.commit guards writes answer) (answer (.error error)) store
  | lostCommit : store.meetsAll guards = true →
      Solo store (.commit guards writes answer) (answer (.error error)) (store.write writes)

theorem Solo.of_run (store : RevisionStore Key Value) (program : Program Key Value Error Answer) :
    Solo store program (program.run store).1 (program.run store).2 := by
  induction program with
  | done answer => exact .done
  | get key next inductionHypothesis => exact .read (inductionHypothesis _)
  | commit guards writes answer =>
    rw [run]
    split_ifs with met
    · exact .wrote met
    · exact .refused (Bool.not_eq_true _ ▸ met)

/-- Only a transaction that went through is reported as a success. -/
def Honest (success : Answer → Prop) : Program Key Value Error Answer → Prop
  | .done answer => ¬success answer
  | .get _ next => ∀ reply, (next reply).Honest success
  | .commit _ _ answer =>
    success (answer (.ok true)) ∧ ¬success (answer (.ok false)) ∧
      ∀ error, ¬success (answer (.error error))

/-- Optimistic concurrency: the transaction is guarded on these reads and on all that follow, a
failed read ends the program, and only a transaction that went through is a success. -/
def Optimistic (success : Answer → Prop) (seen : List (Key × Option (Record Value))) :
    Program Key Value Error Answer → Prop
  | .done answer => ¬success answer
  | .get key next =>
    (∀ reply, (next (.ok reply)).Optimistic success ((key, reply) :: seen)) ∧
      ∀ error, ∃ answer, next (.error error) = .done answer ∧ ¬success answer
  | .commit guards _ answer =>
    (∀ read ∈ seen, ∃ guard ∈ guards, RevisionStore.Pins guard read.1 read.2) ∧
      success (answer (.ok true)) ∧ ¬success (answer (.ok false)) ∧
        ∀ error, ¬success (answer (.error error))

/-- The program came to `rest` through these reads, and the store attests each of them. -/
inductive Reaches (store : RevisionStore Key Value) : Program Key Value Error Answer →
    List (Key × Option (Record Value)) → Program Key Value Error Answer → Prop where
  | here : Reaches store program [] program
  | read : store.Attests key reply → Reaches store (next (.ok reply)) reads rest →
      Reaches store (.get key next) ((key, reply) :: reads) rest
  | failed : Reaches store (next (.error error)) reads rest →
      Reaches store (.get key next) reads rest

variable {store : RevisionStore Key Value} {program rest : Program Key Value Error Answer}

theorem Reaches.write (reaches : Reaches store program reads rest)
    (writes : List (Write Key Value)) : Reaches (store.write writes) program reads rest := by
  induction reaches with
  | here => exact .here
  | read attests _ inductionHypothesis => exact .read (attests.write writes) inductionHypothesis
  | failed _ inductionHypothesis => exact .failed inductionHypothesis

omit [DecidableEq Key] in
theorem Reaches.trans (reaches : Reaches store program reads rest)
    (further : Reaches store rest more last) : Reaches store program (reads ++ more) last := by
  induction reaches with
  | here => exact further
  | read attests _ inductionHypothesis => exact .read attests (inductionHypothesis further)
  | failed _ inductionHypothesis => exact .failed (inductionHypothesis further)

omit [DecidableEq Key] in
theorem Reaches.snoc (reaches : Reaches store program reads (.get key next))
    (attests : store.Attests key reply) :
    Reaches store program (reads ++ [(key, reply)]) (next (.ok reply)) :=
  reaches.trans (.read attests .here)

omit [DecidableEq Key] in
theorem Reaches.fail (reaches : Reaches store program reads (.get key next)) (error : Error) :
    Reaches store program reads (next (.error error)) := by
  have failed : Reaches store (.get key next) [] (next (.error error)) := .failed .here
  have ended := reaches.trans failed
  rw [List.append_nil] at ended
  exact ended

omit [DecidableEq Key] in
/-- A finished program goes nowhere. -/
theorem Reaches.of_done (reaches : Reaches store (.done answer) reads rest) :
    rest = .done answer := by
  cases reaches
  rfl

omit [DecidableEq Key] in
theorem Honest.reached (honest : program.Honest success)
    (reaches : Reaches store program reads rest) : rest.Honest success := by
  induction reaches with
  | here => exact honest
  | read _ _ inductionHypothesis => exact inductionHypothesis (honest _)
  | failed _ inductionHypothesis => exact inductionHypothesis (honest _)

omit [DecidableEq Key] in
theorem Optimistic.honest (optimistic : program.Optimistic success seen) :
    program.Honest success := by
  induction program generalizing seen with
  | done answer => exact optimistic
  | get key next inductionHypothesis =>
    intro reply
    cases reply with
    | ok reply => exact inductionHypothesis (.ok reply) (optimistic.1 reply)
    | error error =>
      obtain ⟨answer, ends, fails⟩ := optimistic.2 error
      rw [ends]
      exact fails
  | commit guards writes answer => exact optimistic.2

/-- When every record read is still the one stored, running the program now ends as it would
from where it stands. -/
theorem Reaches.run_of_current (reaches : Reaches store program reads (.commit guards writes answer))
    (optimistic : program.Optimistic success seen)
    (current : ∀ read ∈ reads, store.records read.1 = read.2) :
    program.run store = (Program.commit guards writes answer).run store := by
  generalize last : Program.commit guards writes answer = rest at reaches
  induction reaches generalizing seen with
  | here => rfl
  | @read key reply next reads rest _ _ inductionHypothesis =>
    have now : store.records key = reply := current (key, reply) (List.mem_cons_self ..)
    rw [Program.run, now]
    apply inductionHypothesis (optimistic.1 reply) _ last
    intro read listed
    exact current read (List.mem_cons_of_mem _ listed)
  | failed reaches _ =>
    obtain ⟨answer, ends, -⟩ := optimistic.2 _
    rw [ends] at reaches
    cases reaches.of_done
    cases last

omit [DecidableEq Key] in
theorem Reaches.attests (reaches : Reaches store program reads rest) :
    ∀ read ∈ reads, store.Attests read.1 read.2 := by
  induction reaches with
  | here => simp
  | read attests _ inductionHypothesis => exact List.forall_mem_cons.mpr ⟨attests, inductionHypothesis⟩
  | failed _ inductionHypothesis => exact inductionHypothesis

omit [DecidableEq Key] in
theorem Reaches.pinned (reaches : Reaches store program reads (.commit guards writes answer))
    (optimistic : program.Optimistic success seen) :
    ∀ read ∈ reads, ∃ guard ∈ guards, RevisionStore.Pins guard read.1 read.2 := by
  have pinned : ∀ read ∈ seen ++ reads, ∃ guard ∈ guards, RevisionStore.Pins guard read.1 read.2 := by
    generalize last : Program.commit guards writes answer = rest at reaches
    induction reaches generalizing seen with
    | here =>
      subst last
      rw [List.append_nil]
      exact optimistic.1
    | read _ _ inductionHypothesis =>
      intro read listed
      apply inductionHypothesis (optimistic.1 _) last read
      simp only [List.mem_append, List.mem_cons] at listed ⊢
      tauto
    | failed reaches _ =>
      obtain ⟨answer, ends, -⟩ := optimistic.2 _
      rw [ends] at reaches
      cases reaches.of_done
      cases last
  exact fun read listed => pinned read (List.mem_append_right _ listed)

/-- Where the guards hold, an optimistic program does what it would do on its own now. -/
theorem Reaches.run_eq (reaches : Reaches store program reads (.commit guards writes answer))
    (optimistic : program.Optimistic success []) (met : store.meetsAll guards = true) :
    program.run store = (Program.commit guards writes answer).run store := by
  apply reaches.run_of_current optimistic
  intro read listed
  obtain ⟨guard, stated, pins⟩ := reaches.pinned optimistic read listed
  apply (reaches.attests read listed).of_pins pins
  exact List.all_eq_true.mp met guard stated

end Program

/-- A client: what it was asked to do, what it has read, and what is left. -/
structure Client (Key Value Error Answer Operation : Type) where
  operation : Operation
  reads : List (Key × Option (Record Value))
  rest : Program Key Value Error Answer

/-- A write to the store, by a client that learns of it, by one that does not, or from outside. -/
inductive Event (Key Value Operation : Type) where
  | commit (client : Nat) (operation : Operation)
  | lost (client : Nat) (operation : Operation)
  | external (writes : List (Write Key Value))

structure Pool (Key Value Error Answer Operation : Type) where
  store : RevisionStore Key Value
  clients : List (Client Key Value Error Answer Operation)
  history : List (Event Key Value Operation)

/-- A call that fails changes nothing. One that is lost is a transaction that is applied while its
client is told of an error. -/
inductive PoolAction (Key Value Error Operation : Type) where
  | submit (operation : Operation)
  | advance (client : Nat)
  | fail (client : Nat) (error : Error)
  | lose (client : Nat) (error : Error)
  | external (writes : List (Write Key Value))

/-- The client that wrote and learns of it. -/
def Event.committed : Event Key Value Operation → Option Nat
  | .commit client _ => some client
  | .lost _ _ | .external _ => none

/-- The client that wrote. -/
def Event.applied : Event Key Value Operation → Option Nat
  | .commit client _ | .lost client _ => some client
  | .external _ => none

/-- What the client that wrote was asked to do. -/
def Event.operation : Event Key Value Operation → Option Operation
  | .commit _ operation | .lost _ operation => some operation
  | .external _ => none

namespace Pool

def start (store : RevisionStore Key Value) : Pool Key Value Error Answer Operation :=
  ⟨store, [], []⟩

variable (programOf : Operation → Program Key Value Error Answer)

def advance (pool : Pool Key Value Error Answer Operation) (index : Nat)
    (client : Client Key Value Error Answer Operation) :
    Option (Pool Key Value Error Answer Operation) :=
  match client.rest with
  | .done _ => none
  | .get key next =>
    let reply := pool.store.records key
    some { pool with
      clients := pool.clients.set index
        { client with reads := client.reads ++ [(key, reply)], rest := next (.ok reply) } }
  | .commit guards writes answer =>
    if pool.store.meetsAll guards then
      some {
        store := pool.store.write writes
        clients := pool.clients.set index { client with rest := .done (answer (.ok true)) }
        history := pool.history ++ [.commit index client.operation] }
    else
      some { pool with
        clients := pool.clients.set index { client with rest := .done (answer (.ok false)) } }

def fail (pool : Pool Key Value Error Answer Operation) (index : Nat)
    (client : Client Key Value Error Answer Operation) (error : Error) :
    Option (Pool Key Value Error Answer Operation) :=
  match client.rest with
  | .done _ => none
  | .get _ next =>
    some { pool with clients := pool.clients.set index { client with rest := next (.error error) } }
  | .commit _ _ answer =>
    some { pool with
      clients := pool.clients.set index { client with rest := .done (answer (.error error)) } }

def lose (pool : Pool Key Value Error Answer Operation) (index : Nat)
    (client : Client Key Value Error Answer Operation) (error : Error) :
    Option (Pool Key Value Error Answer Operation) :=
  match client.rest with
  | .commit guards writes answer =>
    if pool.store.meetsAll guards then
      some {
        store := pool.store.write writes
        clients := pool.clients.set index { client with rest := .done (answer (.error error)) }
        history := pool.history ++ [.lost index client.operation] }
    else none
  | _ => none

def step (pool : Pool Key Value Error Answer Operation) :
    PoolAction Key Value Error Operation → Option (Pool Key Value Error Answer Operation)
  | .submit operation =>
    some { pool with clients := pool.clients ++ [⟨operation, [], programOf operation⟩] }
  | .advance index => pool.clients[index]?.bind fun client => pool.advance index client
  | .fail index error => pool.clients[index]?.bind fun client => pool.fail index client error
  | .lose index error => pool.clients[index]?.bind fun client => pool.lose index client error
  | .external writes =>
    some { pool with
      store := pool.store.write writes
      history := pool.history ++ [.external writes] }

/-- The store after an event, were each operation to run on its own. -/
def replayEvent (store : RevisionStore Key Value) : Event Key Value Operation → RevisionStore Key Value
  | .commit _ operation | .lost _ operation => ((programOf operation).run store).2
  | .external writes => store.write writes

def replay (store : RevisionStore Key Value) (history : List (Event Key Value Operation)) :
    RevisionStore Key Value :=
  history.foldl (replayEvent programOf) store

end Pool

end NodexProxy.Foundation
