import NodexProxy.Foundation.Checked

/-! Programs over a state that may fault: the invariants they keep, and what two runs of one program
from states that look alike have in common. -/

namespace NodexProxy.Foundation

abbrev Stateful (State : Type) := StateT State Checked

variable {State Value Next : Type} {invariant : State → Prop}

theorem run_bind_of_ok {program : Stateful State Value} {value : Value} {state after : State}
    (ran : program.run state = .ok (value, after)) (next : Value → Stateful State Next) :
    (program >>= next).run state = (next value).run after := by
  rw [StateT.run_bind, ran]
  rfl

theorem run_lift_bind (checked : Checked Value) (next : Value → Stateful State Next)
    (state : State) :
    ((liftM checked : Stateful State Value) >>= next).run state =
      checked >>= fun value => (next value).run state := by
  cases checked <;> rfl

/-- Two programs chosen as two results are. -/
theorem run_ite (related : Checked (Value × State) → Result → Prop) {condition : Prop}
    [Decidable condition] {first second : Stateful State Value} {state : State} {one other : Result}
    (yes : related (first.run state) one) (no : ¬condition → related (second.run state) other) :
    related ((if condition then first else second).run state) (if condition then one else other) := by
  split
  · exact yes
  · exact no ‹_›

/-- Where the program returns, it has kept the invariant. -/
def Keeps (invariant : State → Prop) (program : Stateful State Value) : Prop :=
  ∀ state value after, invariant state → program.run state = .ok (value, after) → invariant after

theorem Keeps.pure (value : Value) : Keeps invariant (pure value : Stateful State Value) := by
  intro state result after holds ran
  cases ran
  exact holds

theorem Keeps.bind {program : Stateful State Value} {next : Value → Stateful State Next}
    (first : Keeps invariant program) (rest : ∀ value, Keeps invariant (next value)) :
    Keeps invariant (program >>= next) := by
  intro state result after holds ran
  rw [StateT.run_bind] at ran
  obtain ⟨⟨value, middle⟩, returned, ran⟩ := Checked.of_bind_ok ran
  exact rest value middle result after (first state value middle holds returned) ran

theorem Keeps.get : Keeps invariant (get : Stateful State State) := by
  intro state result after holds ran
  cases ran
  exact holds

theorem Keeps.modifyGet {change : State → Value × State}
    (kept : ∀ state, invariant state → invariant (change state).2) :
    Keeps invariant (modifyGet change : Stateful State Value) := by
  intro state result after holds ran
  have same : (change state).2 = after := congrArg Prod.snd (Except.ok.inj ran)
  exact same ▸ kept state holds

theorem Keeps.modify {change : State → State}
    (kept : ∀ state, invariant state → invariant (change state)) :
    Keeps invariant (modify change : Stateful State Unit) :=
  .modifyGet kept

/-- Code without access to the state. -/
theorem Keeps.lift (checked : Checked Value) :
    Keeps invariant (liftM checked : Stateful State Value) := by
  intro state result after holds ran
  cases checked with
  | error fault => cases ran
  | ok value =>
    cases ran
    exact holds

theorem Keeps.ite {condition : Prop} [Decidable condition] {first second : Stateful State Value}
    (yes : Keeps invariant first) (no : Keeps invariant second) :
    Keeps invariant (if condition then first else second) := by
  split
  · exact yes
  · exact no

section Parallel

variable {alike : State → State → Prop}

/-- Two outcomes with the same value and states that look alike, or with the same fault. -/
abbrev Matches (alike : State → State → Prop) : Checked (Value × State) → Checked (Value × State) →
    Prop :=
  Checked.Related fun out other => out.1 = other.1 ∧ alike out.2 other.2

/-- From states that look alike, the program does the same and leaves states that look alike. -/
def Parallel (alike : State → State → Prop) (program : Stateful State Value) : Prop :=
  ∀ state other, alike state other → Matches alike (program.run state) (program.run other)

theorem Parallel.pure (value : Value) : Parallel alike (pure value : Stateful State Value) :=
  fun _ _ same => .ok ⟨rfl, same⟩

/-- Two programs that ended alike go on alike. -/
theorem Matches.resume {first second : Stateful State Value} {next : Value → Stateful State Next}
    (ended : Matches alike (first.run state) (second.run other))
    (rest : ∀ value, Parallel alike (next value)) :
    Matches alike ((first >>= next).run state) ((second >>= next).run other) := by
  rw [StateT.run_bind, StateT.run_bind]
  refine .bind ended fun out last both => ?_
  obtain ⟨value, middle⟩ := out
  obtain ⟨_, final⟩ := last
  obtain ⟨rfl, same⟩ := both
  exact rest value middle final same

theorem Parallel.bind {program : Stateful State Value} {next : Value → Stateful State Next}
    (first : Parallel alike program) (rest : ∀ value, Parallel alike (next value)) :
    Parallel alike (program >>= next) :=
  fun state other same => Matches.resume (first state other same) rest

/-- A program that reads the state has the same to do after it. -/
theorem Parallel.inspect {next : State → Stateful State Value}
    (reads : ∀ state other, alike state other → next state = next other)
    (rest : ∀ state, Parallel alike (next state)) : Parallel alike (get >>= next) := by
  intro state other same
  have ran (state : State) : (get >>= next).run state = (next state).run state := rfl
  rw [ran, ran, reads state other same]
  exact rest other state other same

theorem Parallel.modifyGet {change : State → Value × State}
    (changes : ∀ state other, alike state other →
      (change state).1 = (change other).1 ∧ alike (change state).2 (change other).2) :
    Parallel alike (modifyGet change : Stateful State Value) :=
  fun state other same => .ok (changes state other same)

theorem Parallel.modify {change : State → State}
    (changes : ∀ state other, alike state other → alike (change state) (change other)) :
    Parallel alike (modify change : Stateful State Unit) :=
  .modifyGet fun state other same => ⟨rfl, changes state other same⟩

theorem Parallel.lift (checked : Checked Value) :
    Parallel alike (liftM checked : Stateful State Value) := by
  intro state other same
  cases checked with
  | error fault => exact .error
  | ok value => exact .ok ⟨rfl, same⟩

theorem Parallel.ite {condition : Prop} [Decidable condition] {first second : Stateful State Value}
    (yes : Parallel alike first) (no : Parallel alike second) :
    Parallel alike (if condition then first else second) := by
  split
  · exact yes
  · exact no

end Parallel

end NodexProxy.Foundation
