import Mathlib

/-! Schedules over a partial step function. A system is given by what one action
does to its state; `none` marks an action that is not enabled there. -/

namespace NodexProxy.Foundation

universe u v

variable {State : Type u} {Action : Type v}

/-- Run a schedule, oldest action first. -/
def exec (step : State → Action → Option State) (state : State) : List Action → Option State
  | [] => some state
  | action :: rest => (step state action).bind fun next => exec step next rest

variable {step : State → Action → Option State}

theorem exec_append (state : State) (first second : List Action) :
    exec step state (first ++ second) =
      (exec step state first).bind fun middle => exec step middle second := by
  induction first generalizing state with
  | nil => rfl
  | cons action rest ih =>
    simp only [List.cons_append, exec]
    cases step state action with
    | none => rfl
    | some next => exact ih next

theorem exec_snoc (state : State) (schedule : List Action) (action : Action) :
    exec step state (schedule ++ [action]) =
      (exec step state schedule).bind fun middle => step middle action := by
  rw [exec_append]
  cases exec step state schedule with
  | none => rfl
  | some middle => simp [exec]

theorem exec_append_some {state final : State} {first second : List Action}
    (run : exec step state (first ++ second) = some final) :
    ∃ middle, exec step state first = some middle ∧ exec step middle second = some final := by
  rw [exec_append] at run
  exact Option.bind_eq_some_iff.mp run

theorem exec_snoc_some {state final : State} {schedule : List Action} {action : Action}
    (run : exec step state (schedule ++ [action]) = some final) :
    ∃ middle, exec step state schedule = some middle ∧ step middle action = some final := by
  rw [exec_snoc] at run
  exact Option.bind_eq_some_iff.mp run

theorem exec_extend {state middle final : State} {schedule : List Action} {action : Action}
    (run : exec step state schedule = some middle) (last : step middle action = some final) :
    exec step state (schedule ++ [action]) = some final := by
  rw [exec_snoc, run]
  exact last

/-- Induction on a run by its last action. The motive may speak about the whole
schedule, so side conditions on earlier actions stay available. -/
theorem exec_induction {initial : State} {motive : List Action → State → Prop}
    (start : motive [] initial)
    (next : ∀ schedule middle action final, exec step initial schedule = some middle →
      motive schedule middle → step middle action = some final →
      motive (schedule ++ [action]) final)
    {schedule : List Action} {final : State} (run : exec step initial schedule = some final) :
    motive schedule final := by
  induction schedule using List.reverseRecOn generalizing final with
  | nil =>
    cases run
    exact start
  | append_singleton schedule action ih =>
    obtain ⟨middle, before, last⟩ := exec_snoc_some run
    exact next schedule middle action final before (ih before) last

/-- A property kept by every step holds in every state a run reaches. -/
theorem exec_invariant {initial : State} {motive : State → Prop} (start : motive initial)
    (kept : ∀ state action final, motive state → step state action = some final → motive final)
    {schedule : List Action} {final : State} (run : exec step initial schedule = some final) :
    motive final :=
  exec_induction (motive := fun _ state => motive state) start
    (fun _ middle action final _ holds last => kept middle action final holds last) run

end NodexProxy.Foundation
