import NodexProxy.Jsonscan.Turns

/-! Scans with related visitors: what the visitors keep of their states, the scans keep. -/

namespace NodexProxy.Jsonscan

open NodexProxy.Foundation

variable {State Other : Type}

/-- The outcomes of two visitors: related states, and the same wish to go on. -/
def Agree (related : State → Other → Prop) : Checked (State × Bool) → Checked (Other × Bool) → Prop :=
  Checked.Related fun first second => related first.1 second.1 ∧ first.2 = second.2

/-- The outcomes of two scans: the same end, and related states. -/
def Meet (related : State → Other → Prop) :
    Checked (Option Nat × State) → Checked (Option Nat × Other) → Prop :=
  Checked.Related fun first second => first.1 = second.1 ∧ related first.2 second.2

variable {related : State → Other → Prop} {state : State} {other : Other}

theorem Meet.here (holds : related state other) (stop : Option Nat) :
    Meet related (.ok (stop, state)) (.ok (stop, other)) := .ok ⟨rfl, holds⟩

theorem turn_meet {outcome : Checked (State × Bool)} {reference : Checked (Other × Bool)}
    (agree : Agree related outcome reference) (early : Nat)
    {next : State → Checked (Option Nat × State)} {last : Other → Checked (Option Nat × Other)}
    (further : ∀ state other, related state other → Meet related (next state) (last other)) :
    Meet related (turn outcome early next) (turn reference early last) := by
  refine .bind agree fun first second both => ?_
  obtain ⟨state, goOn⟩ := first
  obtain ⟨other, _⟩ := second
  obtain ⟨holds, rfl⟩ := both
  dsimp only
  split_ifs
  · exact Meet.here holds (some early)
  · exact further state other holds

theorem onward_meet (text : Bytes) (close : UInt8) (stop : Nat)
    {again : State → Nat → Checked (Option Nat × State)}
    {again' : Other → Nat → Checked (Option Nat × Other)} (holds : related state other)
    (further : ∀ index, Meet related (again state index) (again' other index)) :
    Meet related (onward text close stop again state) (onward text close stop again' other) := by
  refine .after fun index => ?_
  split_ifs
  · exact Meet.here holds none
  refine .after fun byte => ?_
  split_ifs
  · exact .after further
  · exact Meet.here holds (some (index + 1))
  · exact Meet.here holds none

theorem entering_meet (text : Bytes) (opens closes : UInt8) (index : Nat)
    {loop : State → Nat → Checked (Option Nat × State)}
    {loop' : Other → Nat → Checked (Option Nat × Other)} (holds : related state other)
    (loops : ∀ first, Meet related (loop state first) (loop' other first)) :
    Meet related (entering text opens closes index loop state)
      (entering text opens closes index loop' other) := by
  unfold entering
  split_ifs
  · exact Meet.here holds none
  refine .after fun byte => ?_
  split_ifs
  · exact Meet.here holds none
  refine .after fun first => ?_
  split_ifs
  · refine .after fun byte => ?_
    split_ifs
    · exact Meet.here holds (some (first + 1))
    · exact loops first
  · exact loops first

section Objects

variable {visit : State → Bytes → Bool → Nat → Nat → Checked (State × Bool)}
  {visit' : Other → Bytes → Bool → Nat → Nat → Checked (Other × Bool)}

theorem scanObjectLoop_meet (text : Bytes)
    (agree : ∀ state other key escaped start stop, related state other →
      Agree related (visit state key escaped start stop) (visit' other key escaped start stop))
    (fuel : Nat) (holds : related state other) (index : Nat) :
    Meet related (scanObjectLoop text visit fuel state index)
      (scanObjectLoop text visit' fuel other index) := by
  induction fuel generalizing state other index with
  | zero => exact .error
  | succ fuel inductionHypothesis =>
    unfold scanObjectLoop
    refine .after fun found => ?_
    cases found with
    | none => exact Meet.here holds none
    | some found =>
      refine .after fun key => .after fun colon => ?_
      split_ifs
      · exact Meet.here holds none
      refine .after fun byte => ?_
      split_ifs
      · exact Meet.here holds none
      refine .after fun start => .after fun stop => ?_
      cases stop with
      | none => exact Meet.here holds none
      | some stop =>
        have behind (state : State) (other : Other) (holds : related state other) :
            Meet related (onward text 125 stop (scanObjectLoop text visit fuel) state)
              (onward text 125 stop (scanObjectLoop text visit' fuel) other) :=
          onward_meet text 125 stop holds (inductionHypothesis holds)
        exact turn_meet (agree state other key found.2 start stop holds) stop behind

theorem scanObject_meet (text : Bytes) (index : Nat)
    (agree : ∀ state other key escaped start stop, related state other →
      Agree related (visit state key escaped start stop) (visit' other key escaped start stop))
    (holds : related state other) :
    Meet related (scanObject text index visit state) (scanObject text index visit' other) := by
  rw [scanObject_entering, scanObject_entering]
  exact entering_meet text 123 125 index holds (scanObjectLoop_meet text agree _ holds)

end Objects

section Arrays

variable {visit : State → Nat → Nat → Nat → Checked (State × Bool)}
  {visit' : Other → Nat → Nat → Nat → Checked (Other × Bool)}

theorem scanArrayLoop_meet (text : Bytes)
    (agree : ∀ state other position start stop, related state other →
      Agree related (visit state position start stop) (visit' other position start stop))
    (fuel : Nat) (holds : related state other) (position start : Nat) :
    Meet related (scanArrayLoop text visit fuel state position start)
      (scanArrayLoop text visit' fuel other position start) := by
  induction fuel generalizing state other position start with
  | zero => exact .error
  | succ fuel inductionHypothesis =>
    unfold scanArrayLoop
    refine .after fun stop => ?_
    cases stop with
    | none => exact Meet.here holds none
    | some stop =>
      have behind (state : State) (other : Other) (holds : related state other) :
          Meet related
            (onward text 93 stop (fun state => scanArrayLoop text visit fuel state (position + 1))
              state)
            (onward text 93 stop (fun other => scanArrayLoop text visit' fuel other (position + 1))
              other) :=
        onward_meet text 93 stop holds (inductionHypothesis holds (position + 1))
      exact turn_meet (agree state other position start stop holds) stop behind

theorem scanArray_meet (text : Bytes) (index : Nat)
    (agree : ∀ state other position start stop, related state other →
      Agree related (visit state position start stop) (visit' other position start stop))
    (holds : related state other) :
    Meet related (scanArray text index visit state) (scanArray text index visit' other) := by
  rw [scanArray_entering, scanArray_entering]
  exact entering_meet text 91 93 index holds (scanArrayLoop_meet text agree _ holds 0)

end Arrays

end NodexProxy.Jsonscan
