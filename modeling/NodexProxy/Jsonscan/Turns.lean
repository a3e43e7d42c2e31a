import NodexProxy.Jsonscan.Scan

/-! What the scans of objects and of arrays have in common: how they begin, how a visitor ends them,
and how they go on behind a value. -/

namespace NodexProxy.Jsonscan

open NodexProxy.Foundation

section Parts

variable {State : Type}

/-- One turn of a scan: it ends here when the visitor has enough. -/
def turn (outcome : Checked (State × Bool)) (early : Nat)
    (onward : State → Checked (Option Nat × State)) : Checked (Option Nat × State) := do
  let (state, goOn) ← outcome
  if !goOn then return (some early, state) else onward state

/-- What both loops do behind a value that has been visited. -/
def onward (text : Bytes) (close : UInt8) (stop : Nat)
    (again : State → Nat → Checked (Option Nat × State)) (state : State) :
    Checked (Option Nat × State) := do
  let index ← skipSpace text stop
  if text.length ≤ index then return (none, state)
  else
    let byte ← read text index
    if byte = 44 then
      let index ← skipSpace text (index + 1)
      again state index
    else if byte = close then return (some (index + 1), state)
    else return (none, state)

/-- How both scans begin. -/
def entering (text : Bytes) (opens closes : UInt8) (index : Nat)
    (loop : State → Nat → Checked (Option Nat × State)) (state : State) :
    Checked (Option Nat × State) :=
  if text.length ≤ index then return (none, state)
  else do
    let byte ← read text index
    if byte ≠ opens then return (none, state)
    else
      let index ← skipSpace text (index + 1)
      if index < text.length then
        let byte ← read text index
        if byte = closes then return (some (index + 1), state) else loop state index
      else loop state index

theorem entering_empty (loop : State → Nat → Checked (Option Nat × State)) (state : State)
    (here : text.drop index = opens :: rest) (spaced : skipSpace text (index + 1) = .ok first)
    (atFirst : text.drop first = closes :: more) :
    entering text opens closes index loop state = .ok (some (first + 1), state) := by
  have inside := lt_length_of_drop here
  rw [entering, if_neg (by omega), read_of_drop here]
  simp only [Checked.ok_bind, ne_eq, not_true_eq_false, if_false, spaced,
    if_pos (lt_length_of_drop atFirst), read_of_drop atFirst, if_true]
  rfl

theorem entering_item (loop : State → Nat → Checked (Option Nat × State)) (state : State)
    (here : text.drop index = opens :: rest) (spaced : skipSpace text (index + 1) = .ok first)
    (atFirst : text.drop first = byte :: more) (other : byte ≠ closes) :
    entering text opens closes index loop state = loop state first := by
  have inside := lt_length_of_drop here
  rw [entering, if_neg (by omega), read_of_drop here]
  simp only [Checked.ok_bind, ne_eq, not_true_eq_false, if_false, spaced,
    if_pos (lt_length_of_drop atFirst), read_of_drop atFirst, if_neg other]

end Parts

section Scans

variable {State : Type} {text : Bytes}

theorem scanObject_entering (index : Nat)
    (visit : State → Bytes → Bool → Nat → Nat → Checked (State × Bool)) (state : State) :
    scanObject text index visit state =
      entering text 123 125 index (scanObjectLoop text visit (text.length + 1)) state := rfl

theorem scanArray_entering (index : Nat)
    (visit : State → Nat → Nat → Nat → Checked (State × Bool)) (state : State) :
    scanArray text index visit state = entering text 91 93 index
      (fun state first => scanArrayLoop text visit (text.length + 1) state 0 first) state := rfl

/-- A turn of the object loop that finds a member. -/
theorem scanObjectLoop_turn (visit : State → Bytes → Bool → Nat → Nat → Checked (State × Bool))
    (fuel : Nat) (state : State)
    (skipsKey : skipStringEscaped text index = .ok (some (keyStop, escaped)))
    (cuts : slice text (index + 1) (keyStop - 1) = .ok key)
    (toColon : skipSpace text keyStop = .ok colon) (inside : colon < text.length)
    (reads : read text colon = .ok 58) (toValue : skipSpace text (colon + 1) = .ok start)
    (skipsValue : skipValue text start = .ok (some stop)) :
    scanObjectLoop text visit (fuel + 1) state index =
      turn (visit state key escaped start stop) stop
        (onward text 125 stop (scanObjectLoop text visit fuel)) := by
  simp only [scanObjectLoop, skipsKey, cuts, toColon, Checked.ok_bind,
    if_neg (Nat.not_le.mpr inside), reads, ne_eq, not_true_eq_false, if_false, toValue, skipsValue]
  rfl

/-- A turn of the array loop that finds an element. -/
theorem scanArrayLoop_turn (visit : State → Nat → Nat → Nat → Checked (State × Bool)) (fuel : Nat)
    (state : State) (position : Nat) (skipsValue : skipValue text start = .ok (some stop)) :
    scanArrayLoop text visit (fuel + 1) state position start =
      turn (visit state position start stop) stop (onward text 93 stop fun state next =>
        scanArrayLoop text visit fuel state (position + 1) next) := by
  simp only [scanArrayLoop, skipsValue, Checked.ok_bind]
  rfl

end Scans

end NodexProxy.Jsonscan
