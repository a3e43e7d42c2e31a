import NodexProxy.Jsonscan.Automaton

/-! Where a string ends, by position: at the first quote behind the opening one that is not escaped,
as the automaton tells from the bytes between them. -/

namespace NodexProxy.Jsonscan

open NodexProxy.Foundation

/-- A quote behind the one at `start`, and not escaped by what stands between the two. -/
structure Closes (text : Bytes) (start quote : Nat) : Prop where
  behind : start < quote
  quoted : text[quote]? = some 34
  free : escapes ((text.take quote).drop (start + 1)) = false

/-- The same for the text behind the opening quote, from any state of the automaton. -/
def ClosesAt (escaped : Bool) (text : Bytes) (offset : Nat) : Prop :=
  text[offset]? = some 34 ∧
    (text.take offset).foldl (fun escaped byte => !escaped && byte == 92) escaped = false

section Automaton

variable {text rest : Bytes} {escaped : Bool} {byte : UInt8}

theorem not_closesAt_nil (escaped : Bool) (offset : Nat) : ¬ ClosesAt escaped [] offset := by
  rintro ⟨quoted, -⟩
  cases quoted

theorem closesAt_zero : ClosesAt escaped (byte :: rest) 0 ↔ byte = 34 ∧ escaped = false := by
  simp [ClosesAt]

theorem closesAt_succ (offset : Nat) :
    ClosesAt escaped (byte :: rest) (offset + 1) ↔
      ClosesAt (!escaped && byte == 92) rest offset := Iff.rfl

/-- A byte that does not close the string only changes the state. -/
theorem stringEnd_cons (onward : ¬ ClosesAt escaped (byte :: rest) 0) :
    stringEnd escaped (byte :: rest) =
      (stringEnd (!escaped && byte == 92) rest).map (· + 1) := by
  rw [closesAt_zero] at onward
  cases escaped with
  | true => rfl
  | false =>
    have other : byte ≠ 34 := fun quote => onward ⟨quote, rfl⟩
    simp [stringEnd, other]

/-- The automaton stops behind the first quote it does not take for escaped. -/
theorem stringEnd_cases (escaped : Bool) (text : Bytes) :
    (stringEnd escaped text = none ∧ ∀ offset, ¬ ClosesAt escaped text offset) ∨
      ∃ offset, stringEnd escaped text = some (offset + 1) ∧
        IsLeast {offset | ClosesAt escaped text offset} offset := by
  induction text generalizing escaped with
  | nil => exact .inl ⟨by cases escaped <;> rfl, not_closesAt_nil escaped⟩
  | cons byte rest inductionHypothesis =>
    by_cases here : ClosesAt escaped (byte :: rest) 0
    · obtain ⟨rfl, rfl⟩ := closesAt_zero.mp here
      exact .inr ⟨0, rfl, here, fun _ _ => Nat.zero_le _⟩
    · rw [stringEnd_cons here]
      rcases inductionHypothesis (!escaped && byte == 92) with ⟨ended, never⟩ | ⟨offset, ended, least⟩
      · refine .inl ⟨by rw [ended]; rfl, fun offset closes => ?_⟩
        cases offset with
        | zero => exact here closes
        | succ offset => exact never offset ((closesAt_succ offset).mp closes)
      · refine .inr ⟨offset + 1, by rw [ended]; rfl, (closesAt_succ offset).mpr least.1, ?_⟩
        intro later closes
        cases later with
        | zero => exact absurd closes here
        | succ later => exact Nat.succ_le_succ (least.2 ((closesAt_succ later).mp closes))

end Automaton

section Positions

variable {text rest : Bytes} {start : Nat}

theorem closes_iff (behind : text.drop (start + 1) = rest) (offset : Nat) :
    Closes text start (start + 1 + offset) ↔ ClosesAt false rest offset := by
  have between : (text.take (start + 1 + offset)).drop (start + 1) = rest.take offset := by
    rw [List.drop_take, behind, Nat.add_sub_cancel_left]
  have quoted : text[start + 1 + offset]? = rest[offset]? := by rw [← behind, List.getElem?_drop]
  constructor
  · intro closes
    refine ⟨quoted ▸ closes.quoted, ?_⟩
    have free := closes.free
    rw [between] at free
    exact free
  · rintro ⟨here, free⟩
    refine ⟨by omega, quoted ▸ here, ?_⟩
    rw [between]
    exact free

/-- Every quote behind the opening one is at some offset of the text behind it. -/
theorem Closes.exists_offset (closes : Closes text start quote) :
    ∃ offset, quote = start + 1 + offset :=
  Nat.exists_eq_add_of_le closes.behind

/-- `skipString` finds the first quote that closes, or there is none. -/
theorem skipString_cases (here : text.drop start = 34 :: rest) :
    (skipString text start = .ok none ∧ ∀ quote, ¬ Closes text start quote) ∨
      ∃ quote, skipString text start = .ok (some (quote + 1)) ∧
        IsLeast {quote | Closes text start quote} quote := by
  have behind := drop_succ_of_drop here
  rw [skipString_eq here]
  rcases stringEnd_cases false rest with ⟨ended, never⟩ | ⟨offset, ended, least⟩
  · refine .inl ⟨by rw [ended]; rfl, fun quote closes => ?_⟩
    obtain ⟨offset, rfl⟩ := closes.exists_offset
    exact never offset ((closes_iff behind offset).mp closes)
  · refine .inr ⟨start + 1 + offset, by rw [ended]; rfl, (closes_iff behind offset).mpr least.1, ?_⟩
    intro quote closes
    obtain ⟨later, rfl⟩ := closes.exists_offset
    have first : offset ≤ later := least.2 ((closes_iff behind later).mp closes)
    omega

/-- `SkipString` looks for a backslash between the quotes `skipString` found. -/
theorem skipStringEscaped_of_closes (closes : Closes text start quote)
    (skips : skipString text start = .ok (some (quote + 1))) :
    ∃ escaped, skipStringEscaped text start = .ok (some (quote + 1, escaped)) ∧
      (escaped = true ↔
        ∃ position, start < position ∧ position < quote ∧ text[position]? = some 92) := by
  have inside : quote < text.length := (List.getElem?_eq_some_iff.mp closes.quoted).1
  have cut : slice text (start + 1) quote =
      .ok ((text.drop (start + 1)).take (quote - (start + 1))) :=
    if_pos ⟨closes.behind, inside.le⟩
  refine ⟨_, ?_, List.contains_iff_mem.trans mem_cut⟩
  rw [skipStringEscaped, skips]
  simp only [Checked.ok_bind, Nat.add_sub_cancel, cut]
  rfl

end Positions

/-- At an opening quote the scanners do what the automaton says: they stop behind the first quote
that is not escaped and fail without one, and the flag tells of a backslash before that quote. -/
theorem skipString_is_automaton (text : Bytes) (start : Nat) (opened : text[start]? = some 34) :
    (∀ quote, skipString text start = .ok (some (quote + 1)) ↔
      IsLeast {quote | Closes text start quote} quote) ∧
    (skipString text start = .ok none ↔ ∀ quote, ¬ Closes text start quote) ∧
    (∀ quote escaped, skipStringEscaped text start = .ok (some (quote + 1, escaped)) ↔
      IsLeast {quote | Closes text start quote} quote ∧
        (escaped = true ↔
          ∃ position, start < position ∧ position < quote ∧ text[position]? = some 92)) ∧
    (skipStringEscaped text start = .ok none ↔ ∀ quote, ¬ Closes text start quote) := by
  obtain ⟨rest, here⟩ : ∃ rest, text.drop start = 34 :: rest := by
    obtain ⟨inside, same⟩ := List.getElem?_eq_some_iff.mp opened
    exact ⟨_, same ▸ List.drop_eq_getElem_cons inside⟩
  rcases skipString_cases here with ⟨skips, never⟩ | ⟨found, skips, least⟩
  · have skipsEscaped : skipStringEscaped text start = .ok none := by
      rw [skipStringEscaped, skips]
      rfl
    rw [skips, skipsEscaped]
    simp [never, IsLeast]
  · have only : ∀ quote, found = quote ↔ IsLeast {quote | Closes text start quote} quote :=
      fun quote => ⟨fun same => same ▸ least, least.unique⟩
    have closed : ¬ ∀ quote, ¬ Closes text start quote := fun never => never found least.1
    obtain ⟨flag, skipsEscaped, tells⟩ := skipStringEscaped_of_closes least.1 skips
    rw [skips, skipsEscaped]
    refine ⟨fun quote => ?_, iff_of_false (by simp) closed, fun quote escaped => ?_,
      iff_of_false (by simp) closed⟩
    · rw [← only]
      simp
    · rw [← only]
      constructor
      · intro same
        cases same
        exact ⟨rfl, tells⟩
      · rintro ⟨rfl, alike⟩
        have same : flag = escaped := Bool.eq_iff_iff.mpr (tells.trans alike.symm)
        rw [same]

/-- The quote at 3 is escaped, the backslash before the one at 6 is escaped itself. -/
theorem skipString_is_automaton_sample :
    let text := ascii "\"a\\\"\\\\\"b\""
    text[0]? = some 34 ∧ IsLeast {quote | Closes text 0 quote} 6 ∧
      skipStringEscaped text 0 = .ok (some (7, true)) :=
  ⟨rfl, ((skipString_is_automaton _ 0 rfl).1 6).mp rfl, rfl⟩

end NodexProxy.Jsonscan
