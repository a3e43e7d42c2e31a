import NodexProxy.Foundation.Trim
import NodexProxy.Jsonrpc.Request

/-! The filter for error keys finds every one of them, and trimming changes nothing it sees. -/

namespace NodexProxy.Jsonrpc

open NodexProxy.Foundation

/-- The part both spellings of the key end in. -/
def errorKeySuffix : Bytes := ascii "rror\""

section Search

variable {message : Bytes}

theorem indexOf_eq_some (found : indexOf part message = some index) :
    part <+: message.drop index ∧ ∀ earlier < index, ¬ part <+: message.drop earlier := by
  obtain ⟨here, -, first⟩ := List.find?_range_eq_some.mp found
  refine ⟨List.isPrefixOf_iff_prefix.mp here, fun earlier before occurs => ?_⟩
  have missed := first earlier before
  simp [List.isPrefixOf_iff_prefix.mpr occurs] at missed

theorem indexOf_eq_none (missing : indexOf part message = none) (index : Nat)
    (inside : index ≤ message.length) : ¬ part <+: message.drop index := by
  intro occurs
  have missed := List.find?_eq_none.mp missing index (by simpa using Nat.lt_succ_of_le inside)
  exact missed (List.isPrefixOf_iff_prefix.mpr occurs)

theorem getElem?_of_occurs (occurs : part <+: message.drop index) (inside : offset < part.length) :
    message[index + offset]? = part[offset]? := by
  obtain ⟨rest, split⟩ := occurs
  rw [← List.getElem?_drop, ← split, List.getElem?_append_left inside]

/-- The suffix does not overlap itself. -/
theorem suffix_apart (first : errorKeySuffix <+: message.drop index)
    (second : errorKeySuffix <+: message.drop later) (before : index < later) :
    index + 5 ≤ later := by
  by_contra close
  obtain ⟨offset, rfl⟩ := Nat.exists_eq_add_of_lt before
  have quote := getElem?_of_occurs first (show 4 < errorKeySuffix.length by decide)
  have small : offset < 4 := by omega
  have other := getElem?_of_occurs second (show 3 - offset < errorKeySuffix.length by
    have five : errorKeySuffix.length = 5 := rfl
    omega)
  rw [show index + offset + 1 + (3 - offset) = index + 4 by omega, quote] at other
  interval_cases offset <;> revert other <;> decide

/-- A key ends at this place: a quote, a letter e of either case and the suffix. -/
structure KeyAt (message : Bytes) (index : Nat) : Prop where
  room : 2 ≤ index
  quote : message[index - 2]? = some 34
  letter : message[index - 1]? = some 101 ∨ message[index - 1]? = some 69
  suffix : errorKeySuffix <+: message.drop index

theorem KeyAt.inside (key : KeyAt message index) : index < message.length := by
  by_contra beyond
  have occurs := key.suffix
  rw [List.drop_eq_nil_of_le (Nat.le_of_not_lt beyond)] at occurs
  cases List.prefix_nil.mp occurs

theorem KeyAt.drop_suffix (key : KeyAt message index) (behind : offset ≤ index) :
    errorKeySuffix <+: (message.drop offset).drop (index - offset) := by
  rw [List.drop_drop, Nat.add_sub_cancel' behind]
  exact key.suffix

theorem not_keyAt_of_ended (ended : message.length ≤ offset) :
    ¬ ∃ index, offset ≤ index ∧ KeyAt message index := by
  rintro ⟨index, behind, key⟩
  have inside := key.inside
  omega

/-- From an offset on, the loop finds a key exactly when there is one. -/
theorem containsErrorKeyLoop_iff (message : Bytes) (fuel offset : Nat)
    (enough : message.length ≤ offset + fuel) :
    containsErrorKeyLoop message fuel offset = true ↔ ∃ index, offset ≤ index ∧ KeyAt message index := by
  induction fuel generalizing offset with
  | zero => exact iff_of_false (by simp [containsErrorKeyLoop]) (not_keyAt_of_ended enough)
  | succ fuel inductionHypothesis =>
    rw [containsErrorKeyLoop]
    by_cases ended : message.length ≤ offset
    · rw [if_pos ended]
      exact iff_of_false (by simp) (not_keyAt_of_ended ended)
    rw [if_neg ended]
    cases found : indexOf errorKeySuffix (message.drop offset) with
    | none =>
      rw [show indexOf (ascii "rror\"") (message.drop offset) = none from found]
      refine iff_of_false (by simp) ?_
      rintro ⟨index, behind, key⟩
      have inside := key.inside
      exact indexOf_eq_none found (index - offset) (by rw [List.length_drop]; omega)
        (key.drop_suffix behind)
    | some place =>
      rw [show indexOf (ascii "rror\"") (message.drop offset) = some place from found]
      obtain ⟨here, first⟩ := indexOf_eq_some found
      rw [List.drop_drop, Nat.add_comm offset place] at here
      dsimp only
      split_ifs with key
      · exact iff_of_true rfl ⟨place + offset, by omega, key.1, key.2.1, key.2.2, here⟩
      · rw [inductionHypothesis (place + offset + 5) (by omega)]
        constructor
        · rintro ⟨index, behind, later⟩
          exact ⟨index, by omega, later⟩
        · rintro ⟨index, behind, later⟩
          refine ⟨index, ?_, later⟩
          have notEarlier : ¬ index < place + offset := by
            intro earlier
            exact first (index - offset) (by omega) (later.drop_suffix behind)
          have different : index ≠ place + offset := by
            rintro rfl
            exact key ⟨later.room, later.quote, later.letter⟩
          exact suffix_apart here later.suffix (by omega)

end Search

theorem cons_prefix_drop (byte : UInt8) (part message : Bytes) (index : Nat) :
    byte :: part <+: message.drop index ↔
      message[index]? = some byte ∧ part <+: message.drop (index + 1) := by
  rw [← List.head?_drop, ← List.tail_drop]
  cases message.drop index with
  | nil => simp
  | cons first rest => simp [List.cons_prefix_cons, eq_comm]

theorem infix_iff_drop (part message : Bytes) :
    part <:+: message ↔ ∃ index, part <+: message.drop index := by
  rw [List.infix_iff_prefix_suffix]
  constructor
  · rintro ⟨rest, starts, ends⟩
    exact ⟨_, List.suffix_iff_eq_drop.mp ends ▸ starts⟩
  · rintro ⟨index, starts⟩
    exact ⟨_, starts, List.drop_suffix index message⟩

/-- The filter looks for the two quoted keys. -/
theorem containsErrorKey_eq_true_iff (message : Bytes) :
    containsErrorKey message = true ↔
      ascii "\"error\"" <:+: message ∨ ascii "\"Error\"" <:+: message := by
  have lower : ascii "\"error\"" = 34 :: 101 :: errorKeySuffix := rfl
  have upper : ascii "\"Error\"" = 34 :: 69 :: errorKeySuffix := rfl
  rw [containsErrorKey, containsErrorKeyLoop_iff message _ 0 (by omega), infix_iff_drop,
    infix_iff_drop, lower, upper, ← exists_or]
  simp only [cons_prefix_drop]
  constructor
  · rintro ⟨index, -, room, quote, letter, suffix⟩
    obtain ⟨start, rfl⟩ := Nat.exists_eq_add_of_le' room
    refine ⟨start, ?_⟩
    rcases letter with small | capital
    · exact .inl ⟨quote, small, suffix⟩
    · exact .inr ⟨quote, capital, suffix⟩
  · rintro ⟨start, ⟨quote, small, suffix⟩ | ⟨quote, capital, suffix⟩⟩
    · exact ⟨start + 2, Nat.zero_le _, by omega, quote, .inl small, suffix⟩
    · exact ⟨start + 2, Nat.zero_le _, by omega, quote, .inr capital, suffix⟩

theorem containsErrorKey_trimmed (message : Bytes) :
    containsErrorKey (trimSpace message) = containsErrorKey message := by
  have solid : spacing 34 = false := by decide
  rw [Bool.eq_iff_iff, containsErrorKey_eq_true_iff, containsErrorKey_eq_true_iff]
  exact or_congr (infix_trimSpace solid solid (ascii "error") message)
    (infix_trimSpace solid solid (ascii "Error") message)

end NodexProxy.Jsonrpc
