import NodexProxy.Jsonscan.Scan

/-! What the index loops compute, read off the rest of the text: white space as a prefix,
a string's end by an automaton that goes left to right, and the end of a nested value by the
same automaton with a bracket count. -/

namespace NodexProxy.Jsonscan

open NodexProxy.Foundation

section Loops

variable {text rest : Bytes} {index : Nat}

theorem length_le_of_drop (here : text.drop index = []) : text.length ≤ index :=
  List.drop_eq_nil_iff.mp here

/-- A width found behind some bytes, as a position. -/
theorem map_shift (result : Option Nat) (index width : Nat) :
    (result.map (· + width)).map (index + ·) = result.map (index + width + ·) := by
  rw [Option.map_map]
  congr 1
  funext more
  simp only [Function.comp]
  omega

theorem skipWhile_eq (keep : UInt8 → Bool) (fuel : Nat) :
    ∀ index, text.length ≤ fuel + index → skipWhile keep text (fuel + 1) index =
      .ok (index + ((text.drop index).takeWhile keep).length) := by
  induction fuel with
  | zero =>
    intro index enough
    have beyond : text.length ≤ index := by omega
    rw [skipWhile, if_neg (by omega), List.drop_eq_nil_of_le beyond]
    rfl
  | succ fuel ih =>
    intro index enough
    rw [skipWhile]
    cases here : text.drop index with
    | nil =>
      rw [if_neg (by have := length_le_of_drop here; omega)]
      rfl
    | cons byte rest =>
      rw [if_pos (lt_length_of_drop here), read_of_drop here]
      cases kept : keep byte with
      | false => simp [kept]
      | true =>
        rw [List.takeWhile_cons_of_pos kept]
        have next := ih (index + 1) (by omega)
        rw [drop_succ_of_drop here] at next
        simp only [Checked.ok_bind, kept, if_true, next, List.length_cons]
        congr 1
        omega

theorem skipSpace_eq (text : Bytes) (index : Nat) :
    skipSpace text index = .ok (index + ((text.drop index).takeWhile isSpace).length) :=
  skipWhile_eq isSpace text.length index (by omega)

end Loops

/-- How far the string goes whose opening quote has been read: up to the first quote that is
not escaped. An unescaped backslash escapes the byte behind it, whatever it is. -/
def stringEnd : Bool → Bytes → Option Nat
  | _, [] => none
  | true, _ :: rest => (stringEnd false rest).map (· + 1)
  | false, byte :: rest =>
    if byte = 34 then some 1 else (stringEnd (byte == 92) rest).map (· + 1)

section Strings

/-- Whether the byte behind the text is escaped. -/
def escapes (text : Bytes) : Bool := text.foldl (fun escaped byte => !escaped && byte == 92) false

theorem escapes_snoc (text : Bytes) (byte : UInt8) :
    escapes (text ++ [byte]) = (!escapes text && byte == 92) := by
  simp [escapes]

/-- The backslashes at the end. -/
def trailing (text : Bytes) : Nat := (text.reverse.takeWhile (· == 92)).length

theorem trailing_snoc (text : Bytes) (byte : UInt8) :
    trailing (text ++ [byte]) = if byte = 92 then trailing text + 1 else 0 := by
  unfold trailing
  rw [List.reverse_append]
  by_cases backslash : byte = 92 <;> simp [backslash]

/-- The parity of the backslashes at the end tells what the automaton knows. -/
theorem escapes_eq (text : Bytes) : escapes text = (trailing text % 2 == 1) := by
  induction text using List.reverseRecOn with
  | nil => rfl
  | append_singleton text byte ih =>
    rw [escapes_snoc, trailing_snoc, ih]
    by_cases backslash : byte = 92
    · rcases Nat.mod_two_eq_zero_or_one (trailing text) with even | odd
      · simp [backslash, even, Nat.add_mod]
      · simp [backslash, odd, Nat.add_mod]
    · simp [backslash]

/-- Without a quote the automaton only moves on. -/
theorem stringEnd_append (segment : Bytes) : ∀ (escaped : Bool) (rest : Bytes), 34 ∉ segment →
    stringEnd escaped (segment ++ rest) =
      (stringEnd (segment.foldl (fun escaped byte => !escaped && byte == 92) escaped) rest).map
        (· + segment.length) := by
  induction segment with
  | nil => simp
  | cons byte segment ih =>
    intro escaped rest free
    simp only [List.mem_cons, not_or] at free
    have next := ih (!escaped && byte == 92) rest free.2
    cases escaped with
    | true => simp_all [stringEnd, Function.comp_def, Nat.add_assoc]
    | false => simp_all [stringEnd, Ne.symm free.1, Function.comp_def, Nat.add_assoc]

theorem stringEnd_none (escaped : Bool) (text : Bytes) (free : 34 ∉ text) :
    stringEnd escaped text = none := by
  have moved := stringEnd_append text escaped [] free
  simpa [stringEnd] using moved

/-- Up to the next quote only the parity of the backslashes before it counts. -/
theorem stringEnd_quote (segment rest : Bytes) (free : 34 ∉ segment) :
    stringEnd false (segment ++ 34 :: rest) =
      if trailing segment % 2 = 0 then some (segment.length + 1)
      else (stringEnd false rest).map (· + (segment.length + 1)) := by
  rw [stringEnd_append segment false _ free]
  show (stringEnd (escapes segment) _).map _ = _
  rw [escapes_eq]
  rcases Nat.mod_two_eq_zero_or_one (trailing segment) with even | odd
  · simp [even, stringEnd, Nat.add_comm]
  · simp [odd, stringEnd, Function.comp_def, Nat.add_assoc, Nat.add_comm 1]

/-- The count stops at the quote before the segment, or at the start of the string. -/
theorem backslashesBefore_eq {text : Bytes} {start index : Nat} (behind : start < index)
    (boundary : start + 1 < index → read text (index - 1) = .ok 34) (segment : Bytes) :
    ∀ rest, text.drop index = segment ++ rest →
      backslashesBefore text start (index + segment.length) = .ok (trailing segment) := by
  induction segment using List.reverseRecOn with
  | nil =>
    intro rest here
    obtain ⟨position, rfl⟩ : ∃ position, index = position + 1 := ⟨index - 1, by omega⟩
    simp only [List.length_nil, Nat.add_zero, backslashesBefore]
    split
    · rw [Nat.add_sub_cancel] at boundary
      rw [boundary (by omega)]
      rfl
    · rfl
  | append_singleton segment byte ih =>
    intro rest here
    have inner : text.drop (index + segment.length) = byte :: rest := by
      apply drop_add_of_drop
      simpa using here
    rw [List.length_append, List.length_singleton, ← Nat.add_assoc, backslashesBefore,
      if_pos (by omega), read_of_drop inner, trailing_snoc]
    by_cases backslash : byte = 92
    · rw [if_pos backslash]
      simp only [Checked.ok_bind, if_pos backslash, ih (byte :: rest) (by simpa using here)]
      rfl
    · rw [if_neg backslash]
      simp [backslash]

theorem skipStringLoop_eq {text : Bytes} {start : Nat} (fuel : Nat) :
    ∀ index, start < index → (start + 1 < index → read text (index - 1) = .ok 34) →
      text.length ≤ fuel + index → skipStringLoop text start (fuel + 1) index =
        .ok ((stringEnd false (text.drop index)).map (index + ·)) := by
  induction fuel with
  | zero =>
    intro index _ _ enough
    rw [skipStringLoop, if_neg (by omega), List.drop_eq_nil_of_le (by omega)]
    rfl
  | succ fuel ih =>
    intro index behind boundary enough
    rw [skipStringLoop]
    by_cases inside : index < text.length
    · have whole : slice text index text.length = .ok (text.drop index) :=
        slice_of_drop (List.append_nil _).symm (by simp; omega) (by omega)
      rw [if_pos inside, whole]
      simp only [Checked.ok_bind]
      cases found : (text.drop index).idxOf? 34 with
      | none =>
        rw [stringEnd_none false _ (List.idxOf?_eq_none_iff.mp found)]
        rfl
      | some offset =>
        obtain ⟨segment, rest, split, free, rfl⟩ := idxOf?_split found
        have quoted : text.drop (index + segment.length) = 34 :: rest := drop_add_of_drop split
        dsimp only
        rw [backslashesBefore_eq behind boundary segment _ split, split,
          stringEnd_quote segment rest free]
        simp only [Checked.ok_bind]
        split
        · simp [Nat.add_assoc]
        · have next := ih (index + segment.length + 1) (by omega)
            (fun _ => by simpa using read_of_drop quoted) (by omega)
          rw [drop_succ_of_drop quoted] at next
          rw [next, map_shift, Nat.add_assoc index]
    · rw [if_neg inside, List.drop_eq_nil_of_le (by omega)]
      rfl

theorem skipString_eq {text rest : Bytes} {index : Nat} (here : text.drop index = 34 :: rest) :
    skipString text index = .ok ((stringEnd false rest).map (index + 1 + ·)) := by
  have inside := lt_length_of_drop here
  rw [skipString, if_neg (by omega), read_of_drop here]
  simp only [Checked.ok_bind, ne_eq, not_true_eq_false, if_false]
  rw [skipStringLoop_eq text.length (index + 1) (by omega) (by omega) (by omega),
    drop_succ_of_drop here]

end Strings

/-- The same inside an object or array: `none` outside strings, else whether the next byte is
escaped, together with the number of open brackets. -/
def nestedEnd : Option Bool → Int → Bytes → Option Nat
  | _, _, [] => none
  | some true, depth, _ :: rest => (nestedEnd (some false) depth rest).map (· + 1)
  | some false, depth, byte :: rest =>
    (nestedEnd (if byte = 34 then none else some (byte == 92)) depth rest).map (· + 1)
  | none, depth, byte :: rest =>
    if byte = 34 then (nestedEnd (some false) depth rest).map (· + 1)
    else if byte = 123 ∨ byte = 91 then (nestedEnd none (depth + 1) rest).map (· + 1)
    else if byte = 125 ∨ byte = 93 then
      if depth - 1 = 0 then some 1 else (nestedEnd none (depth - 1) rest).map (· + 1)
    else (nestedEnd none depth rest).map (· + 1)

section Nested

theorem nestedEnd_string (depth : Int) (text : Bytes) : ∀ escaped : Bool,
    nestedEnd (some escaped) depth text = (stringEnd escaped text).bind fun width =>
      (nestedEnd none depth (text.drop width)).map (· + width) := by
  induction text with
  | nil =>
    intro escaped
    cases escaped <;> rfl
  | cons byte text ih =>
    intro escaped
    cases escaped with
    | true =>
      simp [nestedEnd, stringEnd, ih, Option.bind_map, Option.map_bind, Function.comp_def, Nat.add_assoc]
    | false =>
      by_cases quote : byte = 34
      · simp [nestedEnd, stringEnd, quote]
      · simp [nestedEnd, stringEnd, quote, ih, Option.bind_map, Option.map_bind, Function.comp_def,
          Nat.add_assoc]

theorem skipNestedLoop_eq {text : Bytes} (fuel : Nat) :
    ∀ depth index, text.length ≤ fuel + index → skipNestedLoop text (fuel + 1) depth index =
      .ok ((nestedEnd none depth (text.drop index)).map (index + ·)) := by
  induction fuel with
  | zero =>
    intro depth index enough
    rw [skipNestedLoop, if_neg (by omega), List.drop_eq_nil_of_le (by omega)]
    rfl
  | succ fuel ih =>
    intro depth index enough
    rw [skipNestedLoop]
    cases here : text.drop index with
    | nil =>
      rw [if_neg (by have := length_le_of_drop here; omega)]
      rfl
    | cons byte rest =>
      have next : ∀ depth, skipNestedLoop text (fuel + 1) depth (index + 1) =
          .ok ((nestedEnd none depth rest).map (index + 1 + ·)) := by
        intro depth
        rw [ih depth (index + 1) (by omega), drop_succ_of_drop here]
      rw [if_pos (lt_length_of_drop here), read_of_drop here]
      simp only [Checked.ok_bind, nestedEnd]
      by_cases quote : byte = 34
      · rw [if_pos quote, if_pos quote, skipString_eq (quote ▸ here), map_shift, nestedEnd_string]
        simp only [Checked.ok_bind]
        cases ended : stringEnd false rest with
        | none => rfl
        | some width =>
          have behind : text.drop (index + 1 + width) = rest.drop width := by
            rw [← drop_succ_of_drop here, List.drop_drop]
          simp only [Option.map_some, Option.bind_some]
          rw [ih depth (index + 1 + width) (by omega), behind, map_shift]
      · simp only [if_neg quote]
        split_ifs
        · rw [next, map_shift]
        · rfl
        · rw [next, map_shift]
        · rw [next, map_shift]

theorem skipValue_string {text rest : Bytes} {index : Nat} (here : text.drop index = 34 :: rest) :
    skipValue text index = .ok ((stringEnd false rest).map (index + 1 + ·)) := by
  have inside := lt_length_of_drop here
  rw [skipValue, if_neg (by omega), read_of_drop here]
  exact skipString_eq here

theorem skipValue_nested {text rest : Bytes} {index : Nat} (here : text.drop index = byte :: rest)
    (opens : byte = 123 ∨ byte = 91) :
    skipValue text index = .ok ((nestedEnd none 0 (byte :: rest)).map (index + ·)) := by
  have inside := lt_length_of_drop here
  have other : byte ≠ 34 := by rcases opens with rfl | rfl <;> decide
  rw [skipValue, if_neg (by omega), read_of_drop here]
  simp only [Checked.ok_bind, if_neg other, if_pos opens]
  rw [skipNestedLoop_eq text.length 0 index (by omega), here]

theorem skipValue_scalar {text rest : Bytes} {index : Nat} (here : text.drop index = byte :: rest)
    (other : byte ≠ 34 ∧ byte ≠ 123 ∧ byte ≠ 91) (inner : isDelimiter byte = false) :
    skipValue text index = .ok (some
      (index + ((byte :: rest).takeWhile fun byte => !isDelimiter byte).length)) := by
  have inside := lt_length_of_drop here
  rw [skipValue, if_neg (by omega), read_of_drop here]
  simp only [Checked.ok_bind, if_neg other.1, other.2.1, other.2.2, or_self, if_false]
  rw [skipWhile_eq _ text.length index (by omega), here]
  simp [inner]

end Nested

end NodexProxy.Jsonscan
