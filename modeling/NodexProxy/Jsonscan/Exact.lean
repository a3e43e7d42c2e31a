import NodexProxy.Foundation.Json
import NodexProxy.Jsonscan.Automaton

/-! On JSON text the scanner finds the exact boundaries: of a value, of the members of an
object, and of the elements of an array. -/

namespace NodexProxy.Jsonscan

open NodexProxy.Foundation NodexProxy.Foundation.Json

section Space

variable {text rest : Bytes} {index : Nat}

theorem isSpace_eq (byte : UInt8) :
    isSpace byte = true ↔ byte = 32 ∨ byte = 9 ∨ byte = 10 ∨ byte = 13 := by
  simp [isSpace, or_assoc]

/-- White space ends where the next token starts. -/
theorem skipSpace_blank (blank : Blank space) (here : text.drop index = space ++ byte :: rest)
    (token : isSpace byte = false) : skipSpace text index = .ok (index + space.length) := by
  have all : ∀ byte ∈ space, isSpace byte = true :=
    fun byte member => (isSpace_eq byte).mpr (blank byte member)
  rw [skipSpace_eq, here, List.takeWhile_append_of_pos all, List.takeWhile_cons_of_neg (by simp [token]),
    List.append_nil]

/-- What may stand behind a value. -/
def Follows (rest : Bytes) : Prop := ∀ byte ∈ rest.head?, isDelimiter byte = true

theorem follows_blank (blank : Blank space) (ends : isDelimiter byte = true) :
    Follows (space ++ byte :: rest) := by
  cases space with
  | nil => simpa [Follows] using ends
  | cons first space =>
    have isBlank := (isSpace_eq first).mpr (blank first (by simp))
    simp [Follows, isDelimiter, isBlank]

end Space

section Values

theorem stringEnd_skipped (content : Skipped text) (rest : Bytes) :
    stringEnd false (text ++ 34 :: rest) = some (text.length + 1) := by
  induction content with
  | nil => simp [stringEnd]
  | plain quote backslash _ ih =>
    have plain := beq_eq_false_iff_ne.mpr backslash
    simp [stringEnd, quote, plain, ih]
  | escape _ ih => simp [stringEnd, ih]

/-- Inside a bracket the text is passed over and leaves the count as it was. -/
def Transparent (text : Bytes) : Prop :=
  ∀ (depth : Int) (rest : Bytes), 0 < depth →
    nestedEnd none depth (text ++ rest) = (nestedEnd none depth rest).map (· + text.length)

/-- Widths add up. -/
theorem map_widen (result : Option Nat) (first second : Nat) :
    (result.map (· + first)).map (· + second) = result.map (· + (first + second)) := by
  simp [Option.map_map, Function.comp_def, Nat.add_assoc]

theorem Transparent.nil : Transparent [] := by simp [Transparent]

theorem Transparent.append (first : Transparent text) (second : Transparent more) :
    Transparent (text ++ more) := by
  intro depth rest positive
  rw [List.append_assoc, first depth _ positive, second depth _ positive, map_widen,
    List.length_append, Nat.add_comm]

theorem Transparent.singleton (quote : byte ≠ 34) (opens : byte ≠ 123 ∧ byte ≠ 91)
    (closes : byte ≠ 125 ∧ byte ≠ 93) : Transparent [byte] := by
  intro depth rest _
  simp [nestedEnd, quote, opens.1, opens.2, closes.1, closes.2]

theorem Transparent.of_bytes (text : Bytes) (free : ∀ byte ∈ text, Transparent [byte]) :
    Transparent text := by
  induction text with
  | nil => exact .nil
  | cons byte text ih =>
    exact .append (free byte (by simp)) (ih fun byte member => free byte (by simp [member]))

theorem Transparent.blank (blank : Blank text) : Transparent text := by
  apply Transparent.of_bytes
  intro byte member
  rcases blank byte member with rfl | rfl | rfl | rfl
  all_goals exact .singleton (by decide) (by decide) (by decide)

theorem Transparent.quoted (content : Skipped text) : Transparent (quoted text) := by
  intro depth rest _
  have inner : nestedEnd (some false) depth (text ++ 34 :: rest) =
      (nestedEnd none depth rest).map (· + (text.length + 1)) := by
    rw [nestedEnd_string, stringEnd_skipped content, Option.bind_some,
      show (text ++ 34 :: rest).drop (text.length + 1) = rest by simp [List.drop_append]]
  simp only [Json.quoted, List.cons_append, List.append_assoc, List.nil_append, nestedEnd, if_true,
    inner, map_widen, List.length_cons, List.length_append, List.length_nil]

theorem Transparent.comma : Transparent [44] := .singleton (by decide) (by decide) (by decide)

theorem Transparent.separated (blank : Blank space) (texts : List Bytes)
    (all : ∀ text ∈ texts, Transparent text) : Transparent (Json.separated space texts) := by
  induction texts with
  | nil => exact .blank blank
  | cons text texts ih =>
    have head := all text (by simp)
    cases texts with
    | nil => exact head
    | cons next texts =>
      exact head.append (.append .comma (ih fun text member => all text (by simp [member])))

/-- A bracketed text closes the bracket it opens. -/
theorem nestedEnd_bracket (inner : Transparent text) (opens : first = 123 ∨ first = 91)
    (closes : last = 125 ∨ last = 93) (depth : Int) (level : 0 ≤ depth) (rest : Bytes) :
    nestedEnd none depth (first :: text ++ [last] ++ rest) =
      if depth = 0 then some (text.length + 2)
      else (nestedEnd none depth rest).map (· + (text.length + 2)) := by
  have open' : first ≠ 34 := by rcases opens with rfl | rfl <;> decide
  have close : last ≠ 34 ∧ ¬ (last = 123 ∨ last = 91) := by rcases closes with rfl | rfl <;> decide
  have tail : nestedEnd none (depth + 1) (last :: rest) =
      if depth = 0 then some 1 else (nestedEnd none depth rest).map (· + 1) := by
    simp [nestedEnd, close.1, close.2, closes]
  simp only [List.cons_append, List.append_assoc, List.nil_append, nestedEnd, if_neg open',
    if_pos opens]
  rw [inner (depth + 1) _ (by omega), tail]
  split_ifs
  · simp only [Option.map_some, Option.some.injEq]
    omega
  · rw [map_widen, map_widen, show 1 + (text.length + 1) = text.length + 2 by omega]

theorem Transparent.bracket (inner : Transparent text) (opens : first = 123 ∨ first = 91)
    (closes : last = 125 ∨ last = 93) : Transparent (first :: text ++ [last]) := by
  intro depth rest positive
  rw [nestedEnd_bracket inner opens closes depth (by omega), if_neg (by omega)]
  simp [Nat.add_assoc]

theorem Loose.ne (free : Loose byte) (special : other ∈ ascii "\"\x7b\x7d[],: \t\n\r") :
    byte ≠ other := by
  rintro rfl
  exact free special

theorem Loose.transparent (free : Loose byte) : Transparent [byte] :=
  .singleton (Loose.ne free (by decide)) ⟨Loose.ne free (by decide), Loose.ne free (by decide)⟩
    ⟨Loose.ne free (by decide), Loose.ne free (by decide)⟩

theorem Transparent.elements {elements : List Element} (blanks : Blank space)
    (spaced : ∀ element ∈ elements, element.Spaced)
    (values : ∀ element ∈ elements, Transparent element.value) :
    Transparent (Json.separated space (elements.map Element.text)) := by
  refine .separated blanks _ fun text member => ?_
  obtain ⟨element, inside, rfl⟩ := List.mem_map.mp member
  exact ((Transparent.blank (spaced element inside).before).append (values element inside)).append
    (.blank (spaced element inside).after)

theorem Transparent.members {members : List Member} (blanks : Blank space)
    (spaced : ∀ member ∈ members, member.Spaced ∧ Skipped member.key)
    (values : ∀ member ∈ members, Transparent member.value) :
    Transparent (Json.separated space (members.map Member.text)) := by
  refine .separated blanks _ fun text listed => ?_
  obtain ⟨member, inside, rfl⟩ := List.mem_map.mp listed
  obtain ⟨space, content⟩ := spaced member inside
  have colon : Transparent [58] := .singleton (by decide) (by decide) (by decide)
  have name := (Transparent.blank space.before).append (.quoted content)
  have value := (colon.append (.blank space.beforeValue)).append (values member inside)
  simpa [Member.text, Member.core] using
    ((name.append (.blank space.afterKey)).append value).append (.blank space.after)

theorem transparent_of_value (value : Value loose text) : Transparent text := by
  induction value with
  | scalar scalar => exact .of_bytes _ fun byte member => Loose.transparent (scalar.2 byte member)
  | string content => exact .quoted content
  | array blank elements blanks spaced _ ih =>
    exact .bracket (.elements blanks spaced ih) (.inr rfl) (.inr rfl)
  | object blank members blanks spaced _ ih =>
    exact .bracket (.members blanks spaced ih) (.inl rfl) (.inl rfl)

theorem Loose.inner (free : Loose byte) : isDelimiter byte = false := by
  have other : ∀ special ∈ ascii "\"\x7b\x7d[],: \t\n\r", byte ≠ special :=
    fun special member => Loose.ne free member
  simp [isDelimiter, isSpace, other 44 (by decide), other 125 (by decide), other 93 (by decide),
    other 58 (by decide), other 32 (by decide), other 9 (by decide), other 10 (by decide),
    other 13 (by decide)]

/-- A value starts with a byte that ends nothing. -/
theorem value_head (value : Value loose text) :
    ∃ byte rest, text = byte :: rest ∧ isDelimiter byte = false := by
  cases value with
  | scalar scalar =>
    obtain ⟨nonempty, free⟩ := scalar
    obtain ⟨byte, rest, rfl⟩ := List.exists_cons_of_ne_nil nonempty
    exact ⟨byte, rest, rfl, Loose.inner (free byte (by simp))⟩
  | string content => exact ⟨34, _, rfl, by decide⟩
  | array blank elements => exact ⟨91, _, rfl, by decide⟩
  | object blank members => exact ⟨123, _, rfl, by decide⟩

theorem skipSpace_value {text : Bytes} {index : Nat} (blank : Blank space) (value : Value loose piece)
    (here : text.drop index = space ++ (piece ++ rest)) :
    skipSpace text index = .ok (index + space.length) := by
  obtain ⟨byte, tail, rfl, starts⟩ := value_head value
  refine skipSpace_blank blank here ?_
  by_contra blankByte
  simp [isDelimiter, Bool.eq_true_of_not_eq_false blankByte] at starts

section Ends

variable {text piece rest : Bytes} {index : Nat}

theorem skipValue_scalar_exact (scalar : loose.scalar piece)
    (here : text.drop index = piece ++ rest) (follows : Follows rest) :
    skipValue text index = .ok (some (index + piece.length)) := by
  obtain ⟨nonempty, free⟩ := scalar
  have all : ∀ byte ∈ piece, (!isDelimiter byte) = true :=
    fun byte member => by simp [Loose.inner (free byte member)]
  have stop : rest.takeWhile (fun byte => !isDelimiter byte) = [] := by
    cases rest with
    | nil => rfl
    | cons byte rest => simp [follows byte (by simp)]
  have width : (piece ++ rest).takeWhile (fun byte => !isDelimiter byte) = piece := by
    rw [List.takeWhile_append_of_pos all, stop, List.append_nil]
  obtain ⟨byte, tail, rfl⟩ := List.exists_cons_of_ne_nil nonempty
  have first : Loose byte := free byte (by simp)
  rw [skipValue_scalar here ⟨Loose.ne first (by decide), Loose.ne first (by decide),
    Loose.ne first (by decide)⟩ (Loose.inner first)]
  exact congrArg (fun found : Bytes => Except.ok (some (index + found.length))) width

theorem skipString_exact (content : Skipped piece) (here : text.drop index = quoted piece ++ rest) :
    skipString text index = .ok (some (index + (quoted piece).length)) := by
  have split : text.drop index = 34 :: (piece ++ 34 :: rest) := by simpa [quoted] using here
  rw [skipString_eq split, stringEnd_skipped content]
  simp [quoted, Nat.add_assoc, Nat.add_comm]

theorem skipValue_bracket_exact (transparent : Transparent piece) (opens : first = 123 ∨ first = 91)
    (closes : last = 125 ∨ last = 93) (here : text.drop index = first :: piece ++ [last] ++ rest) :
    skipValue text index = .ok (some (index + (first :: piece ++ [last]).length)) := by
  have found := nestedEnd_bracket transparent opens closes 0 (by omega) rest
  rw [skipValue_nested here opens]
  rw [if_pos rfl] at found
  refine (congrArg (fun found : Option Nat => Except.ok (found.map (index + ·))) found).trans ?_
  simp

/-- The end found for a value is just past it. -/
theorem skipValue_exact (value : Value loose piece) (here : text.drop index = piece ++ rest)
    (follows : Follows rest) : skipValue text index = .ok (some (index + piece.length)) := by
  cases value with
  | scalar scalar => exact skipValue_scalar_exact scalar here follows
  | string content =>
    rw [skipValue_string (by simpa [quoted] using here), ← skipString_eq (by simpa [quoted] using here)]
    exact skipString_exact content here
  | array blank elements blanks spaced values =>
    refine skipValue_bracket_exact (.elements blanks spaced ?_) (.inr rfl) (.inr rfl) here
    exact fun element inside => transparent_of_value (values element inside)
  | object blank members blanks spaced values =>
    refine skipValue_bracket_exact (.members blanks spaced ?_) (.inl rfl) (.inl rfl) here
    exact fun member inside => transparent_of_value (values member inside)

end Ends

end Values

end NodexProxy.Jsonscan
