import Mathlib

/-! Byte strings and the finite maps keyed by them. -/

namespace NodexProxy.Foundation

/-- A string or buffer as the machine sees it: bytes, not necessarily UTF-8. -/
abbrev Bytes := List UInt8

/-- The bytes of an ASCII literal. -/
def ascii (text : String) : Bytes := text.toList.map fun char => UInt8.ofNat char.toNat

/-- Decimal digits, most significant first. -/
def decimal (number : Nat) : Bytes :=
  if number = 0 then ascii "0"
  else (Nat.digits 10 number).reverse.map fun digit => UInt8.ofNat (48 + digit)

/-- `strconv.Itoa`. -/
def itoa (number : Int) : Bytes :=
  if number < 0 then ascii "-" ++ decimal number.natAbs else decimal number.natAbs

/-- The UTF-8 encodings of the runes `unicode.IsSpace` accepts. -/
def spaces : List Bytes :=
  [[9], [10], [11], [12], [13], [32], [0xC2, 0x85], [0xC2, 0xA0], [0xE1, 0x9A, 0x80]] ++
    (List.range 11).map (fun offset => [0xE2, 0x80, 0x80 + UInt8.ofNat offset]) ++
    [[0xE2, 0x80, 0xA8], [0xE2, 0x80, 0xA9], [0xE2, 0x80, 0xAF], [0xE2, 0x81, 0x9F],
      [0xE3, 0x80, 0x80]]

/-- Drop tokens from the front, at most `fuel` of them. -/
def trimTokens (tokens : List Bytes) : Nat → Bytes → Bytes
  | 0, text => text
  | fuel + 1, text =>
    match tokens.find? (· <+: text) with
    | none => text
    | some token => trimTokens tokens fuel (text.drop token.length)

/-- `strings.TrimSpace`. No encoding in `spaces` is empty, so the length is fuel enough. -/
def trimSpace (text : Bytes) : Bytes :=
  let front := trimTokens spaces text.length text
  (trimTokens (spaces.map List.reverse) front.length front.reverse).reverse

/-- `strings.Trim` with a cutset of one byte. -/
def trimByte (byte : UInt8) (text : Bytes) : Bytes :=
  (text.dropWhile (· == byte)).rdropWhile (· == byte)

/-- A finite map with one entry for each key. -/
abbrev Assoc (Key Value : Type) := AList fun _ : Key => Value

section Assoc

variable {Key Value : Type} [DecidableEq Key]

theorem Assoc.lookup_insert_eq (map : Assoc Key Value) (key other : Key) (value : Value) :
    (map.insert key value).lookup other = if other = key then some value else map.lookup other := by
  by_cases same : other = key
  · subst other
    simp
  · simp [same]

/-- A stored value is the one just inserted, or stood under another key before. -/
theorem Assoc.lookup_insert_cases {map : Assoc Key Value} {key other : Key} {value found : Value}
    (stored : (map.insert key value).lookup other = some found) :
    (other = key ∧ found = value) ∨ (other ≠ key ∧ map.lookup other = some found) := by
  rw [Assoc.lookup_insert_eq] at stored
  split_ifs at stored with here
  · exact .inl ⟨here, (Option.some.inj stored).symm⟩
  · exact .inr ⟨here, stored⟩

theorem Assoc.lookup_erase_eq (map : Assoc Key Value) (key other : Key) :
    (map.erase key).lookup other = if other = key then none else map.lookup other := by
  by_cases same : other = key
  · subst other
    simp
  · simp [same]

/-- One entry of one map of a family is set. -/
theorem Assoc.lookup_insert_of_family {Index : Type} [DecidableEq Index]
    (maps : Index → Assoc Key Value) (index other : Index) (key asked : Key) (value : Value) :
    (if other = index then (maps index).insert key value else maps other).lookup asked =
      if other = index ∧ asked = key then some value else (maps other).lookup asked := by
  by_cases same : other = index
  · subst other
    simp [Assoc.lookup_insert_eq]
  · simp [same]

end Assoc

theorem Assoc.nodup_fst {Key Value : Type} (map : Assoc Key Value) :
    ((map.entries.map fun entry => (entry.1, entry.2)).map Prod.fst).Nodup := by
  simpa [List.NodupKeys, List.keys, List.map_map, Function.comp_def] using map.nodupKeys

section Separator

variable {Item : Type} {separator : Item}

/-- The segment before the first separator is determined. -/
theorem segment_unique {first second : List Item} (absent₁ : separator ∉ first)
    (absent₂ : separator ∉ second) (occurs : first ++ [separator] <+: second ++ separator :: rest) :
    first = second := by
  induction first generalizing second with
  | nil =>
    cases second with
    | nil => rfl
    | cons head tail =>
      have same : separator = head := by simpa using occurs
      simp [same] at absent₂
  | cons item first ih =>
    cases second with
    | nil =>
      have same : item = separator := by
        have := List.cons_prefix_cons.mp (by simpa using occurs)
        exact this.1
      simp [same] at absent₁
    | cons head tail =>
      obtain ⟨same, occurs⟩ := List.cons_prefix_cons.mp (by simpa using occurs)
      subst head
      simp only [List.mem_cons, not_or] at absent₁ absent₂
      rw [ih absent₁.2 absent₂.2 (by simpa using occurs)]

/-- A marker that ends in the separator cannot reach into text without one. -/
theorem infix_of_infix_append (marker : List Item) {first second : List Item}
    (absent : separator ∉ second)
    (occurs : marker ++ [separator] <:+: first ++ second) : marker ++ [separator] <:+: first := by
  obtain ⟨before, after, same⟩ := occurs
  rcases List.append_eq_append_iff.mp same with ⟨middle, inside, _⟩ | ⟨middle, inside, outside⟩
  · exact ⟨before, middle, inside.symm⟩
  · rcases List.eq_nil_or_concat middle with empty | ⟨initial, last, parts⟩
    · subst middle
      exact ⟨before, [], by simpa using inside⟩
    · subst middle
      have tail : before ++ marker ++ [separator] = first ++ initial ++ [last] := by
        simpa using inside
      have same := (List.append_inj' tail rfl).2
      simp only [List.cons.injEq, and_true] at same
      subst last
      simp [outside] at absent

section Trimming

variable [DecidableEq Item]

/-- Trimming at the front stops at text without the separator. -/
theorem dropWhile_append_of_absent {front : List Item} (nonempty : front ≠ [])
    (absent : separator ∉ front) (rest : List Item) :
    (front ++ rest).dropWhile (· == separator) = front ++ rest := by
  cases front with
  | nil => exact absurd rfl nonempty
  | cons item front =>
    have other : item ≠ separator := ne_of_mem_of_not_mem (by simp) absent
    exact List.dropWhile_cons_of_neg (by simpa using other)

/-- Trimming at the back stops at text that does not end in the separator. -/
theorem rdropWhile_append_of_bare {back : List Item} (front : List Item) (nonempty : back ≠ [])
    (bare : ¬ [separator] <:+ back) :
    (front ++ back).rdropWhile (· == separator) = front ++ back := by
  rw [List.rdropWhile_eq_self_iff]
  intro _ last
  rw [List.getLast_append_of_ne_nil _ nonempty, beq_iff_eq] at last
  exact bare ⟨back.dropLast, by rw [← last, List.dropLast_append_getLast]⟩

theorem map_replace_of_absent {items : List Item} (absent : separator ∉ items) (other : Item) :
    items.map (fun item => if item = separator then other else item) = items := by
  have same : items.map (fun item => if item = separator then other else item) = items.map id :=
    List.map_congr_left fun item member => if_neg (ne_of_mem_of_not_mem member absent)
  rw [same, List.map_id]

end Trimming

end Separator

theorem decimal_digits (number : Nat) (member : byte ∈ decimal number) : 48 ≤ byte ∧ byte ≤ 57 := by
  unfold decimal at member
  split at member
  · have same : byte = 48 := by simpa [ascii] using member
    subst byte
    decide
  · obtain ⟨digit, present, rfl⟩ := List.mem_map.mp member
    have small := Nat.digits_lt_base (by omega) (List.mem_reverse.mp present)
    interval_cases digit <;> decide

theorem decimal_ne_nil (number : Nat) : decimal number ≠ [] := by
  unfold decimal
  split
  · decide
  · rename_i positive
    simpa [Nat.digits_eq_nil_iff_eq_zero] using positive

end NodexProxy.Foundation
