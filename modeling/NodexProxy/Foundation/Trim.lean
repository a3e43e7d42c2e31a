import NodexProxy.Foundation.Bytes

/-! What trimming leaves: text with no token at either end. -/

namespace NodexProxy.Foundation

/-- No token starts the text. -/
def Clean (tokens : List Bytes) (text : Bytes) : Prop := ∀ token ∈ tokens, ¬ token <+: text

section Tokens

variable {tokens : List Bytes} {text : Bytes} {fuel : Nat}

theorem trimTokens_suffix (tokens : List Bytes) (fuel : Nat) (text : Bytes) :
    trimTokens tokens fuel text <:+ text := by
  induction fuel generalizing text with
  | zero => exact List.suffix_refl text
  | succ fuel inductionHypothesis =>
    simp only [trimTokens]
    split
    · exact List.suffix_refl text
    · exact (inductionHypothesis _).trans (List.drop_suffix _ text)

theorem trimTokens_of_clean (clean : Clean tokens text) (fuel : Nat) :
    trimTokens tokens fuel text = text := by
  cases fuel with
  | zero => rfl
  | succ fuel =>
    have none : tokens.find? (· <+: text) = none :=
      List.find?_eq_none.mpr fun token member => by simpa using clean token member
    simp only [trimTokens, none]

/-- With fuel for every byte, all leading tokens go. -/
theorem clean_trimTokens (nonempty : [] ∉ tokens) (enough : text.length ≤ fuel) :
    Clean tokens (trimTokens tokens fuel text) := by
  induction fuel generalizing text with
  | zero =>
    intro token member occurs
    have empty : text = [] := List.length_eq_zero_iff.mp (Nat.le_zero.mp enough)
    subst text
    exact nonempty (List.prefix_nil.mp occurs ▸ member)
  | succ fuel inductionHypothesis =>
    simp only [trimTokens]
    split
    · rename_i none
      intro token member
      simpa using List.find?_eq_none.mp none token member
    · rename_i token found
      have occurs : token <+: text := by simpa using List.find?_some found
      have positive : 0 < token.length := by
        apply List.length_pos_of_ne_nil
        rintro rfl
        exact nonempty (List.mem_of_find?_eq_some found)
      apply inductionHypothesis
      rw [List.length_drop]
      omega

end Tokens

theorem spaces_nonempty : [] ∉ spaces ∧ [] ∉ spaces.map List.reverse := by decide

/-- Text without a space at either end. -/
structure Trimmed (text : Bytes) : Prop where
  front : Clean spaces text
  back : Clean (spaces.map List.reverse) text.reverse

theorem trimmed_trimSpace (text : Bytes) : Trimmed (trimSpace text) := by
  unfold trimSpace
  constructor
  · intro token member occurs
    have front := clean_trimTokens spaces_nonempty.1 (Nat.le_refl text.length) token member
    refine front (occurs.trans ?_)
    have shorter := trimTokens_suffix (spaces.map List.reverse)
      (trimTokens spaces text.length text).length (trimTokens spaces text.length text).reverse
    simpa using List.reverse_prefix.mpr shorter
  · rw [List.reverse_reverse]
    exact clean_trimTokens spaces_nonempty.2 (by simp)

theorem trimSpace_of_trimmed {text : Bytes} (trimmed : Trimmed text) : trimSpace text = text := by
  simp only [trimSpace, trimTokens_of_clean trimmed.front, trimTokens_of_clean trimmed.back,
    List.reverse_reverse]

@[simp] theorem trimSpace_trimSpace (text : Bytes) : trimSpace (trimSpace text) = trimSpace text :=
  trimSpace_of_trimmed (trimmed_trimSpace text)

/-- Whether a byte occurs in the encoding of a space. -/
def spacing (byte : UInt8) : Bool := spaces.any fun token => token.contains byte

/-- Text of bytes that no space is made of. -/
theorem trimmed_of_solid {text : Bytes} (solid : ∀ byte ∈ text, spacing byte = false) :
    Trimmed text := by
  have apart : ∀ token ∈ spaces, ∀ byte ∈ token, byte ∉ text := by
    intro token member byte inside present
    have absent := solid byte present
    simp only [spacing, List.any_eq_false, List.contains_eq_mem, decide_eq_true_eq] at absent
    exact absent token member inside
  constructor
  · intro token member occurs
    cases token with
    | nil => exact spaces_nonempty.1 member
    | cons byte token => exact apart _ member byte (by simp) (occurs.subset (by simp))
  · intro reversed member occurs
    obtain ⟨token, original, rfl⟩ := List.mem_map.mp member
    cases token with
    | nil => exact spaces_nonempty.1 original
    | cons byte token =>
      have inside : byte ∈ text.reverse := occurs.subset (by simp)
      exact apart _ original byte (by simp) (List.mem_reverse.mp inside)

section Joined

variable {byte : UInt8} {token front rest : Bytes}

/-- A token that does not reach a byte lies before it. -/
theorem prefix_before (absent : byte ∉ token) (occurs : token <+: front ++ byte :: rest) :
    token <+: front := by
  rcases List.prefix_or_prefix_of_prefix occurs (List.prefix_append front (byte :: rest)) with
    inside | ⟨more, rfl⟩
  · exact inside
  · cases more with
    | nil => rw [List.append_nil]
    | cons first more =>
      have here := (List.prefix_append_right_inj front).mp occurs
      rw [(List.cons_prefix_cons.mp here).1] at absent
      simp at absent

theorem Clean.joined {tokens : List Bytes} (clean : Clean tokens front)
    (apart : ∀ token ∈ tokens, byte ∉ token) : Clean tokens (front ++ byte :: rest) :=
  fun token member occurs => clean token member (prefix_before (apart token member) occurs)

theorem not_mem_of_spacing (solid : spacing byte = false) : ∀ token ∈ spaces, byte ∉ token := by
  intro token member inside
  simp only [spacing, List.any_eq_false, List.contains_eq_mem, decide_eq_true_eq] at solid
  exact solid token member inside

/-- Two trimmed texts with a solid byte between them. -/
theorem Trimmed.joined {first last : Bytes} (before : Trimmed first) (after : Trimmed last)
    (solid : spacing byte = false) : Trimmed (first ++ byte :: last) := by
  have apart := not_mem_of_spacing solid
  refine ⟨before.front.joined apart, ?_⟩
  rw [List.reverse_append, List.reverse_cons, List.append_assoc]
  refine after.back.joined fun token member => ?_
  obtain ⟨source, listed, rfl⟩ := List.mem_map.mp member
  exact List.mem_reverse.not.mpr (apart source listed)

end Joined

/-- What trimming drops is made of tokens. -/
theorem trimTokens_split (tokens : List Bytes) (fuel : Nat) (text : Bytes) :
    ∃ front, text = front ++ trimTokens tokens fuel text ∧
      ∀ byte ∈ front, ∃ token ∈ tokens, byte ∈ token := by
  induction fuel generalizing text with
  | zero => exact ⟨[], rfl, by simp⟩
  | succ fuel inductionHypothesis =>
    simp only [trimTokens]
    split
    · exact ⟨[], rfl, by simp⟩
    · rename_i token found
      have occurs : token <+: text := by simpa using List.find?_some found
      obtain ⟨rest, rfl⟩ := occurs
      obtain ⟨front, split, made⟩ := inductionHypothesis ((token ++ rest).drop token.length)
      rw [List.drop_left] at split ⊢
      refine ⟨token ++ front, by rw [List.append_assoc, ← split], ?_⟩
      intro byte member
      rcases List.mem_append.mp member with inside | later
      · exact ⟨token, List.mem_of_find?_eq_some found, inside⟩
      · exact made byte later

theorem trimSpace_split (text : Bytes) :
    ∃ front back, text = front ++ (trimSpace text ++ back) ∧
      (∀ byte ∈ front, spacing byte = true) ∧ ∀ byte ∈ back, spacing byte = true := by
  have spaced (byte : UInt8) (token : Bytes) (listed : token ∈ spaces) (inside : byte ∈ token) :
      spacing byte = true := by
    simp only [spacing, List.any_eq_true, List.contains_eq_mem, decide_eq_true_eq]
    exact ⟨token, listed, inside⟩
  obtain ⟨front, split, made⟩ := trimTokens_split spaces text.length text
  let kept := trimTokens spaces text.length text
  obtain ⟨back, rest, ends⟩ :=
    trimTokens_split (spaces.map List.reverse) kept.length kept.reverse
  refine ⟨front, back.reverse, ?_, ?_, ?_⟩
  · have turned := congrArg List.reverse rest
    rw [List.reverse_reverse, List.reverse_append] at turned
    rw [trimSpace, ← turned]
    exact split
  · intro byte member
    obtain ⟨token, listed, inside⟩ := made byte member
    exact spaced byte token listed inside
  · intro byte member
    obtain ⟨turned, listed, inside⟩ := ends byte (List.mem_reverse.mp member)
    obtain ⟨token, source, rfl⟩ := List.mem_map.mp listed
    exact spaced byte token source (List.mem_reverse.mp inside)

section Infix

variable {Item : Type} {head : Item} {front rest part : List Item}

theorem infix_of_append (absent : head ∉ front) (occurs : head :: part <:+: front ++ rest) :
    head :: part <:+: rest := by
  induction front with
  | nil => exact occurs
  | cons first front inductionHypothesis =>
    obtain ⟨other, later⟩ := not_or.mp (List.mem_cons.not.mp absent)
    rcases List.infix_cons_iff.mp occurs with here | behind
    · exact absurd (List.cons_prefix_cons.mp here).1 other
    · exact inductionHypothesis later behind

end Infix

/-- Trimming keeps every occurrence of a text with no part of a space at its ends. -/
theorem infix_trimSpace {first last : UInt8} (before : spacing first = false)
    (after : spacing last = false) (part text : Bytes) :
    first :: (part ++ [last]) <:+: trimSpace text ↔ first :: (part ++ [last]) <:+: text := by
  obtain ⟨front, back, split, leading, trailing⟩ := trimSpace_split text
  constructor
  · intro occurs
    rw [split]
    exact occurs.trans ⟨front, back, by simp⟩
  · intro occurs
    rw [split] at occurs
    have behind := infix_of_append (fun member => by simp [leading first member] at before) occurs
    have turned := List.reverse_infix.mpr behind
    rw [List.reverse_append, List.reverse_cons, List.reverse_append, List.reverse_singleton,
      List.append_assoc] at turned
    have absent : last ∉ back.reverse := fun member => by
      simp [trailing last (List.mem_reverse.mp member)] at after
    have inner := infix_of_append absent turned
    apply List.reverse_infix.mp
    simpa using inner

end NodexProxy.Foundation
