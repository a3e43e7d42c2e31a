import Mathlib

/-! Code that may fault at run time: an index or a slice out of range, a nil pointer, a library
call that panics on its argument, or a loop that is still running when its fuel is used up. -/

namespace NodexProxy.Foundation

inductive Fault where
  | outOfRange
  | nilPointer
  | badArgument
  | diverges
deriving DecidableEq, Repr

abbrev Checked := Except Fault

@[simp] theorem Checked.pure_eq {Value : Type} (value : Value) :
    (pure value : Checked Value) = .ok value := rfl

@[simp] theorem Checked.ok_bind {Value Next : Type} (value : Value) (next : Value → Checked Next) :
    ((.ok value : Checked Value) >>= next) = next value := rfl

/-- A sequence that returned got past its first part. -/
theorem Checked.of_bind_ok {Value Next : Type} {first : Checked Value}
    {next : Value → Checked Next} {result : Next} (returned : first >>= next = .ok result) :
    ∃ value, first = .ok value ∧ next value = .ok result := by
  cases first with
  | error fault => cases returned
  | ok value => exact ⟨value, rfl, returned⟩

/-- A value is there, since what it is asked for is. -/
theorem Checked.exists_of_view {Value View : Type} {outcome : Checked (Option Value)}
    {view : Value → View} {seen : View} (shown : outcome.toOption.join.map view = some seen) :
    ∃ value, outcome = .ok (some value) ∧ view value = seen := by
  obtain ⟨value, found, rfl⟩ := Option.map_eq_some_iff.mp shown
  cases outcome with
  | error fault => cases found
  | ok result => exact ⟨value, congrArg Except.ok found, rfl⟩

/-- The code returns, with a value of which this holds. -/
def Checked.Returns {Value : Type} (outcome : Checked Value) (holds : Value → Prop) : Prop :=
  ∃ value, outcome = .ok value ∧ holds value

section Returns

variable {Value Next : Type} {holds : Value → Prop} {after : Next → Prop}

theorem Checked.Returns.pure {value : Value} (here : holds value) :
    Checked.Returns (Pure.pure value) holds :=
  ⟨value, rfl, here⟩

theorem Checked.Returns.bind {first : Checked Value} {next : Value → Checked Next}
    (firsts : first.Returns holds) (nexts : ∀ value, holds value → (next value).Returns after) :
    (first >>= next).Returns after := by
  obtain ⟨value, rfl, here⟩ := firsts
  exact nexts value here

theorem Checked.Returns.mono {outcome : Checked Value} {weaker : Value → Prop}
    (returns : outcome.Returns holds) (weakens : ∀ value, holds value → weaker value) :
    outcome.Returns weaker := by
  obtain ⟨value, ran, here⟩ := returns
  exact ⟨value, ran, weakens value here⟩

end Returns

section Related

variable {Value Other Next Last : Type}

/-- Both return, and their values are related, or both fault alike. -/
inductive Checked.Related (related : Value → Other → Prop) : Checked Value → Checked Other → Prop
  | ok : related value other → Related related (.ok value) (.ok other)
  | error : Related related (.error fault) (.error fault)

variable {related : Value → Other → Prop} {onward : Next → Last → Prop}

theorem Checked.Related.bind {first : Checked Value} {second : Checked Other}
    {next : Value → Checked Next} {last : Other → Checked Last}
    (firsts : Related related first second)
    (nexts : ∀ value other, related value other → Related onward (next value) (last other)) :
    Related onward (first >>= next) (second >>= last) := by
  cases firsts with
  | ok holds => exact nexts _ _ holds
  | error => exact .error

theorem Checked.Related.after {first : Checked Value} {next : Value → Checked Next}
    {last : Value → Checked Last} (nexts : ∀ value, Related onward (next value) (last value)) :
    Related onward (first >>= next) (first >>= last) := by
  cases first with
  | ok value => exact nexts value
  | error fault => exact .error

theorem Checked.Related.mono {weaker : Value → Other → Prop} {one : Checked Value}
    {other : Checked Other} (ones : Related related one other)
    (weakens : ∀ value next, related value next → weaker value next) :
    Related weaker one other := by
  cases ones with
  | ok holds => exact .ok (weakens _ _ holds)
  | error => exact .error

/-- Two that are related to a third are related to each other. -/
theorem Checked.Related.join {Third : Type} {second : Value → Third → Prop}
    {first : Other → Third → Prop} {one : Checked Value} {other : Checked Other}
    {third : Checked Third} (ones : Related second one third) (others : Related first other third)
    (joins : ∀ value next last, second value last → first next last → related value next) :
    Related related one other := by
  cases ones with
  | error =>
    cases others
    exact .error
  | ok holds =>
    cases others with
    | ok also => exact .ok (joins _ _ _ holds also)

end Related

section Access

variable {Item : Type}

/-- `items[index]`. -/
def read (items : List Item) (index : Nat) : Checked Item :=
  match items[index]? with
  | some item => .ok item
  | none => .error .outOfRange

/-- `items[low:high]`. -/
def slice (items : List Item) (low high : Nat) : Checked (List Item) :=
  if low ≤ high ∧ high ≤ items.length then .ok ((items.drop low).take (high - low))
  else .error .outOfRange

/-- `*pointer`. -/
def deref (pointer : Option Item) : Checked Item :=
  match pointer with
  | some item => .ok item
  | none => .error .nilPointer

variable {items : List Item} {index : Nat}

theorem read_of_drop (here : items.drop index = item :: rest) : read items index = .ok item := by
  have found : items[index]? = some item := by
    rw [← List.head?_drop, here]
    rfl
  rw [read, found]

theorem read_returns (inside : index < items.length) :
    (read items index).Returns fun item => items[index]? = some item := by
  rw [read, List.getElem?_eq_getElem inside]
  exact ⟨_, rfl, rfl⟩

theorem slice_returns (ordered : low ≤ high) (inside : high ≤ items.length) :
    (slice items low high).Returns fun cut => cut = (items.drop low).take (high - low) :=
  ⟨_, if_pos ⟨ordered, inside⟩, rfl⟩

/-- What a cut contains stands at a position inside its bounds. -/
theorem mem_cut {low high : Nat} :
    item ∈ (items.drop low).take (high - low) ↔
      ∃ position, low ≤ position ∧ position < high ∧ items[position]? = some item := by
  rw [List.mem_iff_getElem?]
  constructor
  · rintro ⟨offset, here⟩
    rw [List.getElem?_take, List.getElem?_drop] at here
    obtain ⟨inside, here⟩ := Option.ite_none_right_eq_some.mp here
    exact ⟨low + offset, by omega, by omega, here⟩
  · rintro ⟨position, above, below, here⟩
    refine ⟨position - low, ?_⟩
    rw [List.getElem?_take_of_lt (by omega), List.getElem?_drop, Nat.add_sub_cancel' above]
    exact here

theorem slice_of_drop (here : items.drop low = text ++ rest) (width : low + text.length = high)
    (inside : low ≤ items.length) : slice items low high = .ok text := by
  have length := congrArg List.length here
  simp only [List.length_drop, List.length_append] at length
  rw [slice, if_pos (by omega), here, show high - low = text.length by omega, List.take_left]

theorem drop_succ_of_drop (here : items.drop index = item :: rest) :
    items.drop (index + 1) = rest := by
  rw [← List.drop_drop, here, List.drop_one, List.tail_cons]

theorem drop_add_of_drop {text : List Item} (here : items.drop index = text ++ rest) :
    items.drop (index + text.length) = rest := by
  rw [← List.drop_drop, here, List.drop_left]

theorem end_of_drop {text : List Item} (here : items.drop index = text ++ rest)
    (inside : index ≤ items.length) : index + text.length = items.length - rest.length := by
  have length := congrArg List.length here
  simp only [List.length_drop, List.length_append] at length
  omega

/-- The first occurrence splits the list. -/
theorem idxOf?_split [DecidableEq Item] {items : List Item}
    (found : items.idxOf? item = some offset) :
    ∃ first rest, items = first ++ item :: rest ∧ item ∉ first ∧ first.length = offset := by
  induction items generalizing offset with
  | nil => cases found
  | cons head items ih =>
    rw [List.idxOf?_cons] at found
    by_cases same : head = item
    · subst head
      simp only [beq_self_eq_true, if_true, Option.some.injEq] at found
      exact ⟨[], items, rfl, by simp, by simpa using found⟩
    · rw [if_neg (by simpa using same)] at found
      obtain ⟨inner, later, rfl⟩ := Option.map_eq_some_iff.mp found
      obtain ⟨first, rest, rfl, free, width⟩ := ih later
      exact ⟨head :: first, rest, rfl, by simp [Ne.symm same, free], by simp [width]⟩

theorem lt_length_of_drop (here : items.drop index = item :: rest) : index < items.length := by
  by_contra beyond
  rw [List.drop_eq_nil_of_le (by omega)] at here
  cases here

end Access

end NodexProxy.Foundation
