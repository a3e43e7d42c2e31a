import Mathlib.Data.List.Basic

/-! Slices of shared arrays. What is written through one slice shows in every other slice of
the same array. -/

namespace NodexProxy.Foundation

structure Slice where
  array : Nat
  start : Nat
  length : Nat
deriving DecidableEq, Repr

namespace Slice

variable {Item : Type}

/-- The items from the start of a slice to the end of its array; arrays are given by address. -/
def room (slice : Slice) (arrays : List (List Item)) : List Item :=
  (arrays[slice.array]?.getD []).drop slice.start

def read (slice : Slice) (arrays : List (List Item)) : List Item :=
  (slice.room arrays).take slice.length

/-- The array is there and holds the slice. -/
structure Within (slice : Slice) (arrays : List (List Item)) : Prop where
  array : slice.array < arrays.length
  length : slice.length ≤ (slice.room arrays).length

/-- `append(slice[:0], items...)`: in place where the items fit, else in a new array. -/
def refill (slice : Slice) (arrays : List (List Item)) (items : List Item) :
    Slice × List (List Item) :=
  if items.length ≤ (slice.room arrays).length then
    ({ slice with length := items.length },
      arrays.modify slice.array fun array =>
        array.take slice.start ++ (items ++ (array.drop slice.start).drop items.length))
  else (⟨arrays.length, 0, items.length⟩, arrays ++ [items])

variable {slice view : Slice} {arrays : List (List Item)} {items : List Item}

/-- Two slices that start at the same place. -/
def Aliases (view slice : Slice) : Prop := view.array = slice.array ∧ view.start = slice.start

theorem Aliases.room_eq (aliases : view.Aliases slice) (arrays : List (List Item)) :
    view.room arrays = slice.room arrays := by
  rw [room, room, aliases.1, aliases.2]

theorem room_refill (fits : items.length ≤ (slice.room arrays).length) :
    slice.room (slice.refill arrays items).2 = items ++ (slice.room arrays).drop items.length := by
  rw [refill, if_pos fits]
  simp only [room, List.getElem?_modify_eq] at fits ⊢
  cases held : arrays[slice.array]? with
  | none =>
    rw [held] at fits
    simp_all
  | some array =>
    rw [held] at fits
    simp only [Option.getD_some] at fits ⊢
    rcases Nat.le_total slice.start array.length with inside | outside
    · exact List.drop_left' (List.length_take_of_le inside)
    · have empty : items = [] := by
        rw [List.drop_eq_nil_of_le outside, List.length_nil] at fits
        exact List.length_eq_zero_iff.mp (Nat.le_zero.mp fits)
      simp [empty, List.drop_eq_nil_of_le outside]

theorem read_refill : (slice.refill arrays items).1.read (slice.refill arrays items).2 = items := by
  by_cases fits : items.length ≤ (slice.room arrays).length
  · have aliases : (slice.refill arrays items).1.Aliases slice := by simp [refill, fits, Aliases]
    have length : (slice.refill arrays items).1.length = items.length := by simp [refill, fits]
    rw [read, aliases.room_eq, room_refill fits, length]
    simp
  · rw [refill, if_neg fits]
    simp [read, room]

/-- A view of the refilled slice sees the new items, and behind them what was there before. -/
theorem read_of_fits (aliases : view.Aliases slice)
    (fits : items.length ≤ (slice.room arrays).length) :
    view.read (slice.refill arrays items).2 =
      (items ++ (view.read arrays).drop items.length).take view.length := by
  rw [read, aliases.room_eq, room_refill fits, read, aliases.room_eq, List.drop_take,
    List.take_append, List.take_append, List.take_take, Nat.min_self]

/-- A view keeps its items when the slice moves to a new array. -/
theorem read_of_moves (within : view.Within arrays)
    (moves : (slice.room arrays).length < items.length) :
    view.read (slice.refill arrays items).2 = view.read arrays := by
  rw [refill, if_neg (Nat.not_le.mpr moves), read, read, room, room,
    List.getElem?_append_left within.array]

/-- A slice with items lies in its array; an empty one may be nil. -/
def Held (slice : Slice) (arrays : List (List Item)) : Prop :=
  slice.length ≠ 0 → slice.Within arrays

/-- Some cell of the one is a cell of the other. -/
def Shares (first second : Slice) : Prop :=
  first.array = second.array ∧ ∃ cell, first.start ≤ cell ∧ cell < first.start + first.length ∧
    second.start ≤ cell ∧ cell < second.start + second.length

instance : Decidable (view.Aliases slice) := inferInstanceAs (Decidable (_ ∧ _))

/-- Slices with items that start at the same place share it. -/
theorem Aliases.shares (aliases : view.Aliases slice) (some_items : view.length ≠ 0)
    (others : slice.length ≠ 0) : view.Shares slice :=
  ⟨aliases.1, view.start, Nat.le_refl _, by omega, Nat.le_of_eq aliases.2.symm,
    by rw [aliases.2]; omega⟩

theorem read_of_empty (empty : slice.length = 0) : slice.read arrays = [] := by
  rw [read, empty, List.take_zero]

theorem Held.length_read (held : slice.Held arrays) : (slice.read arrays).length = slice.length := by
  by_cases empty : slice.length = 0
  · rw [read_of_empty empty, empty, List.length_nil]
  · exact List.length_take_of_le (held empty).length

theorem Held.read_eq_nil (held : slice.Held arrays) : slice.read arrays = [] ↔ slice.length = 0 := by
  rw [← List.length_eq_zero_iff, held.length_read]

section Growth

variable {larger : List (List Item)}

theorem room_of_grows (inside : slice.array < arrays.length) (grows : arrays <+: larger) :
    slice.room larger = slice.room arrays := by
  obtain ⟨rest, rfl⟩ := grows
  rw [room, room, List.getElem?_append_left inside]

theorem Held.of_grows (held : slice.Held arrays) (grows : arrays <+: larger) :
    slice.Held larger := by
  intro items
  obtain ⟨inside, fits⟩ := held items
  exact ⟨Nat.lt_of_lt_of_le inside grows.length_le, by rwa [room_of_grows inside grows]⟩

/-- New arrays change nothing for the slices of the old ones. -/
theorem Held.read_of_grows (held : slice.Held arrays) (grows : arrays <+: larger) :
    slice.read larger = slice.read arrays := by
  by_cases empty : slice.length = 0
  · rw [read_of_empty empty, read_of_empty empty]
  · rw [read, read, room_of_grows (held empty).array grows]

theorem room_refill_of_apart (inside : view.array < arrays.length)
    (apart : view.array ≠ slice.array) (items : List Item) :
    view.room (slice.refill arrays items).2 = view.room arrays := by
  unfold refill
  split_ifs
  · simp [room, Ne.symm apart]
  · exact room_of_grows inside (List.prefix_append _ _)

theorem length_le_refill (items : List Item) :
    arrays.length ≤ (slice.refill arrays items).2.length := by
  unfold refill
  split_ifs <;> simp

theorem refill_inside (inside : slice.array < arrays.length) (items : List Item) :
    (slice.refill arrays items).1.array < (slice.refill arrays items).2.length := by
  unfold refill
  split_ifs
  · simpa using inside
  · simp

/-- Refilling a slice shows only in its own array. -/
theorem Held.refill_of_apart (held : view.Held arrays)
    (apart : view.length ≠ 0 → view.array ≠ slice.array) (items : List Item) :
    view.Held (slice.refill arrays items).2 ∧
      view.read (slice.refill arrays items).2 = view.read arrays := by
  by_cases empty : view.length = 0
  · exact ⟨fun present => absurd empty present, by rw [read_of_empty empty, read_of_empty empty]⟩
  · obtain ⟨inside, fits⟩ := held empty
    have same := room_refill_of_apart inside (apart empty) items
    refine ⟨fun _ => ⟨Nat.lt_of_lt_of_le inside (length_le_refill items), by rwa [same]⟩, ?_⟩
    rw [read, read, same]

end Growth

section Parts

/-- `slice[low:high]`. -/
def cut (slice : Slice) (low high : Nat) : Slice := ⟨slice.array, slice.start + low, high - low⟩

theorem read_cut {low high : Nat} (inside : high ≤ slice.length) :
    (slice.cut low high).read arrays = ((slice.read arrays).drop low).take (high - low) := by
  rw [read, read, cut, room, room, List.drop_take, List.take_take, List.drop_drop,
    Nat.min_eq_left (by omega)]

theorem Within.cut (within : slice.Within arrays) {low high : Nat} (inside : high ≤ slice.length) :
    (slice.cut low high).Held arrays := by
  intro present
  have fits := within.length
  refine ⟨within.array, ?_⟩
  simp only [room, Slice.cut, List.length_drop] at fits present ⊢
  omega

/-- A copy in an array of its own. -/
def copy (arrays : List (List Item)) (items : List Item) : Slice × List (List Item) :=
  (⟨arrays.length, 0, items.length⟩, arrays ++ [items])

theorem copy_grows : arrays <+: (copy arrays items).2 := List.prefix_append _ _

/-- A slice of items in an array that was not there before. -/
structure Fresh (arrays larger : List (List Item)) (slice : Slice) (items : List Item) : Prop where
  reads : slice.read larger = items
  held : slice.Held larger
  apart : arrays.length ≤ slice.array

theorem copy_fresh : Fresh arrays (copy arrays items).2 (copy arrays items).1 items where
  reads := by simp [copy, read, room]
  held _ := ⟨by simp [copy], by simp [copy, room]⟩
  apart := Nat.le_refl _

variable {middle larger : List (List Item)}

theorem Fresh.of_grows (fresh : Fresh arrays middle slice items) (grows : middle <+: larger) :
    Fresh arrays larger slice items where
  reads := (fresh.held.read_of_grows grows).trans fresh.reads
  held := fresh.held.of_grows grows
  apart := fresh.apart

theorem Fresh.of_start (fresh : Fresh middle larger slice items) (grows : arrays <+: middle) :
    Fresh arrays larger slice items where
  reads := fresh.reads
  held := fresh.held
  apart := Nat.le_trans grows.length_le fresh.apart

end Parts

end Slice

end NodexProxy.Foundation
