import Mathlib

/-! A cell that follows a log. An entry of the log may say what the cell holds from then on, and
the last one that does decides. -/

namespace NodexProxy.Foundation

variable {Entry Item Value : Type}

/-- What the last entry that speaks of the cell says, or what it held at the start. -/
def settled (tells : Entry → Option Value) (start : Value) (log : List Entry) : Value :=
  (log.reverse.findSome? tells).getD start

variable {tells : Entry → Option Value} {start : Value}

@[simp] theorem settled_nil : settled tells start [] = start := rfl

@[simp] theorem settled_snoc (log : List Entry) (entry : Entry) :
    settled tells start (log ++ [entry]) = (tells entry).getD (settled tells start log) := by
  cases said : tells entry <;> simp [settled, said]

/-- Entries that say nothing can be left out. -/
theorem settled_filter {log : List Entry} {keep : Entry → Bool}
    (kept : ∀ entry ∈ log, (tells entry).isSome → keep entry = true) :
    settled tells start (log.filter keep) = settled tells start log := by
  induction log using List.reverseRecOn with
  | nil => rfl
  | append_singleton log entry inductionHypothesis =>
    have before := inductionHypothesis fun other member =>
      kept other (List.mem_append_left _ member)
    rw [List.filter_append, settled_snoc, ← before]
    cases keeps : keep entry with
    | true => simp [keeps]
    | false =>
      have silent : tells entry = none := by
        by_contra speaks
        have contradiction := kept entry (by simp) (Option.isSome_iff_ne_none.mpr speaks)
        rw [keeps] at contradiction
        cases contradiction
      simp [keeps, silent]

/-- Where one mark tells which entries speak, the last marked one decides. -/
theorem settled_map {items : List Item} {entryOf : Item → Entry} {marked : Item → Bool}
    (speaks : ∀ item ∈ items, (tells (entryOf item)).isSome ↔ marked item = true) :
    settled tells start (items.map entryOf) =
      ((items.reverse.find? marked).bind fun item => tells (entryOf item)).getD start := by
  induction items using List.reverseRecOn with
  | nil => rfl
  | append_singleton items item inductionHypothesis =>
    have before := inductionHypothesis fun other member =>
      speaks other (List.mem_append_left _ member)
    have last := speaks item (by simp)
    rw [List.map_append, List.map_singleton, settled_snoc, before, List.reverse_append,
      List.reverse_singleton, List.singleton_append]
    cases said : tells (entryOf item) with
    | none =>
      have unmarked : marked item = false := by
        rw [said] at last
        simpa using last
      simp [unmarked]
    | some value =>
      have here : marked item = true := last.mp (by rw [said]; rfl)
      simp [here, said]

end NodexProxy.Foundation
