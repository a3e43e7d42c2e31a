import Mathlib

/-! Choosing an index by weight. A target falls into the interval that starts at the sum of the
weights before an index and is as long as the weight at it. -/

namespace NodexProxy.Foundation

/-- The first index whose running sum passes the target. -/
def choose (target : Int) : Int → List Int → Option Nat
  | _, [] => none
  | current, weight :: rest =>
    if current + weight > target then some 0
    else (choose target (current + weight) rest).map (· + 1)

section Choose

variable {weights : List Int} {target current : Int} {index : Nat}

theorem lt_length_of_choose (chosen : choose target current weights = some index) :
    index < weights.length := by
  induction weights generalizing current index with
  | nil => cases chosen
  | cons head rest inductionHypothesis =>
    unfold choose at chosen
    split_ifs at chosen
    · cases chosen
      exact Nat.zero_lt_succ _
    · obtain ⟨later, found, rfl⟩ := Option.map_eq_some_iff.mp chosen
      exact Nat.succ_lt_succ (inductionHypothesis found)

theorem choose_eq_some_iff (nonneg : ∀ weight ∈ weights, 0 ≤ weight) (reached : current ≤ target) :
    choose target current weights = some index ↔
      ∃ weight, weights[index]? = some weight ∧ current + (weights.take index).sum ≤ target ∧
        target < current + (weights.take index).sum + weight := by
  induction weights generalizing current index with
  | nil => simp [choose]
  | cons head rest inductionHypothesis =>
    have tail : ∀ weight ∈ rest, 0 ≤ weight := fun weight member => nonneg weight (by simp [member])
    unfold choose
    split_ifs with passes
    · cases index with
      | zero => simpa using ⟨reached, passes⟩
      | succ index =>
        -- the sum before a later index is at least the head's weight
        have before : 0 ≤ (rest.take index).sum :=
          List.sum_nonneg fun weight member => tail weight (List.mem_of_mem_take member)
        refine iff_of_false (by simp) ?_
        rintro ⟨weight, _, low, _⟩
        rw [List.take_succ_cons, List.sum_cons] at low
        omega
    · cases index with
      | zero =>
        refine iff_of_false (by simp) ?_
        rintro ⟨weight, found, _, high⟩
        simp only [List.getElem?_cons_zero, Option.some.injEq, List.take_zero, List.sum_nil] at found high
        omega
      | succ index =>
        have later := @inductionHypothesis (current + head) index tail (not_lt.mp passes)
        simp only [Option.map_eq_some_iff, Nat.add_right_cancel_iff, exists_eq_right, later,
          List.getElem?_cons_succ, List.take_succ_cons, List.sum_cons, add_assoc]

/-- A target below the total is always reached. -/
theorem choose_isSome (reached : current ≤ target) (below : target < current + weights.sum) :
    (choose target current weights).isSome := by
  induction weights generalizing current with
  | nil =>
    rw [List.sum_nil] at below
    omega
  | cons head rest inductionHypothesis =>
    unfold choose
    split_ifs with passes
    · rfl
    · rw [List.sum_cons, ← add_assoc] at below
      rw [Option.isSome_map]
      exact inductionHypothesis (not_lt.mp passes) below

/-- As many targets below the total choose an index as its weight says. -/
theorem card_choose (nonneg : ∀ weight ∈ weights, 0 ≤ weight) {weight : Int}
    (here : weights[index]? = some weight) :
    (((Finset.range weights.sum.toNat).filter fun target : Nat =>
      choose target 0 weights = some index).card : Int) = weight := by
  have weight_nonneg : 0 ≤ weight := nonneg weight (List.mem_of_getElem? here)
  have before : 0 ≤ (weights.take index).sum :=
    List.sum_nonneg fun weight member => nonneg weight (List.mem_of_mem_take member)
  have behind : 0 ≤ (weights.drop (index + 1)).sum :=
    List.sum_nonneg fun weight member => nonneg weight (List.mem_of_mem_drop member)
  have total : weights.sum = (weights.take index).sum + weight + (weights.drop (index + 1)).sum := by
    obtain ⟨inside, same⟩ := List.getElem?_eq_some_iff.mp here
    rw [← List.sum_take_add_sum_drop weights index, List.drop_eq_getElem_cons inside, same,
      List.sum_cons, add_assoc]
  have interval : ((Finset.range weights.sum.toNat).filter fun target : Nat =>
      choose target 0 weights = some index) =
      Finset.Ico (weights.take index).sum.toNat ((weights.take index).sum + weight).toNat := by
    ext target
    rw [Finset.mem_filter, Finset.mem_range, Finset.mem_Ico,
      choose_eq_some_iff nonneg (Int.natCast_nonneg target)]
    simp only [here, Option.some.injEq, exists_eq_left', zero_add]
    omega
  rw [interval, Nat.card_Ico]
  omega

end Choose

end NodexProxy.Foundation
