import Mathlib

/-! Arithmetic on machine integers that wraps around silently. A run carries, next to the value
the machine computes, whether every operation of it gave the exact result. -/

namespace NodexProxy.Foundation

/-- An integer a signed 64-bit word can hold. -/
def Fits (number : Int) : Prop := -2 ^ 63 ≤ number ∧ number < 2 ^ 63

instance : DecidablePred Fits := fun _ => inferInstanceAs (Decidable (_ ∧ _))

theorem fits_toInt (word : Int64) : Fits word.toInt := ⟨word.le_toInt, word.toInt_lt⟩

theorem bmod_of_fits {number : Int} (fits : Fits number) : number.bmod (2 ^ 64) = number := by
  obtain ⟨low, high⟩ := fits
  apply Int.bmod_eq_of_le
  · simpa using low
  · simpa using high

theorem toInt_ofInt_of_fits {number : Int} (fits : Fits number) :
    (Int64.ofInt number).toInt = number :=
  Int64.toInt_ofInt.trans (bmod_of_fits fits)

structure Overflowing (Value : Type) where
  value : Value
  exact : Bool

namespace Overflowing

instance : Monad Overflowing where
  pure value := ⟨value, true⟩
  bind first next := ⟨(next first.value).value, first.exact && (next first.value).exact⟩

/-- A machine operation beside the integer it stands for. -/
def step (word : Int64) (number : Int) : Overflowing Int64 :=
  ⟨word, decide (word.toInt = number)⟩

def add (first second : Int64) : Overflowing Int64 :=
  step (first + second) (first.toInt + second.toInt)

def sub (first second : Int64) : Overflowing Int64 :=
  step (first - second) (first.toInt - second.toInt)

def mul (first second : Int64) : Overflowing Int64 :=
  step (first * second) (first.toInt * second.toInt)

/-- The run is exact and its value meets the postcondition. -/
def Ensures {Value : Type} (run : Overflowing Value) (post : Value → Prop) : Prop :=
  run.exact = true ∧ post run.value

section Rules

variable {Value Next : Type} {post : Next → Prop}

theorem Ensures.ret {value : Next} (holds : post value) :
    (pure value : Overflowing Next).Ensures post := ⟨rfl, holds⟩

theorem Ensures.seq {first : Overflowing Value} {next : Value → Overflowing Next}
    {middle : Value → Prop} (holds : first.Ensures middle)
    (then_ : ∀ value, middle value → (next value).Ensures post) :
    (first >>= next).Ensures post := by
  obtain ⟨exactly, met⟩ := then_ first.value holds.2
  refine ⟨?_, met⟩
  change (first.exact && (next first.value).exact) = true
  rw [holds.1, exactly]
  rfl

variable {first second : Int64}

theorem step_ensures {word : Int64} {number : Int} (same : word.toInt = number) :
    (step word number).Ensures fun word => word.toInt = number :=
  ⟨decide_eq_true same, same⟩

theorem add_ensures (fits : Fits (first.toInt + second.toInt)) :
    (add first second).Ensures fun word => word.toInt = first.toInt + second.toInt :=
  step_ensures ((Int64.toInt_add first second).trans (bmod_of_fits fits))

theorem sub_ensures (fits : Fits (first.toInt - second.toInt)) :
    (sub first second).Ensures fun word => word.toInt = first.toInt - second.toInt :=
  step_ensures ((Int64.toInt_sub first second).trans (bmod_of_fits fits))

theorem mul_ensures (fits : Fits (first.toInt * second.toInt)) :
    (mul first second).Ensures fun word => word.toInt = first.toInt * second.toInt :=
  step_ensures ((Int64.toInt_mul first second).trans (bmod_of_fits fits))

theorem add_exact_iff : (add first second).exact = true ↔ Fits (first.toInt + second.toInt) := by
  refine ⟨fun exactly => ?_, fun fits => (add_ensures fits).1⟩
  rw [← of_decide_eq_true exactly]
  exact fits_toInt _

theorem exact_of_bind {first : Overflowing Value} {next : Value → Overflowing Next}
    (exactly : (first >>= next).exact = true) :
    first.exact = true ∧ (next first.value).exact = true := by
  change (first.exact && (next first.value).exact) = true at exactly
  exact Bool.and_eq_true_iff.mp exactly

end Rules

/-- A running sum. -/
def sum : Int64 → List Int64 → Overflowing Int64
  | total, [] => pure total
  | total, word :: rest => do
    let total ← add total word
    sum total rest

/-- The sums of all initial segments, counted from a start, can be held by a word. -/
def SumsFit (start : Int) (numbers : List Int) : Prop :=
  ∀ initial, initial <+: numbers → Fits (start + initial.sum)

theorem sumsFit_cons {start number : Int} {rest : List Int} :
    SumsFit start (number :: rest) ↔ Fits start ∧ SumsFit (start + number) rest := by
  constructor
  · intro fits
    refine ⟨by simpa using fits [] List.nil_prefix, fun initial inside => ?_⟩
    rw [add_assoc, ← List.sum_cons]
    exact fits _ (List.cons_prefix_cons.mpr ⟨rfl, inside⟩)
  · rintro ⟨fits, later⟩ initial inside
    cases initial with
    | nil => simpa using fits
    | cons head tail =>
      obtain ⟨rfl, behind⟩ := List.cons_prefix_cons.mp inside
      rw [List.sum_cons, ← add_assoc]
      exact later tail behind

theorem SumsFit.start_fits {start : Int} {numbers : List Int} (fits : SumsFit start numbers) :
    Fits start := by simpa using fits [] List.nil_prefix

/-- The running sum is exact as long as every partial sum fits, and only then. -/
theorem sum_exact_iff {total : Int64} {words : List Int64} :
    (sum total words).exact = true ↔ SumsFit total.toInt (words.map Int64.toInt) := by
  induction words generalizing total with
  | nil =>
    refine iff_of_true rfl fun initial inside => ?_
    rw [List.prefix_nil.mp inside]
    simpa using fits_toInt total
  | cons word rest inductionHypothesis =>
    rw [List.map_cons, sumsFit_cons]
    constructor
    · intro exactly
      obtain ⟨added, later⟩ := exact_of_bind exactly
      refine ⟨fits_toInt total, ?_⟩
      rw [← (add_ensures (add_exact_iff.mp added)).2]
      exact inductionHypothesis.mp later
    · rintro ⟨_, later⟩
      obtain ⟨added, same⟩ := add_ensures later.start_fits
      rw [← same] at later
      change ((add total word).exact && (sum (add total word).value rest).exact) = true
      rw [added, inductionHypothesis.mpr later]
      rfl

theorem sum_ensures {total : Int64} {words : List Int64}
    (fits : SumsFit total.toInt (words.map Int64.toInt)) :
    (sum total words).Ensures fun word =>
      word.toInt = total.toInt + (words.map Int64.toInt).sum := by
  induction words generalizing total with
  | nil => exact .ret (by simp)
  | cons word rest inductionHypothesis =>
    rw [List.map_cons, sumsFit_cons] at fits
    refine .seq (add_ensures fits.2.start_fits) fun next same => ?_
    rw [List.map_cons, List.sum_cons, ← add_assoc, ← same]
    exact inductionHypothesis (same ▸ fits.2)

end Overflowing

end NodexProxy.Foundation
