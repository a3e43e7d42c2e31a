import NodexProxy.Foundation.Bytes

/-! Maps with a fallback, kept as a list of the entries that differ from it. -/

namespace NodexProxy.Foundation

variable {Key Value : Type} [DecidableEq Key]

/-- The value of a key: that of its first entry, or the fallback. -/
def valueOf (fallback : Value) (entries : List (Key × Value)) (key : Key) : Value :=
  ((entries.find? fun entry => entry.1 = key).map Prod.snd).getD fallback

/-- Overwrite the first entry of the key, or append one. -/
def putEntry (key : Key) (value : Value) : List (Key × Value) → List (Key × Value)
  | [] => [(key, value)]
  | entry :: rest => if entry.1 = key then (key, value) :: rest else entry :: putEntry key value rest

/-- Set the value of a key. The fallback is not stored. -/
def assign [DecidableEq Value] (fallback : Value) (key : Key) (value : Value)
    (entries : List (Key × Value)) : List (Key × Value) :=
  if value = fallback then entries.eraseP fun entry => entry.1 = key else putEntry key value entries

section Entries

variable {fallback value : Value} {key other : Key} {entries : List (Key × Value)}

@[simp] theorem valueOf_nil : valueOf fallback ([] : List (Key × Value)) key = fallback := rfl

theorem valueOf_cons (entry : Key × Value) :
    valueOf fallback (entry :: entries) key =
      if entry.1 = key then entry.2 else valueOf fallback entries key := by
  by_cases same : entry.1 = key <;> simp [valueOf, same]

theorem valueOf_of_not_mem (absent : key ∉ entries.map Prod.fst) :
    valueOf fallback entries key = fallback := by
  induction entries with
  | nil => rfl
  | cons entry rest inductionHypothesis =>
    rw [List.map_cons, List.mem_cons, not_or] at absent
    rw [valueOf_cons, if_neg (Ne.symm absent.1)]
    exact inductionHypothesis absent.2

theorem valueOf_filter :
    valueOf fallback (entries.filter fun entry => entry.1 ≠ other) key =
      if other = key then fallback else valueOf fallback entries key := by
  induction entries with
  | nil => simp
  | cons entry rest inductionHypothesis =>
    by_cases dropped : entry.1 = other
    · rw [List.filter_cons_of_neg (by simpa using dropped), inductionHypothesis, valueOf_cons,
        dropped]
      split <;> rfl
    · rw [List.filter_cons_of_pos (by simpa using dropped), valueOf_cons, valueOf_cons,
        inductionHypothesis]
      by_cases same : other = key
      · simp [← same, dropped]
      · simp [same]

theorem valueOf_putEntry :
    valueOf fallback (putEntry key value entries) other =
      if other = key then value else valueOf fallback entries other := by
  induction entries with
  | nil =>
    rw [putEntry, valueOf_cons]
    simp only [eq_comm, valueOf_nil]
  | cons entry rest inductionHypothesis =>
    rw [putEntry]
    by_cases same : entry.1 = key
    · rw [if_pos same, valueOf_cons, valueOf_cons, same]
      by_cases here : other = key
      · simp [here]
      · simp [here, Ne.symm here]
    · rw [if_neg same, valueOf_cons, valueOf_cons, inductionHypothesis]
      by_cases here : other = key
      · simp [here, same]
      · simp [here]

theorem valueOf_eraseP (distinct : (entries.map Prod.fst).Nodup) :
    valueOf fallback (entries.eraseP fun entry => entry.1 = key) other =
      if other = key then fallback else valueOf fallback entries other := by
  induction entries with
  | nil => simp
  | cons entry rest inductionHypothesis =>
    rw [List.map_cons, List.nodup_cons] at distinct
    by_cases same : entry.1 = key
    · rw [List.eraseP_cons_of_pos (by simpa using same), valueOf_cons, same]
      by_cases here : other = key
      · rw [if_pos here, here]
        exact valueOf_of_not_mem (same ▸ distinct.1)
      · rw [if_neg here, if_neg (Ne.symm here)]
    · rw [List.eraseP_cons_of_neg (by simpa using same), valueOf_cons, valueOf_cons,
        inductionHypothesis distinct.2]
      by_cases here : other = key
      · simp [here, same]
      · simp [here]

theorem eraseP_absent (distinct : (entries.map Prod.fst).Nodup) :
    key ∉ (entries.eraseP fun entry => entry.1 = key).map Prod.fst := by
  induction entries with
  | nil => simp
  | cons entry rest inductionHypothesis =>
    rw [List.map_cons, List.nodup_cons] at distinct
    by_cases same : entry.1 = key
    · rw [List.eraseP_cons_of_pos (by simpa using same), ← same]
      exact distinct.1
    · rw [List.eraseP_cons_of_neg (by simpa using same), List.map_cons, List.mem_cons, not_or]
      exact ⟨Ne.symm same, inductionHypothesis distinct.2⟩

theorem keys_putEntry (key : Key) (value : Value) (entries : List (Key × Value)) :
    (putEntry key value entries).map Prod.fst =
      if key ∈ entries.map Prod.fst then entries.map Prod.fst else entries.map Prod.fst ++ [key] := by
  induction entries with
  | nil => simp [putEntry]
  | cons entry rest inductionHypothesis =>
    rw [putEntry]
    by_cases same : entry.1 = key
    · simp [same]
    · simp only [same, if_false, List.map_cons, inductionHypothesis, List.mem_cons, Ne.symm same,
        false_or]
      split <;> simp

theorem mem_putEntry {entry : Key × Value} (member : entry ∈ putEntry key value entries) :
    entry = (key, value) ∨ entry ∈ entries := by
  induction entries with
  | nil => exact .inl (List.mem_singleton.mp member)
  | cons first rest inductionHypothesis =>
    rw [putEntry] at member
    split at member
    · rcases List.mem_cons.mp member with here | later
      · exact .inl here
      · exact .inr (List.mem_cons_of_mem _ later)
    · rcases List.mem_cons.mp member with here | later
      · exact .inr (here ▸ List.mem_cons_self ..)
      · exact (inductionHypothesis later).imp_right (List.mem_cons_of_mem _)

/-- Read into a table, where a later entry replaces an earlier one, distinct entries keep their
values. -/
theorem lookup_foldl_insert (distinct : (entries.map Prod.fst).Nodup) (table : Assoc Key Value) :
    ((entries.foldl (fun table entry => table.insert entry.1 entry.2) table).lookup key).getD fallback =
      valueOf ((table.lookup key).getD fallback) entries key := by
  induction entries generalizing table with
  | nil => rfl
  | cons entry rest inductionHypothesis =>
    rw [List.map_cons, List.nodup_cons] at distinct
    rw [List.foldl_cons, inductionHypothesis distinct.2, valueOf_cons, Assoc.lookup_insert_eq]
    by_cases same : entry.1 = key
    · rw [if_pos same.symm, if_pos same, Option.getD_some]
      exact valueOf_of_not_mem (same ▸ distinct.1)
    · rw [if_neg (Ne.symm same), if_neg same]

end Entries

/-- Distinct keys, and nothing stored that the fallback says anyway. -/
structure Sparse (fallback : Value) (entries : List (Key × Value)) : Prop where
  distinct : (entries.map Prod.fst).Nodup
  proper : ∀ entry ∈ entries, entry.2 ≠ fallback

omit [DecidableEq Key] in
theorem Sparse.nil {fallback : Value} : Sparse fallback ([] : List (Key × Value)) where
  distinct := List.nodup_nil
  proper _ member := by cases member

section Assign

variable [DecidableEq Value] {fallback : Value} {entries : List (Key × Value)}

theorem nodup_assign (distinct : (entries.map Prod.fst).Nodup) (key : Key) (value : Value) :
    ((assign fallback key value entries).map Prod.fst).Nodup := by
  unfold assign
  split
  · exact (List.eraseP_sublist.map _).nodup distinct
  · rw [keys_putEntry]
    split
    · exact distinct
    · rename_i fresh
      rw [List.nodup_append]
      refine ⟨distinct, by simp, ?_⟩
      intro first member second last
      rw [List.mem_singleton.mp last]
      exact fun same => fresh (same ▸ member)

/-- Setting a value in the list is setting it in the map. -/
theorem valueOf_assign (distinct : (entries.map Prod.fst).Nodup) (key : Key) (value : Value) :
    valueOf fallback (assign fallback key value entries) =
      Function.update (valueOf fallback entries) key value := by
  funext other
  rw [Function.update_apply, assign]
  split
  · rename_i unset
    rw [valueOf_eraseP distinct, unset]
  · rw [valueOf_putEntry]

theorem Sparse.assign (sparse : Sparse fallback entries) (key : Key) (value : Value) :
    Sparse fallback (assign fallback key value entries) where
  distinct := nodup_assign sparse.distinct key value
  proper entry member := by
    unfold Foundation.assign at member
    split at member
    · exact sparse.proper entry (List.mem_of_mem_eraseP member)
    · rename_i proper
      rcases mem_putEntry member with rfl | old
      · exact proper
      · exact sparse.proper entry old

/-- After any number of assignments the list is sparse, and each key has the value it was given
last. -/
theorem Sparse.assignAll (calls : List (Key × Value)) :
    let entries := calls.foldl (fun entries call => Foundation.assign fallback call.1 call.2 entries) []
    Sparse fallback entries ∧ valueOf fallback entries = valueOf fallback calls.reverse := by
  induction calls using List.reverseRecOn with
  | nil => exact ⟨.nil, rfl⟩
  | append_singleton calls call inductionHypothesis =>
    obtain ⟨sparse, same⟩ := inductionHypothesis
    rw [List.foldl_append, List.reverse_append]
    refine ⟨sparse.assign call.1 call.2, ?_⟩
    funext key
    rw [List.foldl_cons, List.foldl_nil, valueOf_assign sparse.distinct, same,
      Function.update_apply, List.reverse_singleton, List.singleton_append, valueOf_cons]
    simp only [eq_comm]

end Assign

end NodexProxy.Foundation
