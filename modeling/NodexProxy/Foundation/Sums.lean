import NodexProxy.Foundation.Bytes

/-! Lists and finite maps with one entry replaced, and the sums over them. -/

namespace NodexProxy.Foundation

/-- What the new entry has in common with the old one does not change. -/
theorem map_set_of_eq {Item Value : Type} {items : List Item} {index : Nat} {item : Item}
    (found : items[index]? = some item) (next : Item) {value : Item → Value}
    (same : value next = value item) :
    (items.set index next).map value = items.map value := by
  obtain ⟨inside, rfl⟩ := List.getElem?_eq_some_iff.mp found
  have held : index < (items.map value).length := by simpa using inside
  have mapped : (items.map value)[index] = value items[index] := List.getElem_map value
  rw [List.map_set, same, ← mapped, List.set_getElem_self held]

/-- One entry of a list is replaced. -/
theorem sum_map_set {Item : Type} {items : List Item} {index : Nat} {item : Item}
    (found : items[index]? = some item) (next : Item) (weigh : Item → Nat) :
    ((items.set index next).map weigh).sum + weigh item = (items.map weigh).sum + weigh next := by
  induction items generalizing index with
  | nil => cases found
  | cons first rest inductionHypothesis =>
    cases index with
    | zero =>
      cases found
      simp only [List.set_cons_zero, List.map_cons, List.sum_cons]
      omega
    | succ index =>
      have rest := inductionHypothesis (by simpa using found)
      simp only [List.set_cons_succ, List.map_cons, List.sum_cons]
      omega

theorem sum_map_ite_eq_countP {Item : Type} (items : List Item) (chosen : Item → Bool) :
    (items.map fun item => if chosen item then 1 else 0).sum = items.countP chosen := by
  induction items with
  | nil => rfl
  | cons item rest inductionHypothesis =>
    rw [List.map_cons, List.sum_cons, inductionHypothesis, List.countP_cons, Nat.add_comm]

theorem countP_set_add {Item : Type} {items : List Item} {index : Nat} {item : Item}
    (found : items[index]? = some item) (next : Item) (chosen : Item → Bool) :
    (items.set index next).countP chosen + (if chosen item then 1 else 0) =
      items.countP chosen + if chosen next then 1 else 0 := by
  have sums := sum_map_set found next fun item => if chosen item then 1 else 0
  rwa [sum_map_ite_eq_countP, sum_map_ite_eq_countP] at sums

/-- An entry that is not chosen may go. -/
theorem countP_eraseIdx_of_not {Item : Type} {items : List Item} {index : Nat} {item : Item}
    (found : items[index]? = some item) {chosen : Item → Bool} (other : ¬ chosen item) :
    (items.eraseIdx index).countP chosen = items.countP chosen := by
  obtain ⟨inside, rfl⟩ := List.getElem?_eq_some_iff.mp found
  rw [← (List.getElem_cons_eraseIdx_perm inside).countP_eq chosen, List.countP_cons_of_neg other]

namespace Assoc

variable {Key Value : Type} [DecidableEq Key]

/-- The weights of all entries of a map. -/
def sumOver (weigh : Key → Value → Nat) (map : Assoc Key Value) : Nat :=
  (map.entries.map fun entry => weigh entry.1 entry.2).sum

theorem sum_kerase (weigh : Key → Value → Nat) (key : Key) (entries : List (Σ _ : Key, Value)) :
    ((entries.kerase key).map fun entry => weigh entry.1 entry.2).sum +
        (entries.dlookup key).elim 0 (weigh key) =
      (entries.map fun entry => weigh entry.1 entry.2).sum := by
  induction entries with
  | nil => rfl
  | cons first rest inductionHypothesis =>
    obtain ⟨name, value⟩ := first
    by_cases same : key = name
    · subst same
      have erased : List.kerase key (⟨key, value⟩ :: rest) = rest := List.kerase_cons_eq rfl
      rw [erased, List.dlookup_cons_eq, List.map_cons, List.sum_cons]
      exact Nat.add_comm ..
    · rw [List.kerase_cons_ne same, List.dlookup_cons_ne rest ⟨name, value⟩ same, List.map_cons,
        List.map_cons, List.sum_cons, List.sum_cons]
      omega

/-- An insertion takes the old weight of the key out and puts the new one in. -/
theorem sumOver_insert (weigh : Key → Value → Nat) (map : Assoc Key Value) (key : Key)
    (value : Value) :
    sumOver weigh (map.insert key value) + (map.lookup key).elim 0 (weigh key) =
      sumOver weigh map + weigh key value := by
  have erased := sum_kerase weigh key map.entries
  rw [sumOver, AList.entries_insert, List.map_cons, List.sum_cons, sumOver, AList.lookup]
  dsimp only
  omega

end Assoc

end NodexProxy.Foundation
