import NodexProxy.Foundation.Bytes

/-! Amounts charged to keys and the finite map that accumulates them. -/

namespace NodexProxy.Foundation

variable {Key : Type} [DecidableEq Key]

/-- What a list of charges adds up to for one key. -/
def total (key : Key) (charges : List (Key × Int)) : Int :=
  ((charges.filter fun charge => charge.1 = key).map Prod.snd).sum

theorem total_append (key : Key) (first second : List (Key × Int)) :
    total key (first ++ second) = total key first + total key second := by
  simp [total]

theorem total_singleton (key other : Key) (amount : Int) :
    total key [(other, amount)] = if other = key then amount else 0 := by
  by_cases same : other = key <;> simp [total, same]

theorem total_of_notMem {key : Key} {charges : List (Key × Int)}
    (absent : key ∉ charges.map Prod.fst) : total key charges = 0 := by
  have none : charges.filter (fun charge => charge.1 = key) = [] := by
    apply List.filter_eq_nil_iff.mpr
    intro charge member
    have different : charge.1 ≠ key :=
      fun same => absent (same ▸ List.mem_map_of_mem member)
    simpa using different
  simp [total, none]

theorem total_flatMap {Item : Type} (key : Key) (charges : Item → List (Key × Int))
    (items : List Item) :
    total key (items.flatMap charges) = (items.map fun item => total key (charges item)).sum := by
  induction items with
  | nil => rfl
  | cons item items inductionHypothesis =>
    rw [List.flatMap_cons, total_append, inductionHypothesis, List.map_cons, List.sum_cons]

/-- The map holds exactly the charged keys, each with its total. -/
def Tallies (map : Assoc Key Int) (charges : List (Key × Int)) : Prop :=
  ∀ key, map.lookup key =
    if key ∈ charges.map Prod.fst then some (total key charges) else none

theorem Tallies.empty : Tallies (∅ : Assoc Key Int) [] := by
  intro key
  simp

theorem Tallies.getD {map : Assoc Key Int} {charges : List (Key × Int)}
    (tallies : Tallies map charges) (key : Key) :
    (map.lookup key).getD 0 = total key charges := by
  rw [tallies key]
  split
  · rfl
  · rename_i absent
    exact (total_of_notMem absent).symm

/-- Adding to the accumulated amount of a key, or starting it, keeps the tally. -/
theorem Tallies.charge {map : Assoc Key Int} {charges : List (Key × Int)}
    (tallies : Tallies map charges) (key : Key) (amount : Int) :
    Tallies (map.insert key ((map.lookup key).getD 0 + amount)) (charges ++ [(key, amount)]) := by
  intro other
  rw [Assoc.lookup_insert_eq, total_append, total_singleton]
  by_cases same : other = key
  · subst other
    simp [tallies.getD]
  · rw [if_neg same, if_neg (Ne.symm same), add_zero, tallies other]
    simp only [List.map_append, List.mem_append, List.map_cons, List.map_nil, List.mem_singleton,
      same, or_false]

theorem Tallies.nil_of_empty {map : Assoc Key Int} {charges : List (Key × Int)}
    (tallies : Tallies map charges) (none : map.keys = []) : charges = [] := by
  apply List.map_eq_nil_iff (f := Prod.fst).mp
  apply List.eq_nil_iff_forall_not_mem.mpr
  intro key charged
  have found : (map.lookup key).isSome := by
    rw [tallies key, if_pos charged]
    rfl
  have member := AList.lookup_isSome.mp found
  rw [AList.mem_keys, none] at member
  simp at member

/-- A new key makes the map larger by one, a known one leaves its size. -/
theorem Assoc.length_keys_insert (map : Assoc Key Value) (key : Key) (value : Value) :
    (map.insert key value).keys.length =
      if (map.lookup key).isSome then map.keys.length else map.keys.length + 1 := by
  rw [AList.keys_insert, List.length_cons, List.length_erase]
  by_cases known : key ∈ map
  · have positive : 0 < map.keys.length := List.length_pos_of_mem (AList.mem_keys.mp known)
    simp [AList.lookup_isSome.mpr known, AList.mem_keys.mp known]
    omega
  · have absent : ¬ (map.lookup key).isSome := fun found => known (AList.lookup_isSome.mp found)
    simp [absent, mt AList.mem_keys.mpr known]

/-- In a partition of a list without repetition every element has one block. -/
theorem existsUnique_block {Block Item : Type} {blocks : List Block} {items : Block → List Item}
    (distinct : (blocks.flatMap items).Nodup) {item : Item} (member : item ∈ blocks.flatMap items) :
    ∃! index : Nat, ∃ block, blocks[index]? = some block ∧ item ∈ items block := by
  obtain ⟨block, present, inside⟩ := List.mem_flatMap.mp member
  obtain ⟨index, found⟩ := List.mem_iff_getElem?.mp present
  refine ⟨index, ⟨block, found, inside⟩, ?_⟩
  rintro other ⟨second, found', inside'⟩
  have disjoint := List.pairwise_iff_getElem.mp (List.nodup_flatMap.mp distinct).2
  obtain ⟨bound, rfl⟩ := List.getElem?_eq_some_iff.mp found
  obtain ⟨bound', rfl⟩ := List.getElem?_eq_some_iff.mp found'
  rcases Nat.lt_trichotomy other index with less | same | more
  · exact absurd inside (disjoint other index bound' bound less inside')
  · exact same
  · exact absurd inside' (disjoint index other bound bound' more inside)

end NodexProxy.Foundation
