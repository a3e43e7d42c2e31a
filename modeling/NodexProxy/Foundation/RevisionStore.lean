import Mathlib

/-! A key-value store that stamps every record with the revision of its last write, and
transactions guarded by these stamps. -/

namespace NodexProxy.Foundation

variable {Key Value : Type} [DecidableEq Key]

/-- A stored record. The version counts the writes since the key was last absent. -/
structure Record (Value : Type) where
  value : Value
  modRevision : Nat
  version : Nat
deriving DecidableEq, Repr

/-- Stamps lie between 1 and the store's revision, so that 0 can stand for an absent key. -/
structure RevisionStore (Key Value : Type) where
  revision : Nat
  records : Key → Option (Record Value)
  stamped : ∀ key record, records key = some record →
    1 ≤ record.modRevision ∧ record.modRevision ≤ revision ∧ 1 ≤ record.version

inductive Write (Key Value : Type) where
  | put (key : Key) (value : Value)
  | delete (key : Key)
deriving DecidableEq, Repr

/-- A comparison a transaction makes before it writes. -/
inductive Guard (Key : Type) where
  | modRevision (key : Key) (revision : Nat)
  | version (key : Key) (version : Nat)
deriving DecidableEq, Repr

/-- The stamp of what a read returned. -/
def stampOf (reply : Option (Record Value)) : Nat :=
  match reply with
  | none => 0
  | some record => record.modRevision

def versionOf (reply : Option (Record Value)) : Nat :=
  match reply with
  | none => 0
  | some record => record.version

def Write.apply (revision : Nat) (records : Key → Option (Record Value)) (write : Write Key Value) :
    Key → Option (Record Value) :=
  match write with
  | .put key value =>
    Function.update records key (some ⟨value, revision, versionOf (records key) + 1⟩)
  | .delete key => Function.update records key none

namespace RevisionStore

def empty : RevisionStore Key Value where
  revision := 0
  records := fun _ => none
  stamped := fun _ _ stored => nomatch stored

/-- A key keeps its record, loses it, or has one stamped with the revision of the writes. -/
theorem written_cases (revision : Nat) (writes : List (Write Key Value))
    (records : Key → Option (Record Value)) (key : Key) :
    writes.foldl (Write.apply revision) records key = records key ∨
      writes.foldl (Write.apply revision) records key = none ∨
      ∃ record, writes.foldl (Write.apply revision) records key = some record ∧
        record.modRevision = revision ∧ 1 ≤ record.version := by
  induction writes generalizing records with
  | nil => exact .inl rfl
  | cons write writes inductionHypothesis =>
    rw [List.foldl_cons]
    rcases inductionHypothesis (write.apply revision records) with kept | changed
    · rw [kept]
      cases write with
      | put target value =>
        by_cases same : key = target
        · subst same
          right; right
          exact ⟨_, Function.update_self .., rfl, Nat.le_add_left 1 _⟩
        · left
          exact Function.update_of_ne same ..
      | delete target =>
        by_cases same : key = target
        · subst same
          right; left
          exact Function.update_self ..
        · left
          exact Function.update_of_ne same ..
    · exact .inr changed

/-- All writes of one transaction happen at one new revision. -/
def write (store : RevisionStore Key Value) (writes : List (Write Key Value)) :
    RevisionStore Key Value where
  revision := store.revision + 1
  records := writes.foldl (Write.apply (store.revision + 1)) store.records
  stamped := by
    intro key record stored
    rcases written_cases (store.revision + 1) writes store.records key with kept | gone | fresh
    · rw [kept] at stored
      have bounds := store.stamped key record stored
      exact ⟨bounds.1, Nat.le_succ_of_le bounds.2.1, bounds.2.2⟩
    · rw [gone] at stored
      cases stored
    · obtain ⟨written, found, stamp, counted⟩ := fresh
      rw [found] at stored
      cases stored
      exact ⟨stamp ▸ Nat.le_add_left 1 _, stamp.le, counted⟩

def meets (store : RevisionStore Key Value) (guard : Guard Key) : Bool :=
  match guard with
  | .modRevision key revision => stampOf (store.records key) == revision
  | .version key version => versionOf (store.records key) == version

def meetsAll (store : RevisionStore Key Value) (guards : List (Guard Key)) : Bool :=
  guards.all store.meets

/-- What a reader of the key still knows: while the stamp is that of the reply, so is the record. -/
structure Attests (store : RevisionStore Key Value) (key : Key) (reply : Option (Record Value)) :
    Prop where
  past : ∀ record, reply = some record → 1 ≤ record.modRevision ∧ record.modRevision ≤ store.revision
  same : stampOf (store.records key) = stampOf reply → store.records key = reply

omit [DecidableEq Key] in
theorem Attests.read (store : RevisionStore Key Value) (key : Key) :
    store.Attests key (store.records key) where
  past := fun record stored =>
    have bounds := store.stamped key record stored
    ⟨bounds.1, bounds.2.1⟩
  same := fun _ => rfl

/-- Later writes never reuse a stamp, so they cannot bring a stale reply back. -/
theorem Attests.write {store : RevisionStore Key Value} (attests : store.Attests key reply)
    (writes : List (Write Key Value)) : (store.write writes).Attests key reply where
  past := fun record replied =>
    have bounds := attests.past record replied
    ⟨bounds.1, Nat.le_succ_of_le bounds.2⟩
  same := by
    intro stamps
    rcases written_cases (store.revision + 1) writes store.records key with kept | gone | fresh
    · have kept : (store.write writes).records key = store.records key := kept
      rw [kept] at stamps ⊢
      exact attests.same stamps
    · have gone : (store.write writes).records key = none := gone
      rw [gone] at stamps ⊢
      cases reply with
      | none => rfl
      | some record =>
        have bounds := attests.past record rfl
        have zero : 0 = record.modRevision := stamps
        omega
    · obtain ⟨written, found, stamp, -⟩ := fresh
      have found : (store.write writes).records key = some written := found
      rw [found] at stamps
      have stamps : written.modRevision = stampOf reply := stamps
      cases reply with
      | none =>
        have zero : written.modRevision = 0 := stamps
        omega
      | some record =>
        have bounds := attests.past record rfl
        have equal : written.modRevision = record.modRevision := stamps
        omega

/-- A guard that can only hold while the key has the record a read returned. -/
def Pins (guard : Guard Key) (key : Key) (reply : Option (Record Value)) : Prop :=
  guard = .modRevision key (stampOf reply) ∨ reply = none ∧ guard = .version key 0

omit [DecidableEq Key] in
theorem Attests.of_pins {store : RevisionStore Key Value} {guard : Guard Key}
    (attests : store.Attests key reply) (pins : Pins guard key reply)
    (met : store.meets guard = true) : store.records key = reply := by
  rcases pins with rfl | ⟨rfl, rfl⟩
  · apply attests.same
    simpa [meets] using met
  · cases stored : store.records key with
    | none => rfl
    | some record =>
      have positive := (store.stamped key record stored).2.2
      have zero : record.version = 0 := by simpa [meets, stored, versionOf] using met
      omega

/-! Range reads. A store does not list its keys, so a read over many of them is given a list in
which they all are. -/

/-- All records of the store are under these keys. -/
def Within (store : RevisionStore Key Value) (keys : List Key) : Prop :=
  ∀ key record, store.records key = some record → key ∈ keys

omit [DecidableEq Key] in
theorem Within.empty : (empty : RevisionStore Key Value).Within [] :=
  fun _ _ stored => nomatch stored

theorem Within.put {store : RevisionStore Key Value} (within : store.Within keys) (key : Key)
    (value : Value) : (store.write [.put key value]).Within (key :: keys) := by
  intro other record stored
  by_cases same : other = key
  · exact same ▸ List.mem_cons_self ..
  · have kept : (store.write [.put key value]).records other = store.records other :=
      Function.update_of_ne same ..
    exact List.mem_cons_of_mem _ (within other record (kept.symm.trans stored))

section Range

variable [LE Key] [DecidableLE Key]

/-- The records at the selected keys, in the order of the keys. -/
def range (store : RevisionStore Key Value) (keys : List Key) (selects : Key → Bool) :
    List (Key × Record Value) :=
  ((keys.filter selects).dedup.insertionSort (· ≤ ·)).filterMap fun key =>
    (store.records key).map (Prod.mk key)

theorem mem_range {store : RevisionStore Key Value} (within : store.Within keys)
    {entry : Key × Record Value} :
    entry ∈ store.range keys selects ↔
      selects entry.1 = true ∧ store.records entry.1 = some entry.2 := by
  simp only [range, List.mem_filterMap, List.mem_insertionSort, List.mem_dedup, List.mem_filter]
  constructor
  · rintro ⟨key, ⟨-, selected⟩, found⟩
    obtain ⟨record, stored, rfl⟩ := Option.map_eq_some_iff.mp found
    exact ⟨selected, stored⟩
  · rintro ⟨selected, stored⟩
    exact ⟨entry.1, ⟨within _ _ stored, selected⟩, by rw [stored]; rfl⟩

theorem nodup_range (store : RevisionStore Key Value) (keys : List Key) (selects : Key → Bool) :
    (store.range keys selects).Nodup := by
  refine List.Nodup.filterMap ?_ ((List.perm_insertionSort _ _).nodup_iff.mpr (List.nodup_dedup _))
  intro first second entry here there
  obtain ⟨_, -, rfl⟩ := Option.map_eq_some_iff.mp here
  obtain ⟨_, -, same⟩ := Option.map_eq_some_iff.mp there
  exact (congrArg Prod.fst same).symm

end Range

end RevisionStore

end NodexProxy.Foundation
