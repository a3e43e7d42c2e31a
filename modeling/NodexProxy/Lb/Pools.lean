import NodexProxy.Foundation.Execution
import NodexProxy.Lb.Removal

/-! The selector's lists hold pointers, and an upsert may write through one of them.
Each list is shown to be a map from keys to nodes over any sequence of calls. -/

namespace NodexProxy.Lb

open NodexProxy.Foundation NodexProxy.Discovery

/-- Node objects by address, and the lists of addresses. Every call of `UpsertNode`
passes an object its caller has just built, at the next free address. -/
structure Pools where
  heap : Nat → Node
  next : Nat
  lists : Slot → Assoc Bytes (List Nat)

/-- The zero value of a node, at the addresses not yet in use. -/
def blankNode : Node where
  key := []
  ip := []
  port := 0
  addr := []
  source := []
  weight := 0
  stateType := 0
  nodeType := 0

def Pools.empty : Pools where
  heap := fun _ => blankNode
  next := 0
  lists := fun _ => ∅

/-- The addresses a list holds; a chain never stored reads as the nil list. -/
def Pools.pointers (pools : Pools) (slot : Slot) (chainId : Bytes) : List Nat :=
  ((pools.lists slot).lookup chainId).getD []

/-- The nodes behind the addresses. -/
def Pools.nodes (pools : Pools) (slot : Slot) (chainId : Bytes) : List Node :=
  (pools.pointers slot chainId).map pools.heap

def Pools.setList (pools : Pools) (slot : Slot) (chainId : Bytes) (pointers : List Nat) : Pools :=
  { pools with
    lists := Function.update pools.lists slot ((pools.lists slot).insert chainId pointers) }

/-- `UpsertInto` on addresses: `UpdateFrom` writes to the object already listed. -/
def upsertPointer (heap : Nat → Node) : List Nat → Nat → (Nat → Node) × List Nat
  | [], node => (heap, [node])
  | existing :: rest, node =>
    if (heap existing).key = (heap node).key then
      if (heap existing).addr = (heap node).addr ∧ (heap existing).source = (heap node).source ∧
          (heap existing).nodeType = (heap node).nodeType then
        (Function.update heap existing ((heap existing).updateFrom (heap node)), existing :: rest)
      else (heap, node :: rest)
    else
      let (heap, rest) := upsertPointer heap rest node
      (heap, existing :: rest)

def Pools.upsertNode (pools : Pools) (chainId : Bytes) (role : Int) (node : Node) : Pools :=
  let slot := Slot.of node.source role
  let heap := Function.update pools.heap pools.next node
  let (heap, pointers) := upsertPointer heap (pools.pointers slot chainId) pools.next
  { pools.setList slot chainId pointers with heap, next := pools.next + 1 }

def Pools.removeNode (pools : Pools) (chainId : Bytes) (role : Int) (node : Node) : Pools :=
  let slot := Slot.of node.source role
  match (pools.lists slot).lookup chainId with
  | none => pools
  | some pointers =>
    match pointers.findIdx? fun existing => (pools.heap existing).key == node.key with
    | none => pools
    | some index => pools.setList slot chainId (pointers.eraseIdx index)

/-- One call on the selector. -/
inductive PoolCall where
  | upsert (chainId : Bytes) (role : Int) (node : Node)
  | remove (chainId : Bytes) (role : Int) (node : Node)

def PoolCall.node : PoolCall → Node
  | .upsert _ _ node | .remove _ _ node => node

def PoolCall.role : PoolCall → Int
  | .upsert _ role _ | .remove _ role _ => role

/-- The role passed is the type of the node, as at both callers. -/
def PoolCall.Typed (call : PoolCall) : Prop := call.node.nodeType = call.role

def Pools.apply (pools : Pools) : PoolCall → Pools
  | .upsert chainId role node => pools.upsertNode chainId role node
  | .remove chainId role node => pools.removeNode chainId role node

def Random.apply (random : Random) : PoolCall → Random
  | .upsert chainId role node => random.upsertNode chainId role node
  | .remove chainId role node => random.removeNode chainId role node

theorem Pools.pointers_setList (pools : Pools) (slot other : Slot) (chainId chain : Bytes)
    (pointers : List Nat) :
    (pools.setList slot chainId pointers).pointers other chain =
      if other = slot ∧ chain = chainId then pointers else pools.pointers other chain := by
  simp only [Pools.pointers, Pools.setList, Function.update_apply, Assoc.lookup_insert_of_family]
  split_ifs
  · rfl
  · rfl

/-- No object is listed twice, in one list or in two. -/
structure Pools.Unshared (pools : Pools) : Prop where
  allocated : ∀ slot chain, ∀ pointer ∈ pools.pointers slot chain, pointer < pools.next
  distinct : ∀ slot chain, (pools.pointers slot chain).Nodup
  apart : ∀ slot chain other chain', ∀ pointer ∈ pools.pointers slot chain,
    pointer ∈ pools.pointers other chain' → other = slot ∧ chain' = chain

section UpsertPointer

variable {heap : Nat → Node} {pointers : List Nat} {node : Nat}

/-- An upsert writes to no object outside its list. -/
theorem upsertPointer_frame (outside : pointer ∉ pointers) :
    (upsertPointer heap pointers node).1 pointer = heap pointer := by
  induction pointers with
  | nil => rfl
  | cons existing rest inductionHypothesis =>
    obtain ⟨different, outsideRest⟩ := not_or.mp (List.mem_cons.not.mp outside)
    simp only [upsertPointer]
    split
    · split
      · exact Function.update_of_ne different _ _
      · rfl
    · exact inductionHypothesis outsideRest

/-- The objects behind the new list are those of the plain upsert. -/
theorem map_upsertPointer (distinct : pointers.Nodup) :
    (upsertPointer heap pointers node).2.map (upsertPointer heap pointers node).1 =
      upsertInto (pointers.map heap) (heap node) := by
  induction pointers with
  | nil => simp [upsertPointer, upsertInto]
  | cons existing rest inductionHypothesis =>
    obtain ⟨fresh, distinctRest⟩ := List.nodup_cons.mp distinct
    simp only [upsertPointer, List.map_cons, upsertInto]
    by_cases same : (heap existing).key = (heap node).key
    · simp only [same, if_true]
      split
      · have untouched : ∀ pointer ∈ rest, Function.update heap existing
            ((heap existing).updateFrom (heap node)) pointer = heap pointer := by
          intro pointer member
          exact Function.update_of_ne (ne_of_mem_of_not_mem member fresh) _ _
        simp [List.map_congr_left untouched]
      · simp
    · simp only [same, if_false, List.map_cons, inductionHypothesis distinctRest,
        upsertPointer_frame fresh]

/-- The new list holds old addresses and at most the one passed. -/
theorem upsertPointer_pointers (fresh : node ∉ pointers) (distinct : pointers.Nodup) :
    (upsertPointer heap pointers node).2.Nodup ∧
      ∀ pointer ∈ (upsertPointer heap pointers node).2, pointer ∈ pointers ∨ pointer = node := by
  induction pointers with
  | nil => simp [upsertPointer]
  | cons existing rest inductionHypothesis =>
    obtain ⟨different, freshRest⟩ := not_or.mp (List.mem_cons.not.mp fresh)
    obtain ⟨once, distinctRest⟩ := List.nodup_cons.mp distinct
    obtain ⟨nodup, members⟩ := inductionHypothesis freshRest distinctRest
    simp only [upsertPointer]
    split
    · split
      · exact ⟨distinct, fun pointer member => .inl member⟩
      · refine ⟨List.nodup_cons.mpr ⟨freshRest, distinctRest⟩, fun pointer member => ?_⟩
        rcases List.mem_cons.mp member with new | old
        · exact .inr new
        · exact .inl (List.mem_cons_of_mem _ old)
    · refine ⟨List.nodup_cons.mpr ⟨fun again => ?_, nodup⟩, fun pointer member => ?_⟩
      · rcases members existing again with old | new
        · exact once old
        · exact different new.symm
      · rcases List.mem_cons.mp member with first | later
        · exact .inl (by simp [first])
        · exact (members pointer later).imp_left (List.mem_cons_of_mem _)

end UpsertPointer

theorem Pools.pointers_upsertNode (pools : Pools) (chainId chain : Bytes) (role : Int)
    (node : Node) (slot : Slot) :
    (pools.upsertNode chainId role node).pointers slot chain =
      if slot = Slot.of node.source role ∧ chain = chainId then
        (upsertPointer (Function.update pools.heap pools.next node) (pools.pointers slot chain)
          pools.next).2
      else pools.pointers slot chain := by
  have stored := pools.pointers_setList (Slot.of node.source role) slot chainId chain
    (upsertPointer (Function.update pools.heap pools.next node)
      (pools.pointers (Slot.of node.source role) chainId) pools.next).2
  refine Eq.trans stored ?_
  split
  · rename_i addressed
    rw [addressed.1, addressed.2]
  · rfl

theorem Pools.pointers_removeNode (pools : Pools) (chainId chain : Bytes) (role : Int)
    (node : Node) (slot : Slot) :
    (pools.removeNode chainId role node).pointers slot chain =
      if slot = Slot.of node.source role ∧ chain = chainId then
        (pools.pointers slot chain).eraseP fun existing => (pools.heap existing).key == node.key
      else pools.pointers slot chain := by
  by_cases addressed : slot = Slot.of node.source role ∧ chain = chainId
  · obtain ⟨rfl, rfl⟩ := addressed
    simp only [Pools.removeNode, and_self, if_true]
    cases stored : (pools.lists (Slot.of node.source role)).lookup chain with
    | none => simp [Pools.pointers, stored]
    | some pointers =>
      have held : pools.pointers (Slot.of node.source role) chain = pointers := by
        simp [Pools.pointers, stored]
      rw [List.eraseP_eq_eraseIdx, held]
      cases found : pointers.findIdx? fun existing => (pools.heap existing).key == node.key with
      | none => simpa [found] using held
      | some index => simp [found, Pools.pointers_setList]
  · simp only [addressed, if_false, Pools.removeNode]
    split
    · rfl
    · split
      · rfl
      · simp [Pools.pointers_setList, addressed]

@[simp] theorem Pools.heap_removeNode (pools : Pools) (chainId : Bytes) (role : Int)
    (node : Node) : (pools.removeNode chainId role node).heap = pools.heap := by
  simp only [Pools.removeNode]
  split
  · rfl
  · split <;> rfl

@[simp] theorem Pools.next_removeNode (pools : Pools) (chainId : Bytes) (role : Int)
    (node : Node) : (pools.removeNode chainId role node).next = pools.next := by
  simp only [Pools.removeNode]
  split
  · rfl
  · split <;> rfl

/-- The list that was addressed changes as the plain one does; every other list keeps
its nodes, since the object written to is in no other list. -/
theorem Pools.Unshared.nodes_upsertNode {pools : Pools} (unshared : pools.Unshared)
    (chainId chain : Bytes) (role : Int) (node : Node) (slot : Slot) :
    (pools.upsertNode chainId role node).nodes slot chain =
      if slot = Slot.of node.source role ∧ chain = chainId then
        upsertInto (pools.nodes slot chain) node
      else pools.nodes slot chain := by
  have built : ∀ slot chain, (pools.pointers slot chain).map
      (Function.update pools.heap pools.next node) = pools.nodes slot chain := by
    intro slot chain
    apply List.map_congr_left
    intro pointer member
    exact Function.update_of_ne (unshared.allocated slot chain pointer member).ne _ _
  have heap : (pools.upsertNode chainId role node).heap =
      (upsertPointer (Function.update pools.heap pools.next node)
        (pools.pointers (Slot.of node.source role) chainId) pools.next).1 := rfl
  rw [Pools.nodes, Pools.pointers_upsertNode, heap]
  by_cases addressed : slot = Slot.of node.source role ∧ chain = chainId
  · obtain ⟨rfl, rfl⟩ := addressed
    simp only [and_self, if_true]
    rw [map_upsertPointer (unshared.distinct _ _), built, Function.update_self]
  · rw [if_neg addressed, if_neg addressed, ← built slot chain]
    apply List.map_congr_left
    intro pointer member
    apply upsertPointer_frame
    intro shared
    exact addressed (unshared.apart _ _ slot chain pointer shared member)

theorem Pools.nodes_removeNode (pools : Pools) (chainId chain : Bytes) (role : Int) (node : Node)
    (slot : Slot) :
    (pools.removeNode chainId role node).nodes slot chain =
      if slot = Slot.of node.source role ∧ chain = chainId then
        (pools.nodes slot chain).eraseP fun existing => existing.key == node.key
      else pools.nodes slot chain := by
  rw [Pools.nodes, Pools.pointers_removeNode, Pools.heap_removeNode]
  split
  · rw [Pools.nodes, List.eraseP_map]
    rfl
  · rfl

theorem Pools.Unshared.empty : Pools.empty.Unshared where
  allocated := by simp [Pools.empty, Pools.pointers]
  distinct := by simp [Pools.empty, Pools.pointers]
  apart := by simp [Pools.empty, Pools.pointers]

theorem Pools.Unshared.upsertNode {pools : Pools} (unshared : pools.Unshared) (chainId : Bytes)
    (role : Int) (node : Node) : (pools.upsertNode chainId role node).Unshared := by
  have fresh : ∀ slot chain, pools.next ∉ pools.pointers slot chain :=
    fun slot chain member => (unshared.allocated slot chain _ member).false
  have upserted := @upsertPointer_pointers (Function.update pools.heap pools.next node) _ _
    (fresh (Slot.of node.source role) chainId) (unshared.distinct (Slot.of node.source role) chainId)
  -- A listed address is an old one of the same list, or the new one in the addressed list.
  have origin : ∀ slot chain, ∀ pointer ∈ (pools.upsertNode chainId role node).pointers slot chain,
      pointer ∈ pools.pointers slot chain ∨
        pointer = pools.next ∧ slot = Slot.of node.source role ∧ chain = chainId := by
    intro slot chain pointer member
    rw [Pools.pointers_upsertNode] at member
    split at member
    · rename_i addressed
      obtain ⟨rfl, rfl⟩ := addressed
      exact (upserted.2 pointer member).imp_right fun new => ⟨new, rfl, rfl⟩
    · exact .inl member
  refine ⟨fun slot chain pointer member => ?_, fun slot chain => ?_,
    fun slot chain other chain' pointer member member' => ?_⟩
  · have bound : pointer < pools.next + 1 := by
      rcases origin slot chain pointer member with old | ⟨rfl, _⟩
      · exact Nat.lt_succ_of_lt (unshared.allocated slot chain pointer old)
      · exact Nat.lt_succ_self _
    exact bound
  · rw [Pools.pointers_upsertNode]
    split
    · rename_i addressed
      obtain ⟨rfl, rfl⟩ := addressed
      exact upserted.1
    · exact unshared.distinct slot chain
  · rcases origin slot chain pointer member with old | ⟨rfl, rfl, rfl⟩ <;>
      rcases origin other chain' _ member' with old' | ⟨new, rfl, rfl⟩
    · exact unshared.apart slot chain other chain' pointer old old'
    · exact absurd (new ▸ old) (fresh slot chain)
    · exact absurd old' (fresh other chain')
    · exact ⟨rfl, rfl⟩

theorem Pools.Unshared.removeNode {pools : Pools} (unshared : pools.Unshared) (chainId : Bytes)
    (role : Int) (node : Node) : (pools.removeNode chainId role node).Unshared := by
  have shrinks : ∀ slot chain, ((pools.removeNode chainId role node).pointers slot chain).Sublist
      (pools.pointers slot chain) := by
    intro slot chain
    rw [Pools.pointers_removeNode]
    split
    · exact List.eraseP_sublist
    · exact List.Sublist.refl _
  refine ⟨fun slot chain pointer member => ?_, fun slot chain => ?_,
    fun slot chain other chain' pointer member member' => ?_⟩
  · rw [Pools.next_removeNode]
    exact unshared.allocated slot chain pointer ((shrinks slot chain).subset member)
  · exact (unshared.distinct slot chain).sublist (shrinks slot chain)
  · exact unshared.apart slot chain other chain' pointer ((shrinks slot chain).subset member)
      ((shrinks other chain').subset member')

/-- The pointer-level pools and the plain ones hold the same nodes. -/
structure Pools.Represents (pools : Pools) (random : Random) : Prop where
  unshared : pools.Unshared
  nodes : ∀ slot chain, pools.nodes slot chain = random.nodes slot chain

theorem Pools.Represents.apply {pools : Pools} {random : Random}
    (represents : pools.Represents random) (call : PoolCall) :
    (pools.apply call).Represents (random.apply call) := by
  cases call with
  | upsert chainId role node =>
    refine ⟨represents.unshared.upsertNode chainId role node, fun slot chain => ?_⟩
    simp only [Pools.apply, Random.apply, represents.unshared.nodes_upsertNode,
      Random.nodes_upsertNode, represents.nodes]
  | remove chainId role node =>
    refine ⟨represents.unshared.removeNode chainId role node, fun slot chain => ?_⟩
    simp only [Pools.apply, Random.apply, Pools.nodes_removeNode, Random.nodes_removeNode,
      represents.nodes]

/-- Every sequence of calls on pointers is simulated by the same calls on values. -/
theorem Pools.represents_foldl (calls : List PoolCall) :
    (calls.foldl Pools.apply Pools.empty).Represents
      (calls.foldl Random.apply Random.empty) := by
  induction calls using List.reverseRecOn with
  | nil => exact ⟨Pools.Unshared.empty, fun slot chain => by cases slot <;> rfl⟩
  | append_singleton calls call inductionHypothesis =>
    simp only [List.foldl_append, List.foldl_cons, List.foldl_nil]
    exact inductionHypothesis.apply call

/-- What a list of the slot may hold. -/
def Slot.Admits : Slot → Node → Prop
  | .native, node => node.source = sourceNative
  | .archive, node => node.source ≠ sourceNative ∧ node.nodeType = nodeTypeArchive
  | .state, node => node.source ≠ sourceNative ∧ node.nodeType ≠ nodeTypeArchive

theorem Slot.admits_of {slot : Slot} {node : Node}
    (placed : Slot.of node.source node.nodeType = slot) : slot.Admits node := by
  subst slot
  unfold Slot.of
  split
  · assumption
  · split <;> constructor <;> assumption

theorem Random.WellFormed.empty : Random.empty.WellFormed where
  distinct := fun slot chain => by cases slot <;> simp [Random.nodes, Random.lists, Random.empty]
  placed := fun slot chain => by cases slot <;> simp [Random.nodes, Random.lists, Random.empty]

theorem Random.WellFormed.apply {random : Random} (wellFormed : random.WellFormed)
    {call : PoolCall} (typed : call.Typed) : (random.apply call).WellFormed := by
  cases call with
  | upsert chainId role node =>
    have same : node.nodeType = role := typed
    subst role
    exact wellFormed.upsertNode chainId node
  | remove chainId role node => exact wellFormed.removeNode chainId role node

theorem Random.WellFormed.foldl {random : Random} (wellFormed : random.WellFormed)
    {calls : List PoolCall} (typed : ∀ call ∈ calls, call.Typed) :
    (calls.foldl Random.apply random).WellFormed := by
  induction calls generalizing random with
  | nil => exact wellFormed
  | cons call rest inductionHypothesis =>
    exact inductionHypothesis (wellFormed.apply (typed call (by simp)))
      fun later member => typed later (List.mem_cons_of_mem _ member)

/-- The entries of other keys keep their values and their order. -/
theorem upsertInto_others (nodes : List Node) (node : Node) :
    (upsertInto nodes node).filter (fun entry => entry.key ≠ node.key) =
      nodes.filter fun entry => entry.key ≠ node.key := by
  induction nodes with
  | nil => simp [upsertInto]
  | cons existing rest inductionHypothesis =>
    simp only [upsertInto]
    by_cases same : existing.key = node.key
    · simp [same, key_of_upserted same]
    · simp only [same, if_false, List.filter_cons, inductionHypothesis]

/-- An entry with the address, source, type, weight and state of the node. -/
def Node.Publishes (entry node : Node) : Prop :=
  entry.key = node.key ∧ entry.addr = node.addr ∧ entry.source = node.source ∧
    entry.nodeType = node.nodeType ∧ entry.weight = node.weight ∧ entry.stateType = node.stateType

theorem filter_key_of_absent {nodes : List Node} (absent : key ∉ nodes.map Node.key) :
    nodes.filter (fun entry => entry.key = key) = [] := by
  apply List.filter_eq_nil_iff.mpr
  intro entry member
  have different : entry.key ≠ key := fun same => absent (same ▸ List.mem_map_of_mem member)
  simpa using different

/-- The key has one entry, which publishes the node. -/
theorem upsertInto_own {nodes : List Node} (distinct : (nodes.map Node.key).Nodup) (node : Node) :
    ∃ entry, (upsertInto nodes node).filter (fun entry => entry.key = node.key) = [entry] ∧
      entry.Publishes node := by
  induction nodes with
  | nil => exact ⟨node, by simp [upsertInto], rfl, rfl, rfl, rfl, rfl, rfl⟩
  | cons existing rest inductionHypothesis =>
    obtain ⟨fresh, distinctRest⟩ := List.nodup_cons.mp distinct
    simp only [upsertInto]
    by_cases same : existing.key = node.key
    · have alone := filter_key_of_absent (same ▸ fresh)
      simp only [same, if_true]
      split
      · rename_i identity
        have own : (existing.updateFrom node).key = node.key := same
        refine ⟨existing.updateFrom node, ?_, own, identity.1, identity.2.1, identity.2.2, rfl, rfl⟩
        simp only [List.filter_cons, own, decide_true, if_true, alone]
      · refine ⟨node, ?_, rfl, rfl, rfl, rfl, rfl, rfl⟩
        rw [List.filter_cons_of_pos (by simp), alone]
    · simp only [same, if_false]
      rw [List.filter_cons_of_neg (by simpa using same)]
      exact inductionHypothesis distinctRest

/-- Where keys are distinct, erasing the first entry of a key keeps exactly the others. -/
theorem eraseP_key {nodes : List Node} (distinct : (nodes.map Node.key).Nodup) (key : Bytes) :
    (nodes.eraseP fun entry => entry.key == key) = nodes.filter fun entry => entry.key ≠ key := by
  induction nodes with
  | nil => rfl
  | cons existing rest inductionHypothesis =>
    obtain ⟨fresh, distinctRest⟩ := List.nodup_cons.mp distinct
    by_cases same : existing.key = key
    · have others : rest.filter (fun entry => entry.key ≠ key) = rest := by
        apply List.filter_eq_self.mpr
        intro entry member
        have different : entry.key ≠ key :=
          fun equal => fresh (same ▸ equal ▸ List.mem_map_of_mem member)
        simpa using different
      rw [List.eraseP_cons_of_pos (by simpa using same),
        List.filter_cons_of_neg (by simpa using same), others]
    · rw [List.eraseP_cons_of_neg (by simpa using same),
        List.filter_cons_of_pos (by simpa using same), inductionHypothesis distinctRest]

/-- What one call does to the nodes of every list. -/
def PoolCall.Effect (before after : Slot → Bytes → List Node) : PoolCall → Prop
  | .upsert chainId role node =>
    (∃ entry, (after (Slot.of node.source role) chainId).filter (fun entry => entry.key = node.key) =
      [entry] ∧ entry.Publishes node) ∧
    (after (Slot.of node.source role) chainId).filter (fun entry => entry.key ≠ node.key) =
      (before (Slot.of node.source role) chainId).filter (fun entry => entry.key ≠ node.key) ∧
    ∀ slot chain, ¬ (slot = Slot.of node.source role ∧ chain = chainId) →
      after slot chain = before slot chain
  | .remove chainId role node =>
    after (Slot.of node.source role) chainId =
      (before (Slot.of node.source role) chainId).filter (fun entry => entry.key ≠ node.key) ∧
    ∀ slot chain, ¬ (slot = Slot.of node.source role ∧ chain = chainId) →
      after slot chain = before slot chain

theorem Random.WellFormed.effect {random : Random} (wellFormed : random.WellFormed)
    (call : PoolCall) : call.Effect random.nodes (random.apply call).nodes := by
  cases call with
  | upsert chainId role node =>
    have addressed : (random.upsertNode chainId role node).nodes (Slot.of node.source role) chainId =
        upsertInto (random.nodes (Slot.of node.source role) chainId) node := by
      simp [Random.nodes_upsertNode]
    refine ⟨?_, ?_, fun slot chain elsewhere => ?_⟩
    · simp only [Random.apply, addressed]
      exact upsertInto_own (wellFormed.distinct _ _) node
    · simp only [Random.apply, addressed]
      exact upsertInto_others _ node
    · simp only [Random.apply, Random.nodes_upsertNode, if_neg elsewhere]
  | remove chainId role node =>
    refine ⟨?_, fun slot chain elsewhere => ?_⟩
    · simp only [Random.apply, Random.nodes_removeNode, and_self, if_true]
      exact eraseP_key (wellFormed.distinct _ _) node.key
    · simp only [Random.apply, Random.nodes_removeNode, if_neg elsewhere]

/-- After any calls every list holds distinct keys and only the nodes meant for it, and
the next call changes the one list it addresses as a map from keys to nodes. -/
theorem Pools.lists_are_maps (calls : List PoolCall)
    (typed : ∀ call ∈ calls, call.Typed) :
    let pools := calls.foldl Pools.apply Pools.empty
    (∀ slot chain, ((pools.nodes slot chain).map Node.key).Nodup ∧
      ∀ node ∈ pools.nodes slot chain, slot.Admits node) ∧
    ∀ call : PoolCall, call.Effect pools.nodes (pools.apply call).nodes := by
  intro pools
  have represents := Pools.represents_foldl calls
  have wellFormed := Random.WellFormed.empty.foldl typed
  have before : pools.nodes = (calls.foldl Random.apply Random.empty).nodes := by
    funext slot chain
    exact represents.nodes slot chain
  refine ⟨fun slot chain => ?_, fun call => ?_⟩
  · rw [before]
    exact ⟨wellFormed.distinct slot chain,
      fun node member => Slot.admits_of (wellFormed.placed slot chain node member)⟩
  · have after : (pools.apply call).nodes =
        ((calls.foldl Random.apply Random.empty).apply call).nodes := by
      funext slot chain
      exact (represents.apply call).nodes slot chain
    rw [before, after]
    exact wellFormed.effect call

/-- Two archive nodes, the first upserted again with a new address, the second removed. -/
def samplePoolCalls : List PoolCall :=
  let node (key addr : String) : Node :=
    { key := ascii key, ip := [], port := 1, addr := ascii addr, source := ascii "official"
      weight := 1, stateType := 1, nodeType := nodeTypeArchive }
  [.upsert (ascii "1") nodeTypeArchive (node "a" "x:1"),
    .upsert (ascii "1") nodeTypeArchive (node "b" "y:1"),
    .upsert (ascii "1") nodeTypeArchive (node "a" "z:1"),
    .remove (ascii "1") nodeTypeArchive (node "b" "y:1")]

theorem Pools.lists_are_maps_sample :
    ((samplePoolCalls.foldl Pools.apply Pools.empty).nodes .archive (ascii "1")).map Node.addr =
        [ascii "z:1"] ∧
      (((samplePoolCalls.foldl Pools.apply Pools.empty).nodes .archive (ascii "1")).map
        Node.key).Nodup := by
  have typed : ∀ call ∈ samplePoolCalls, call.Typed := by
    simp [samplePoolCalls, PoolCall.Typed, PoolCall.node, PoolCall.role]
  refine ⟨by decide +kernel, ?_⟩
  exact ((Pools.lists_are_maps samplePoolCalls typed).1 .archive (ascii "1")).1

end NodexProxy.Lb
