import NodexProxy.Lb.Node

/-! The pools of the random selector: one list for each chain and kind of node. -/

namespace NodexProxy.Lb

open NodexProxy.Foundation NodexProxy.Discovery

/-- The three lists a chain has. -/
inductive Slot where
  | archive
  | state
  | native
deriving DecidableEq, Repr

/-- The list `UpsertNode` and `RemoveNode` address: by source first, then by role. -/
def Slot.of (source : Bytes) (role : Int) : Slot :=
  if source = sourceNative then .native
  else if role = nodeTypeArchive then .archive
  else .state

structure Random where
  archiveNodes : Assoc Bytes (List Node)
  stateNodes : Assoc Bytes (List Node)
  nativeNodes : Assoc Bytes (List Node)
  chainHeight : Assoc Bytes (Option Int)

def Random.empty : Random := ⟨∅, ∅, ∅, ∅⟩

def Random.lists (random : Random) : Slot → Assoc Bytes (List Node)
  | .archive => random.archiveNodes
  | .state => random.stateNodes
  | .native => random.nativeNodes

def Random.setLists (random : Random) (slot : Slot) (lists : Assoc Bytes (List Node)) : Random :=
  match slot with
  | .archive => { random with archiveNodes := lists }
  | .state => { random with stateNodes := lists }
  | .native => { random with nativeNodes := lists }

/-- Reading a chain that was never stored gives the nil list. -/
def Random.nodes (random : Random) (slot : Slot) (chainId : Bytes) : List Node :=
  ((random.lists slot).lookup chainId).getD []

def Random.upsertNode (random : Random) (chainId : Bytes) (role : Int) (node : Node) : Random :=
  let slot := Slot.of node.source role
  random.setLists slot
    ((random.lists slot).insert chainId (upsertInto (random.nodes slot chainId) node))

/-- Only the first entry with the key leaves, and only from the addressed list. -/
def Random.removeNode (random : Random) (chainId : Bytes) (role : Int) (node : Node) : Random :=
  let slot := Slot.of node.source role
  match (random.lists slot).lookup chainId with
  | none => random
  | some nodes =>
    match nodes.findIdx? fun existing => existing.key == node.key with
    | none => random
    | some index => random.setLists slot ((random.lists slot).insert chainId (nodes.eraseIdx index))

def Random.getAllNodes (random : Random) (chainId : Bytes) : List Node :=
  random.nodes .archive chainId ++ random.nodes .state chainId ++ random.nodes .native chainId

@[simp] theorem Random.lists_setLists (random : Random) (slot other : Slot)
    (lists : Assoc Bytes (List Node)) :
    (random.setLists slot lists).lists other = if other = slot then lists else random.lists other := by
  cases slot <;> cases other <;> rfl

theorem Random.nodes_setLists (random : Random) (slot other : Slot) (chainId chain : Bytes)
    (nodes : List Node) :
    (random.setLists slot ((random.lists slot).insert chainId nodes)).nodes other chain =
      if other = slot ∧ chain = chainId then nodes else random.nodes other chain := by
  simp only [Random.nodes, Random.lists_setLists, Assoc.lookup_insert_of_family]
  split_ifs
  · rfl
  · rfl

theorem Random.nodes_upsertNode (random : Random) (chainId chain : Bytes) (role : Int) (node : Node)
    (slot : Slot) :
    (random.upsertNode chainId role node).nodes slot chain =
      if slot = Slot.of node.source role ∧ chain = chainId then
        upsertInto (random.nodes slot chain) node
      else random.nodes slot chain := by
  simp only [Random.upsertNode, Random.nodes_setLists]
  split
  · rename_i addressed
    rw [addressed.1, addressed.2]
  · rfl

theorem Random.nodes_removeNode (random : Random) (chainId chain : Bytes) (role : Int) (node : Node)
    (slot : Slot) :
    (random.removeNode chainId role node).nodes slot chain =
      if slot = Slot.of node.source role ∧ chain = chainId then
        (random.nodes slot chain).eraseP fun existing => existing.key == node.key
      else random.nodes slot chain := by
  by_cases addressed : slot = Slot.of node.source role ∧ chain = chainId
  · obtain ⟨rfl, rfl⟩ := addressed
    simp only [Random.removeNode, and_self, if_true]
    cases stored : (random.lists (Slot.of node.source role)).lookup chain with
    | none => simp [Random.nodes, stored]
    | some nodes =>
      have held : random.nodes (Slot.of node.source role) chain = nodes := by
        simp [Random.nodes, stored]
      rw [List.eraseP_eq_eraseIdx, held]
      cases found : nodes.findIdx? fun existing => existing.key == node.key with
      | none => simpa [found] using held
      | some index => simp [found, Random.nodes_setLists]
  · simp only [addressed, if_false, Random.removeNode]
    split
    · rfl
    · split
      · rfl
      · simp [Random.nodes_setLists, addressed]

theorem Random.mem_getAllNodes (random : Random) (chainId : Bytes) (node : Node) :
    node ∈ random.getAllNodes chainId ↔ ∃ slot, node ∈ random.nodes slot chainId := by
  simp only [Random.getAllNodes, List.mem_append]
  constructor
  · rintro ((archive | state) | native)
    · exact ⟨.archive, archive⟩
    · exact ⟨.state, state⟩
    · exact ⟨.native, native⟩
  · rintro ⟨slot, member⟩
    cases slot with
    | archive => exact .inl (.inl member)
    | state => exact .inl (.inr member)
    | native => exact .inr member

end NodexProxy.Lb
