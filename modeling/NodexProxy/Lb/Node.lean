import NodexProxy.Discovery.Types

/-! Load-balanced nodes and the selector pools that hold them. Identity fields of a
node never change after construction; `updateFrom` refreshes the rest in place. -/

namespace NodexProxy.Lb

open NodexProxy.Foundation NodexProxy.Discovery

structure Node where
  key : Bytes
  ip : Bytes
  port : Int
  addr : Bytes
  source : Bytes
  weight : Int
  stateType : Int
  nodeType : Int
deriving DecidableEq, Repr

def stateAvailable : Int := 1

def sourceNative : Bytes := ascii "native"

/-- `WithSource`: an empty source is stored as official. -/
def withSource (source : Bytes) (node : Node) : Node :=
  { node with source := if source = [] then ascii "official" else source }

/-- `lbnode.New` with the one option its callers pass. `proxied` is whether hertz
builds a reverse proxy for the target URL; without one the constructor fails. -/
def Node.new (proxied : Bytes → Bool) (key ip : Bytes) (port weight nodeType : Int)
    (source : Bytes) : Option Node :=
  let node : Node := withSource source
    { key, ip, port, addr := ip ++ ascii ":" ++ itoa port, source := []
      weight := if weight ≤ 0 then 1 else weight, stateType := 0, nodeType }
  if proxied (ascii "http://" ++ node.addr) then some node else none

def Node.setState (node : Node) (state : Int) : Node := { node with stateType := state }

def Node.available (node : Node) : Bool := node.stateType == stateAvailable

def Node.native (node : Node) : Bool := node.source == sourceNative

def Node.updateFrom (node other : Node) : Node :=
  { node with weight := other.weight, stateType := other.stateType }

/-- A node of the same key is refreshed in place when its identity is unchanged and
replaced otherwise; a new key is appended. -/
def upsertInto : List Node → Node → List Node
  | [], node => [node]
  | existing :: rest, node =>
    if existing.key = node.key then
      (if existing.addr = node.addr ∧ existing.source = node.source ∧
          existing.nodeType = node.nodeType then existing.updateFrom node
        else node) :: rest
    else existing :: upsertInto rest node

section New

variable {proxied : Bytes → Bool} {key ip source : Bytes} {port weight nodeType : Int} {node : Node}

/-- What `lbnode.New` copies from its arguments. -/
theorem Node.new_some (built : Node.new proxied key ip port weight nodeType source = some node) :
    node.key = key ∧ node.nodeType = nodeType ∧
      node.source = (if source = [] then ascii "official" else source) := by
  unfold Node.new at built
  obtain ⟨_, same⟩ := Option.ite_none_right_eq_some.mp built
  cases same
  exact ⟨rfl, rfl, rfl⟩

/-- The constructor's default source does not make a node native. -/
theorem Node.new_native (built : Node.new proxied key ip port weight nodeType source = some node) :
    node.native = (source == sourceNative) := by
  obtain ⟨_, _, sourceEq⟩ := Node.new_some built
  simp only [Node.native, sourceEq]
  split
  · rename_i empty
    subst source
    decide
  · rfl

end New

@[simp] theorem Node.setState_key (node : Node) : (node.setState state).key = node.key := rfl

@[simp] theorem Node.setState_native (node : Node) : (node.setState state).native = node.native := rfl

@[simp] theorem Node.setState_source (node : Node) : (node.setState state).source = node.source := rfl

/-- Every entry after an upsert is either the upserted node, up to an in-place
refresh of an entry of the same identity, or an old entry of another key. -/
theorem mem_upsertInto (member : entry ∈ upsertInto nodes node) :
    (entry.key = node.key ∧ entry.source = node.source ∧ entry.nodeType = node.nodeType) ∨
      entry ∈ nodes := by
  induction nodes with
  | nil =>
    simp only [upsertInto, List.mem_singleton] at member
    subst entry
    exact .inl ⟨rfl, rfl, rfl⟩
  | cons existing rest ih =>
    simp only [upsertInto] at member
    split at member
    · rename_i same
      rcases List.mem_cons.mp member with head | tail
      · split at head
        · rename_i identity
          subst entry
          exact .inl ⟨same, identity.2.1, identity.2.2⟩
        · subst entry
          exact .inl ⟨rfl, rfl, rfl⟩
      · exact .inr (List.mem_cons_of_mem _ tail)
    · rcases List.mem_cons.mp member with head | tail
      · exact .inr (by simp [head])
      · rcases ih tail with upserted | old
        · exact .inl upserted
        · exact .inr (List.mem_cons_of_mem _ old)

/-- The entry that `upsertInto` leaves for the key, changed or replaced. -/
theorem key_of_upserted {existing node : Node} (same : existing.key = node.key) :
    (if existing.addr = node.addr ∧ existing.source = node.source ∧
      existing.nodeType = node.nodeType then existing.updateFrom node else node).key = node.key := by
  split_ifs
  · exact same
  · rfl

theorem upsertInto_keys (nodes : List Node) (node : Node) :
    (upsertInto nodes node).map Node.key =
      if node.key ∈ nodes.map Node.key then nodes.map Node.key
      else nodes.map Node.key ++ [node.key] := by
  induction nodes with
  | nil => simp [upsertInto]
  | cons existing rest ih =>
    simp only [upsertInto]
    by_cases same : existing.key = node.key
    · simp [same, key_of_upserted same]
    · simp only [same, if_false, List.map_cons, ih, List.mem_cons, Ne.symm same, false_or]
      split <;> simp

theorem upsertInto_nodup (distinct : (nodes.map Node.key).Nodup) (node : Node) :
    ((upsertInto nodes node).map Node.key).Nodup := by
  rw [upsertInto_keys]
  split
  · exact distinct
  · rename_i fresh
    rw [List.nodup_append]
    refine ⟨distinct, by simp, ?_⟩
    intro key member other last
    rw [List.mem_singleton.mp last]
    exact fun same => fresh (same ▸ member)

end NodexProxy.Lb
