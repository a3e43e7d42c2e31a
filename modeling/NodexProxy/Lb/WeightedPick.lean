import NodexProxy.Foundation.Machine
import NodexProxy.Foundation.Weighted
import NodexProxy.Lb.GatewaySwitch

/-! The weighted draw of `GetNode` as the machine runs it: weights are summed in 64-bit words,
which wrap around, and the random source panics on a bound that is not positive. -/

namespace NodexProxy.Lb

open NodexProxy.Foundation NodexProxy.Discovery

/-- `RangeRandom` over a source that yields the given number. -/
def rangeRandom (draw : Nat) (low high : Int64) : Overflowing (Checked Int64) := do
  let width ← Overflowing.sub high low
  match int63n draw width.toInt with
  | .error fault => pure (.error fault)
  | .ok offset => do
    let target ← Overflowing.add (Int64.ofInt offset) low
    pure (.ok target)

/-- The second loop: the first node whose running sum passes the target, and its position. -/
def selectAt (weight : Node → Int64) (target : Int64) :
    Nat → Int64 → List Node → Overflowing (Option (Nat × Node))
  | _, _, [] => pure none
  | position, curWeight, node :: rest => do
    let curWeight ← Overflowing.add curWeight (weight node)
    if curWeight > target then pure (some (position, node))
    else selectAt weight target (position + 1) curWeight rest

/-- What a call returns, and the position of the candidate it chose. -/
@[ext] structure Selected where
  outcome : Outcome
  position : Option Nat
deriving DecidableEq

/-- `GetNodeCall.weigh` in machine words. -/
def GetNodeCall.weighWords (call : GetNodeCall) (weight : Node → Int64) (nodes : List Node) :
    Overflowing Selected := do
  let weightSum ← Overflowing.sum 0 (nodes.map weight)
  if weightSum = 0 then pure ⟨call.zeroWeight, none⟩
  else
    match ← rangeRandom call.draw 0 weightSum with
    | .error fault => pure ⟨.error fault, none⟩
    | .ok targetWeight =>
      match ← selectAt weight targetWeight 0 0 nodes with
      | some (position, node) => pure ⟨.ok (.ok node), some position⟩
      | none => pure ⟨call.notSelected, none⟩

/-- `GetNodeCall.under` in machine words. -/
def GetNodeCall.select (call : GetNodeCall) (strategy : GatewayStrategy) : Overflowing Selected :=
  match call.filter strategy with
  | .inr outcome => pure ⟨outcome, none⟩
  | .inl nodes =>
    call.weighWords (fun node => Int64.ofInt (strategy.nodeWeight call.chainId node)) nodes

/-- The nodes left after picking and method filtering. -/
def GetNodeCall.candidates (call : GetNodeCall) (strategy : GatewayStrategy) : List Node :=
  if call.isBatch then call.picked
  else strategy.filterNodesByMethod call.chainId call.method call.picked

theorem GetNodeCall.filter_cases (call : GetNodeCall) (strategy : GatewayStrategy) :
    (call.candidates strategy = [] ∧ ∃ reason, call.filter strategy = .inr (call.fail reason)) ∨
      (call.candidates strategy ≠ [] ∧
        call.filter strategy = .inl (call.candidates strategy)) := by
  unfold GetNodeCall.filter GetNodeCall.candidates
  by_cases empty : call.picked = []
  · have left : strategy.filterNodesByMethod call.chainId call.method [] = [] :=
      List.subset_nil.mp (filterNodesByMethod_subset _ _ _ _)
    refine .inl ⟨?_, _, if_pos empty⟩
    rw [empty, left, ite_self]
  · cases call.isBatch with
    | true => exact .inr ⟨by simpa using empty, by simp [empty]⟩
    | false =>
      by_cases none : strategy.filterNodesByMethod call.chainId call.method call.picked = []
      · refine .inl ⟨by simpa using none,
          ascii "no nodes available after method filter for method " ++ call.method, ?_⟩
        simp only [empty, none, Bool.false_eq_true, if_false, if_true]
        rfl
      · exact .inr ⟨by simpa using none, by simp [empty, none]⟩

section Words

variable {weight : Node → Int64} {nodes : List Node}

theorem rangeRandom_zero (draw : Nat) (high : Int64) :
    (rangeRandom draw 0 high).Ensures fun result =>
      result.map Int64.toInt = int63n draw high.toInt := by
  refine .seq (Overflowing.sub_ensures ?_) fun width same => ?_
  · simpa using fits_toInt high
  rw [Int64.toInt_zero, sub_zero] at same
  rw [same]
  unfold int63n
  split_ifs with nonpositive
  · exact .ret rfl
  · -- the number drawn is below the bound, which is itself a word
    have offset : Fits ((draw : Int) % high.toInt) := by
      have low := Int.emod_nonneg (draw : Int) (by omega : high.toInt ≠ 0)
      have high_ := Int.emod_lt_of_pos (draw : Int) (by omega : 0 < high.toInt)
      have bound := fits_toInt high
      unfold Fits at bound ⊢
      omega
    refine .seq (Overflowing.add_ensures ?_) fun target sum => .ret ?_
    · simpa [toInt_ofInt_of_fits offset] using offset
    · rw [toInt_ofInt_of_fits offset, Int64.toInt_zero, add_zero] at sum
      exact congrArg Except.ok sum

/-- The second loop is the choice by weight as long as no partial sum wraps. -/
theorem selectAt_ensures {target curWeight : Int64} (position : Nat)
    (fits : Overflowing.SumsFit curWeight.toInt ((nodes.map weight).map Int64.toInt)) :
    (selectAt weight target position curWeight nodes).Ensures fun found =>
      found = (choose target.toInt curWeight.toInt ((nodes.map weight).map Int64.toInt)).bind
        fun index => nodes[index]?.map fun node => (position + index, node) := by
  induction nodes generalizing position curWeight with
  | nil => exact .ret rfl
  | cons node rest inductionHypothesis =>
    simp only [List.map_cons, Overflowing.sumsFit_cons] at fits
    refine .seq (Overflowing.add_ensures fits.2.start_fits) fun next same => ?_
    simp only [List.map_cons, choose, ← same]
    by_cases passes : next > target
    · rw [if_pos passes, if_pos (Int64.lt_iff_toInt_lt.mp passes)]
      exact .ret rfl
    · rw [if_neg passes, if_neg (Int64.lt_iff_toInt_lt.not.mp passes)]
      obtain ⟨exactly, found⟩ := inductionHypothesis (position + 1) (same ▸ fits.2)
      refine ⟨exactly, found.trans ?_⟩
      simp only [Option.bind_map, Function.comp_def, List.getElem?_cons_succ]
      congr 1
      funext index
      rw [Nat.add_right_comm, Nat.add_assoc]

end Words

theorem selectByWeight_eq_choose (weight : Node → Int) (target current : Int)
    (nodes : List Node) : selectByWeight weight target current nodes =
      (choose target current (nodes.map weight)).bind (nodes[·]?) := by
  induction nodes generalizing current with
  | nil => rfl
  | cons node rest inductionHypothesis =>
    simp only [selectByWeight, List.map_cons, choose]
    split_ifs
    · rfl
    · rw [inductionHypothesis, Option.bind_map]
      rfl

/-- The position drawn: none for a total that is not positive. -/
def GetNodeCall.drawn (call : GetNodeCall) (weights : List Int) : Option Nat :=
  if weights.sum ≤ 0 then none else choose (call.draw % weights.sum) 0 weights

/-- As long as no partial sum wraps, the machine weighs as the integers do. -/
theorem GetNodeCall.weighWords_ensures (call : GetNodeCall) {weight : Node → Int}
    {nodes : List Node} (words : ∀ node ∈ nodes, Fits (weight node))
    (fits : Overflowing.SumsFit 0 (nodes.map weight)) :
    (call.weighWords (fun node => Int64.ofInt (weight node)) nodes).Ensures fun selected =>
      selected.outcome = call.weigh weight nodes ∧
        selected.position = call.drawn (nodes.map weight) := by
  have same : (nodes.map fun node => Int64.ofInt (weight node)).map Int64.toInt =
      nodes.map weight := by
    rw [List.map_map]
    exact List.map_congr_left fun node member => toInt_ofInt_of_fits (words node member)
  rw [← same, ← Int64.toInt_zero] at fits
  unfold GetNodeCall.weighWords GetNodeCall.weigh GetNodeCall.drawn
  refine .seq (Overflowing.sum_ensures fits) fun weightSum total => ?_
  rw [same, Int64.toInt_zero, zero_add] at total
  rw [← total]
  have zero_iff : weightSum = 0 ↔ weightSum.toInt = 0 := Int64.toInt_inj.symm
  by_cases zero : weightSum = 0
  · rw [if_pos zero]
    exact .ret ⟨(if_pos (zero_iff.mp zero)).symm, (if_pos (zero_iff.mp zero).le).symm⟩
  · rw [if_neg zero]
    simp only [zero_iff.not.mp zero, if_false]
    refine .seq (rangeRandom_zero call.draw weightSum) fun result drawn => ?_
    unfold int63n at drawn ⊢
    split_ifs at drawn ⊢ with nonpositive
    · cases result with
      | ok target => cases drawn
      | error fault =>
        cases drawn
        exact .ret ⟨rfl, rfl⟩
    · cases result with
      | error fault => cases drawn
      | ok targetWeight =>
        have target : targetWeight.toInt = call.draw % weightSum.toInt := Except.ok.inj drawn
        refine .seq (selectAt_ensures 0 fits) fun found chosen => ?_
        rw [same, target, Int64.toInt_zero] at chosen
        rw [Checked.ok_bind, selectByWeight_eq_choose]
        cases picked : choose (call.draw % weightSum.toInt) 0 (nodes.map weight) with
        | none =>
          rw [picked] at chosen
          subst found
          exact .ret ⟨rfl, rfl⟩
        | some index =>
          have inside : index < nodes.length := by
            simpa using lt_length_of_choose picked
          rw [picked, Option.bind_some, List.getElem?_eq_getElem inside, Nat.zero_add] at chosen
          subst found
          rw [Option.bind_some, List.getElem?_eq_getElem inside]
          exact .ret ⟨rfl, rfl⟩

/-- The call panics exactly on a negative total. -/
theorem GetNodeCall.weigh_ok_iff (call : GetNodeCall) (weight : Node → Int) (nodes : List Node) :
    (∃ result, call.weigh weight nodes = .ok result) ↔ 0 ≤ (nodes.map weight).sum := by
  unfold GetNodeCall.weigh
  dsimp only
  rcases lt_trichotomy (nodes.map weight).sum 0 with negative | zero | positive
  · refine iff_of_false ?_ (not_le.mpr negative)
    rintro ⟨result, returned⟩
    rw [if_neg negative.ne, int63n, if_pos negative.le] at returned
    cases returned
  · rw [if_pos zero]
    exact iff_of_true ⟨_, rfl⟩ zero.ge
  · rw [if_neg positive.ne', int63n, if_neg (not_le.mpr positive), Checked.ok_bind]
    refine iff_of_true ?_ positive.le
    cases selectByWeight weight (call.draw % (nodes.map weight).sum) 0 nodes with
    | none => exact ⟨_, rfl⟩
    | some node => exact ⟨_, rfl⟩

/-- A call under weights that are machine words is exact and returns exactly when every partial
sum over the candidates is a word and the total is not negative. -/
theorem GetNodeCall.select_returns_iff (call : GetNodeCall) {strategy : GatewayStrategy}
    (words : ∀ node, Fits (strategy.nodeWeight call.chainId node)) :
    ((call.select strategy).exact = true ∧
        ∃ result, (call.select strategy).value.outcome = .ok result) ↔
      Overflowing.SumsFit 0 ((call.candidates strategy).map (strategy.nodeWeight call.chainId)) ∧
        0 ≤ ((call.candidates strategy).map (strategy.nodeWeight call.chainId)).sum := by
  unfold GetNodeCall.select
  rcases call.filter_cases strategy with ⟨empty, reason, filtered⟩ | ⟨_, filtered⟩
  · rw [filtered, empty]
    refine iff_of_true ⟨rfl, _, rfl⟩ ⟨fun initial inside => ?_, le_rfl⟩
    rw [List.prefix_nil.mp inside]
    decide
  · rw [filtered]
    dsimp only
    constructor
    · rintro ⟨exactly, result, returned⟩
      have fits := Overflowing.sum_exact_iff.mp (Overflowing.exact_of_bind exactly).1
      have same : ((call.candidates strategy).map fun node =>
          Int64.ofInt (strategy.nodeWeight call.chainId node)).map Int64.toInt =
          (call.candidates strategy).map (strategy.nodeWeight call.chainId) := by
        rw [List.map_map]
        exact List.map_congr_left fun node _ => toInt_ofInt_of_fits (words node)
      rw [same, Int64.toInt_zero] at fits
      refine ⟨fits, (call.weigh_ok_iff _ _).mp ⟨result, ?_⟩⟩
      rw [← (call.weighWords_ensures (fun node _ => words node) fits).2.1, returned]
    · rintro ⟨fits, nonneg⟩
      obtain ⟨exactly, outcome, _⟩ := call.weighWords_ensures (fun node _ => words node) fits
      refine ⟨exactly, ?_⟩
      rw [outcome]
      exact (call.weigh_ok_iff _ _).mpr nonneg

section Gateway

variable {strategy : GatewayStrategy} {gateway : GatewayBody} {chainId : Bytes}

theorem lookup_foldl_insert {weights : List WeightInfo} {table : Assoc Bytes Int}
    (found : (weights.foldl (fun table info => table.insert info.nodeKey info.weight) table).lookup
      key = some weight) :
    (∃ info ∈ weights, info.weight = weight) ∨ table.lookup key = some weight := by
  induction weights generalizing table with
  | nil => exact .inr found
  | cons info rest inductionHypothesis =>
    rcases inductionHypothesis found with ⟨later, member, same⟩ | before
    · exact .inl ⟨later, List.mem_cons_of_mem _ member, same⟩
    · rcases Assoc.lookup_insert_cases before with ⟨_, same⟩ | ⟨_, old⟩
      · exact .inl ⟨info, by simp, same.symm⟩
      · exact .inr old

/-- After an update every node has a listed weight or the default. -/
theorem fits_nodeWeight (words : ∀ info ∈ gateway.weights, Fits info.weight) (node : Node) :
    Fits ((strategy.updateGateway chainId gateway).nodeWeight chainId node) := by
  simp only [GatewayStrategy.nodeWeight, GatewayStrategy.updateGateway, AList.lookup_insert,
    Option.bind_some]
  cases found : (weightTable gateway.weights).lookup node.key with
  | none => decide
  | some weight =>
    rcases lookup_foldl_insert found with ⟨info, member, rfl⟩ | absent
    · exact words info member
    · cases absent

end Gateway

/-- After any update of a chain's gateway, a call for the chain returns a node or an error
without its weights having wrapped around exactly when every partial sum of the candidates'
weights is a word and their total is not negative. -/
theorem getNode_safe_iff (strategy : GatewayStrategy) (gateway : GatewayBody)
    (call : GetNodeCall) (words : ∀ info ∈ gateway.weights, Fits info.weight) :
    ((call.select (strategy.updateGateway call.chainId gateway)).exact = true ∧
        ∃ result, (call.select (strategy.updateGateway call.chainId gateway)).value.outcome =
          .ok result) ↔
      Overflowing.SumsFit 0
          ((call.candidates (strategy.updateGateway call.chainId gateway)).map
            ((strategy.updateGateway call.chainId gateway).nodeWeight call.chainId)) ∧
        0 ≤ ((call.candidates (strategy.updateGateway call.chainId gateway)).map
          ((strategy.updateGateway call.chainId gateway).nodeWeight call.chainId)).sum :=
  call.select_returns_iff (fits_nodeWeight words)

/-- Weights the admin API would refuse, as another writer may store them. -/
def negativeGateway : GatewayBody := ⟨[⟨ascii "a", -1⟩], none⟩

def evenGateway : GatewayBody := ⟨[⟨ascii "a", 50⟩, ⟨ascii "b", 50⟩], none⟩

theorem getNode_safe_even :
    (switchCall.select (GatewayStrategy.new.updateGateway switchCall.chainId evenGateway)).exact =
        true ∧
      ∃ result, (switchCall.select
        (GatewayStrategy.new.updateGateway switchCall.chainId evenGateway)).value.outcome =
          .ok result := by
  refine (getNode_safe_iff .new evenGateway switchCall (by decide)).mpr ⟨?_, by decide +kernel⟩
  exact (@Overflowing.sum_exact_iff 0 [50, 50]).mp (by decide +kernel)

/-- Two weights that wrap the sum around to a small positive one. -/
def wrappingGateway : GatewayBody :=
  ⟨[⟨ascii "a", 9223372036854775807⟩, ⟨ascii "b", 9223372036854775807⟩], none⟩

/-- A negative weight makes the random source panic on every call for the chain, and large ones
wrap around without the call noticing. -/
theorem getNode_unsafe_on_unchecked_weights :
    ({ switchCall with picked := [switchNode "a"] }.select
        (GatewayStrategy.new.updateGateway switchCall.chainId negativeGateway)).value.outcome =
          .error .badArgument ∧
      ({ switchCall with picked := [switchNode "a", switchNode "b", switchNode "c"] }.select
        (GatewayStrategy.new.updateGateway switchCall.chainId wrappingGateway)).exact = false := by
  decide +kernel

section Range

/-- The weights of a chain are ones the admin API accepts. -/
def GatewayStrategy.InRange (strategy : GatewayStrategy) (chainId : Bytes) : Prop :=
  ∀ weights, strategy.weightMap.lookup chainId = some weights →
    ∀ key weight, weights.lookup key = some weight → 0 ≤ weight ∧ weight ≤ 100

/-- A slice of pointers takes eight bytes an item out of an address space of 48 bits. -/
def Addressable (nodes : List Node) : Prop := nodes.length * 8 ≤ 2 ^ 48

/-- The rule of a method route: only included nodes, or else all but the excluded ones. -/
def RouteAdmits (routes : MethodRoute) (node : Node) : Prop :=
  if 0 < keyCount routes.includeNodeKeys then listed routes.includeNodeKeys node = true
  else if 0 < keyCount routes.excludeNodeKeys then listed routes.excludeNodeKeys node = false
  else True

def GatewayStrategy.Admits (strategy : GatewayStrategy) (chainId method : Bytes) (node : Node) :
    Prop :=
  ∀ routes, (strategy.methodRouteMap.lookup chainId).bind (fun routes => routes.lookup method) =
    some routes → RouteAdmits routes node

variable {strategy : GatewayStrategy}

theorem nodeWeight_inRange (range : strategy.InRange chainId) (node : Node) :
    0 ≤ strategy.nodeWeight chainId node ∧ strategy.nodeWeight chainId node ≤ 100 := by
  unfold GatewayStrategy.nodeWeight
  cases found : (strategy.weightMap.lookup chainId).bind fun weights => weights.lookup node.key with
  | none => decide
  | some weight =>
    obtain ⟨weights, listed, found⟩ := Option.bind_eq_some_iff.mp found
    exact range weights listed node.key weight found

/-- A gateway value the admin API accepts leaves the chain's weights in range. -/
theorem inRange_updateGateway {gateway : GatewayBody}
    (range : ∀ info ∈ gateway.weights, 0 ≤ info.weight ∧ info.weight ≤ 100) (chainId : Bytes) :
    (strategy.updateGateway chainId gateway).InRange chainId := by
  intro weights published key weight found
  rw [GatewayStrategy.updateGateway, AList.lookup_insert] at published
  cases published
  rcases lookup_foldl_insert found with ⟨info, member, rfl⟩ | absent
  · exact range info member
  · cases absent

theorem mem_filterNodesByMethod {nodes : List Node}
    (kept : node ∈ strategy.filterNodesByMethod chainId method nodes) :
    node ∈ nodes ∧ strategy.Admits chainId method node := by
  refine ⟨filterNodesByMethod_subset _ _ _ _ kept, fun routes found => ?_⟩
  rw [GatewayStrategy.filterNodesByMethod, found] at kept
  unfold applyMethodRoutes at kept
  unfold RouteAdmits
  dsimp only at kept
  split_ifs at kept ⊢
  · exact (List.mem_filter.mp kept).2
  · simpa using (List.mem_filter.mp kept).2

theorem GetNodeCall.mem_candidates {call : GetNodeCall} (member : node ∈ call.candidates strategy) :
    node ∈ call.picked ∧ (call.isBatch = false → strategy.Admits call.chainId call.method node) := by
  unfold GetNodeCall.candidates at member
  cases batch : call.isBatch with
  | true =>
    rw [batch] at member
    exact ⟨member, nofun⟩
  | false =>
    rw [batch] at member
    obtain ⟨picked, admitted⟩ := mem_filterNodesByMethod member
    exact ⟨picked, fun _ => admitted⟩

/-- Weights in range cannot wrap over a slice that fits into memory. -/
theorem sumsFit_of_range {weight : Node → Int}
    (range : ∀ node, 0 ≤ weight node ∧ weight node ≤ 100) {nodes : List Node}
    (addressable : Addressable nodes) : Overflowing.SumsFit 0 (nodes.map weight) := by
  intro initial inside
  have every : ∀ number ∈ initial, 0 ≤ number ∧ number ≤ 100 := by
    intro number member
    obtain ⟨node, _, rfl⟩ := List.mem_map.mp (inside.subset member)
    exact range node
  have low : 0 ≤ initial.sum := List.sum_nonneg fun number member => (every number member).1
  have high : initial.sum ≤ initial.length • (100 : Int) :=
    List.sum_le_card_nsmul _ _ fun number member => (every number member).2
  have short : initial.length ≤ nodes.length := by simpa using inside.length_le
  unfold Addressable at addressable
  simp only [nsmul_eq_mul] at high
  unfold Fits
  omega

/-- With a positive total the draw yields a node of positive weight. -/
theorem GetNodeCall.weigh_of_pos (call : GetNodeCall) {weight : Node → Int} {nodes : List Node}
    (nonneg : ∀ node, 0 ≤ weight node) (positive : 0 < (nodes.map weight).sum) :
    ∃ index node, nodes[index]? = some node ∧ 0 < weight node ∧
      call.weigh weight nodes = .ok (.ok node) ∧ call.drawn (nodes.map weight) = some index := by
  have weights : ∀ number ∈ nodes.map weight, 0 ≤ number := by
    intro number member
    obtain ⟨node, _, rfl⟩ := List.mem_map.mp member
    exact nonneg node
  have start : 0 ≤ (call.draw : Int) % (nodes.map weight).sum := Int.emod_nonneg _ positive.ne'
  have below : (call.draw : Int) % (nodes.map weight).sum < 0 + (nodes.map weight).sum := by
    rw [zero_add]
    exact Int.emod_lt_of_pos _ positive
  obtain ⟨index, chosen⟩ := Option.isSome_iff_exists.mp (choose_isSome start below)
  obtain ⟨number, here, low, high⟩ := (choose_eq_some_iff weights start).mp chosen
  rw [List.getElem?_map] at here
  obtain ⟨node, found, rfl⟩ := Option.map_eq_some_iff.mp here
  refine ⟨index, node, found, by omega, ?_, ?_⟩
  · simp only [GetNodeCall.weigh, int63n, positive.ne', not_le.mpr positive, if_false]
    rw [Checked.ok_bind, selectByWeight_eq_choose, chosen, Option.bind_some, found]
  · rw [GetNodeCall.drawn, if_neg (not_le.mpr positive), chosen]

theorem GetNodeCall.fail_ne_notSelected (call : GetNodeCall) {strategy : GatewayStrategy}
    (filtered : call.filter strategy = .inr outcome) : outcome ≠ call.notSelected := by
  unfold GetNodeCall.filter at filtered
  dsimp only at filtered
  split_ifs at filtered <;> cases filtered
  · simp [noNodes, notSelected, fail, ascii]
  · simp [noNodesAfterFilter, notSelected, fail, ascii]

theorem GetNodeCall.select_of_empty (call : GetNodeCall)
    (empty : call.candidates strategy = []) :
    ∃ reason, call.select strategy = pure ⟨call.fail reason, none⟩ ∧
      call.fail reason ≠ call.notSelected := by
  rcases call.filter_cases strategy with ⟨_, reason, filtered⟩ | ⟨present, _⟩
  · exact ⟨reason, by rw [GetNodeCall.select, filtered], call.fail_ne_notSelected filtered⟩
  · exact absurd empty present

theorem GetNodeCall.select_of_present (call : GetNodeCall) (range : strategy.InRange call.chainId)
    (addressable : Addressable (call.candidates strategy))
    (present : call.candidates strategy ≠ []) :
    (call.select strategy).Ensures fun selected =>
      selected.outcome =
        call.weigh (strategy.nodeWeight call.chainId) (call.candidates strategy) ∧
      selected.position =
        call.drawn ((call.candidates strategy).map (strategy.nodeWeight call.chainId)) := by
  have bounds := nodeWeight_inRange range
  rcases call.filter_cases strategy with ⟨empty, _⟩ | ⟨_, filtered⟩
  · exact absurd empty present
  · rw [GetNodeCall.select, filtered]
    refine call.weighWords_ensures (fun node _ => ?_) (sumsFit_of_range bounds addressable)
    have := bounds node
    unfold Fits
    omega

theorem nodeWeights_nonneg (range : strategy.InRange chainId) (nodes : List Node) :
    ∀ weight ∈ nodes.map (strategy.nodeWeight chainId), 0 ≤ weight := by
  intro weight member
  obtain ⟨node, _, rfl⟩ := List.mem_map.mp member
  exact (nodeWeight_inRange range node).1

/-- A selection with a positive total yields a candidate of positive weight. -/
theorem GetNodeCall.select_of_positive (call : GetNodeCall) (range : strategy.InRange call.chainId)
    (addressable : Addressable (call.candidates strategy))
    (positive : 0 < ((call.candidates strategy).map (strategy.nodeWeight call.chainId)).sum) :
    ∃ index node, (call.candidates strategy)[index]? = some node ∧
      0 < strategy.nodeWeight call.chainId node ∧
      (call.select strategy).value = ⟨.ok (.ok node), some index⟩ := by
  have present : call.candidates strategy ≠ [] := by
    intro empty
    simp [empty] at positive
  obtain ⟨-, outcome, position⟩ := call.select_of_present range addressable present
  obtain ⟨index, node, found, heavy, weighed, drawn⟩ :=
    call.weigh_of_pos (fun node => (nodeWeight_inRange range node).1) positive
  exact ⟨index, node, found, heavy, Selected.ext (outcome.trans weighed) (position.trans drawn)⟩

/-- The draws below the total that choose a position are as many as its weight says. -/
theorem card_drawn (call : GetNodeCall) {weights : List Int}
    (nonneg : ∀ weight ∈ weights, 0 ≤ weight) (positive : 0 < weights.sum)
    (here : weights[index]? = some weight) :
    (((Finset.range weights.sum.toNat).filter fun draw =>
      { call with draw }.drawn weights = some index).card : Int) = weight := by
  rw [← card_choose nonneg here]
  congr 2
  refine Finset.filter_congr fun draw inside => ?_
  have below : (draw : Int) < weights.sum := by
    have := Finset.mem_range.mp inside
    omega
  rw [GetNodeCall.drawn, if_neg (not_le.mpr positive),
    Int.emod_eq_of_lt (Int.natCast_nonneg draw) below]

/-- Weighted selection is exact: over the draws below the total, each candidate is chosen as
often as its weight says. -/
theorem getNode_weighted (call : GetNodeCall) (strategy : GatewayStrategy)
    (range : strategy.InRange call.chainId)
    (addressable : Addressable (call.candidates strategy)) :
    (∀ draw, (∃ error, ({ call with draw }.select strategy).value.outcome = .ok (.error error)) ↔
      call.candidates strategy = [] ∨
        ((call.candidates strategy).map (strategy.nodeWeight call.chainId)).sum = 0) ∧
    (((call.candidates strategy).map (strategy.nodeWeight call.chainId)).sum ≠ 0 →
      (∀ index node, (call.candidates strategy)[index]? = some node →
        (((Finset.range ((call.candidates strategy).map
            (strategy.nodeWeight call.chainId)).sum.toNat).filter fun draw =>
          ({ call with draw }.select strategy).value.position = some index).card : Int) =
            strategy.nodeWeight call.chainId node) ∧
      ∀ draw, ∃ index node, (call.candidates strategy)[index]? = some node ∧
        ({ call with draw }.select strategy).value = ⟨.ok (.ok node), some index⟩ ∧
        0 < strategy.nodeWeight call.chainId node ∧ node ∈ call.picked ∧
        (call.isBatch = false → strategy.Admits call.chainId call.method node)) ∧
    (∀ draw, ({ call with draw }.select strategy).exact = true ∧
      ({ call with draw }.select strategy).value.outcome ≠ call.notSelected) := by
  have nonneg := nodeWeights_nonneg range (call.candidates strategy)
  by_cases empty : call.candidates strategy = []
  · have refused := fun draw => { call with draw }.select_of_empty empty
    refine ⟨fun draw => ?_, fun some => absurd (by simp [empty]) some, fun draw => ?_⟩
    · obtain ⟨reason, same, _⟩ := refused draw
      rw [same]
      exact iff_of_true ⟨_, rfl⟩ (.inl empty)
    · obtain ⟨reason, same, other⟩ := refused draw
      rw [same]
      exact ⟨rfl, other⟩
  have ran := fun draw => { call with draw }.select_of_present range addressable empty
  rcases (List.sum_nonneg nonneg).eq_or_lt' with zero | positive
  · have refused : ∀ draw, ({ call with draw }.select strategy).value.outcome =
        call.zeroWeight := fun draw => (ran draw).2.1.trans (if_pos zero)
    refine ⟨fun draw => ?_, fun some => absurd zero some, fun draw => ⟨(ran draw).1, ?_⟩⟩
    · rw [refused]
      exact iff_of_true ⟨_, rfl⟩ (.inr zero)
    · rw [refused]
      simp [GetNodeCall.zeroWeight, GetNodeCall.notSelected, GetNodeCall.fail, ascii]
  · have chosen := fun draw => { call with draw }.select_of_positive range addressable positive
    refine ⟨fun draw => ?_, fun _ => ⟨fun index node found => ?_, fun draw => ?_⟩,
      fun draw => ⟨(ran draw).1, ?_⟩⟩
    · obtain ⟨index, node, _, _, same⟩ := chosen draw
      rw [same]
      exact iff_of_false (by simp) (by simp [empty, positive.ne'])
    · have here : ((call.candidates strategy).map (strategy.nodeWeight call.chainId))[index]? =
          some (strategy.nodeWeight call.chainId node) := by rw [List.getElem?_map, found]; rfl
      rw [← card_drawn call nonneg positive here]
      congr 2
      exact Finset.filter_congr fun draw _ => by rw [(ran draw).2.2]; rfl
    · obtain ⟨index, node, found, heavy, same⟩ := chosen draw
      obtain ⟨picked, admitted⟩ := GetNodeCall.mem_candidates (List.mem_of_getElem? found)
      exact ⟨index, node, found, same, heavy, picked, admitted⟩
    · obtain ⟨index, node, _, _, same⟩ := chosen draw
      rw [same]
      simp [GetNodeCall.notSelected, GetNodeCall.fail]

end Range

/-- Half of the draws choose the first of two nodes of the same weight. -/
theorem getNode_weighted_even :
    (((Finset.range 100).filter fun draw => ({ switchCall with draw }.select
      (GatewayStrategy.new.updateGateway switchCall.chainId evenGateway)).value.position =
        some 0).card : Int) = 50 :=
  ((getNode_weighted switchCall (GatewayStrategy.new.updateGateway switchCall.chainId evenGateway)
    (inRange_updateGateway (by decide) _) (by unfold Addressable; decide +kernel)).2.1
      (by decide +kernel)).1 0 (switchNode "a") (by decide +kernel)

end NodexProxy.Lb
