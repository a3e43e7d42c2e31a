import NodexProxy.Jsonrpc.Reference

/-! Which argument of a request names its block. The params are walked up to that argument only;
large ones are left to `sonic`'s path lookup, which stays a parameter. -/

namespace NodexProxy.Lb

open NodexProxy.Foundation NodexProxy.Foundation.Json NodexProxy.Jsonscan

inductive ArgumentError where
  | malformedParams
  | sonic
deriving DecidableEq, Repr

def nativeSkipThreshold : Nat := 8 * 1024

/-- `sonic.GetWithOptions` for index 1: nothing where the lookup fails, else what `Raw` gives. -/
abbrev SecondLookup := Bytes → Option (Except ArgumentError Bytes)

/-- The variables of the walk: how many arguments there were, the bounds of the last one and
those of the second. -/
structure Walked where
  count : Nat
  last : Nat × Nat
  second : Nat × Nat

def visitArgument (stopAtSecond : Bool) (walked : Walked) (position start stop : Nat) :
    Checked (Walked × Bool) :=
  let walked := { walked with count := walked.count + 1, last := (start, stop) }
  if position = 1 then return ({ walked with second := (start, stop) }, !stopAtSecond)
  else return (walked, true)

/-- The walk of `blockContextArgument` over an array that starts at `index`. -/
def walkArguments (params : Bytes) (index : Nat) (second stopAtSecond : Bool) :
    Checked (Except ArgumentError (Bytes × Nat)) := do
  let (stop, walked) ← scanArray params index (visitArgument stopAtSecond) ⟨0, (0, 0), (0, 0)⟩
  match stop with
  | none => return .error .malformedParams
  | some stop =>
    if walked.count = 0 then return .ok ([], 0)
    else
      -- only a complete walk can tell trailing bytes apart
      let trailing ← if stopAtSecond && walked.count == 2 then pure false else do
        let behind ← skipSpace params stop
        pure (behind != params.length)
      if trailing then return .error .malformedParams
      else if second ∧ 1 < walked.count then
        let raw ← slice params walked.second.1 walked.second.2
        return .ok (raw, walked.count)
      else
        let raw ← slice params walked.last.1 walked.last.2
        return .ok (raw, walked.count)

/-- `blockContextArgument`, with the size above which the lookup is tried. -/
def blockContextArgumentAbove (threshold : Nat) (lookup : SecondLookup) (debug : Bool)
    (params : Bytes) (second : Bool) : Checked (Except ArgumentError (Bytes × Nat)) := do
  let index ← skipSpace params 0
  if params.length ≤ index then return .error .malformedParams
  else
    let byte ← read params index
    if byte ≠ 91 then
      let behind ← skipSpace params (index + 4)
      if behind = params.length ∧ ascii "null" <+: params.drop index then return .ok ([], 0)
      else return .error .malformedParams
    else
      let stopAtSecond := second && !debug
      match if stopAtSecond && decide (threshold < params.length) then lookup params else none with
      | some raw => return raw.map fun raw => (raw, 2)
      | none => walkArguments params index second stopAtSecond

def blockContextArgument (lookup : SecondLookup) (debug : Bool) (params : Bytes) (second : Bool) :
    Checked (Except ArgumentError (Bytes × Nat)) :=
  blockContextArgumentAbove nativeSkipThreshold lookup debug params second

/-- The lookup returns the text of the second element, and fails where there is none. -/
def FindsSecond (lookup : SecondLookup) : Prop :=
  ∀ params value elements, Document params value → IsArray rfc8259 value elements →
    lookup params = elements[1]?.map .ok

/-- The argument among the elements of the params, and the count reported with it. -/
def argumentOf (second debug : Bool) (elements : List Bytes) : Bytes × Nat :=
  match elements with
  | first :: next :: rest =>
    if second then (next, if debug then elements.length else 2)
    else ((first :: next :: rest).getLast (by simp), elements.length)
  | [only] => (only, 1)
  | [] => ([], 0)

section Walk

variable {params : Bytes}

def bounds (call : ElementCall) : Nat × Nat := (call.start, call.stop)

/-- Elements past the second only move the end of the walk. -/
theorem walk_later (stopAtSecond : Bool) (calls : List ElementCall)
    (later : ∀ call ∈ calls, call.position ≠ 1) (walked : Walked) :
    walk (visitElementCall (visitArgument stopAtSecond)) calls walked =
      .ok ({ walked with
        count := walked.count + calls.length
        last := (walked.last :: calls.map bounds).getLast (by simp) }, true) := by
  induction calls generalizing walked with
  | nil => rfl
  | cons call calls inductionHypothesis =>
    have other : call.position ≠ 1 := later call (by simp)
    simp only [walk, visitElementCall, visitArgument, if_neg other, Checked.pure_eq,
      Checked.ok_bind, if_true]
    rw [inductionHypothesis fun call listed => later call (List.mem_cons_of_mem _ listed)]
    simp [bounds, Nat.add_assoc, Nat.add_comm 1]

theorem slice_last {elements : List Bytes} :
    ∀ {element : Bytes} {call : ElementCall} {calls : List ElementCall} {position : Nat},
      List.Forall₂ (ElementCall.Cuts params) (call :: calls)
        ((element :: elements).zipIdx position) →
      slice params (((call :: calls).map bounds).getLast (by simp)).1
        (((call :: calls).map bounds).getLast (by simp)).2 =
          .ok ((element :: elements).getLast (by simp)) := by
  induction elements with
  | nil =>
    intro element call calls position cut
    cases cut with
    | cons first rest =>
      cases rest
      exact first.value
  | cons next elements inductionHypothesis =>
    intro element call calls position cut
    cases cut with
    | cons first rest =>
      cases rest with
      | cons second more => simpa using inductionHypothesis (.cons second more)

theorem skipSpace_end {text : Bytes} {index : Nat} (blank : Blank rest)
    (here : text.drop index = rest) (inside : index ≤ text.length) :
    skipSpace text index = .ok text.length := by
  have all : ∀ byte ∈ rest, isSpace byte = true :=
    fun byte member => (isSpace_eq byte).mpr (blank byte member)
  rw [skipSpace_eq, here, List.takeWhile_eq_self_iff.mpr all, ← here, List.length_drop]
  congr 1
  omega

theorem le_position {elements : List Bytes} {calls : List ElementCall} {position : Nat}
    (cut : List.Forall₂ (ElementCall.Cuts params) calls (elements.zipIdx position)) :
    ∀ call ∈ calls, position ≤ call.position := by
  induction elements generalizing calls position with
  | nil =>
    cases cut
    simp
  | cons element elements inductionHypothesis =>
    cases cut with
    | cons first rest =>
      intro call listed
      rcases List.mem_cons.mp listed with rfl | later
      · exact first.position.ge
      · exact Nat.le_of_succ_le (inductionHypothesis rest call later)

/-- The walk over two elements or more, by whether it stops at the second. -/
theorem walk_two {first second : ElementCall} {calls : List ElementCall}
    {element next : Bytes} {elements : List Bytes}
    (cut : List.Forall₂ (ElementCall.Cuts params) (first :: second :: calls)
      ((element :: next :: elements).zipIdx)) (stopAtSecond : Bool) :
    walk (visitElementCall (visitArgument stopAtSecond)) (first :: second :: calls)
        ⟨0, (0, 0), (0, 0)⟩ =
      if stopAtSecond then .ok (⟨2, bounds second, bounds second⟩, false)
      else .ok (⟨2 + calls.length, ((second :: calls).map bounds).getLast (by simp),
        bounds second⟩, true) := by
  cases cut with
  | cons atFirst rest =>
    cases rest with
    | cons atSecond more =>
      have later : ∀ call ∈ calls, call.position ≠ 1 := by
        intro call listed
        have := le_position more call listed
        omega
      have start : first.position = 0 := atFirst.position
      have middle : second.position = 1 := atSecond.position
      cases stopAtSecond with
      | true => simp [walk, visitElementCall, visitArgument, start, middle, bounds]
      | false =>
        simp only [walk, visitElementCall, visitArgument, start, middle, Checked.pure_eq,
          Checked.ok_bind, if_true, Bool.not_false, Bool.false_eq_true, if_false]
        simp [walk_later false calls later, bounds]

/-- The argument among two elements or more. -/
theorem walkArguments_two {index stop : Nat} {first middle : ElementCall} {calls : List ElementCall}
    {element next : Bytes} {elements : List Bytes} {second debug : Bool}
    (cut : List.Forall₂ (ElementCall.Cuts params) (first :: middle :: calls)
      ((element :: next :: elements).zipIdx))
    (scan : Reports (scanArray params index (visitArgument (second && !debug)) ⟨0, (0, 0), (0, 0)⟩)
      stop (walk (visitElementCall (visitArgument (second && !debug))) (first :: middle :: calls)
        ⟨0, (0, 0), (0, 0)⟩)) (behind : skipSpace params stop = .ok params.length) :
    walkArguments params index second (second && !debug) =
      .ok (.ok (argumentOf second debug (element :: next :: elements))) := by
  rw [walk_two cut] at scan
  unfold walkArguments
  cases cut with
  | cons _ rest =>
    have last := slice_last rest
    have atMiddle : slice params (bounds middle).1 (bounds middle).2 = .ok next := by
      cases rest with
      | cons cuts _ => exact cuts.value
    have length : calls.length = elements.length := by
      simpa using rest.length_eq
    cases second with
    | false =>
      have scan : scanArray _ _ _ _ = _ := scan
      rw [scan]
      simp only [List.map_cons] at last
      simp [behind, last, argumentOf, length, Nat.add_comm 2]
    | true =>
      cases debug with
      | false =>
        obtain ⟨early, scan⟩ := scan
        rw [scan]
        simp [atMiddle, argumentOf]
      | true =>
        have scan : scanArray _ _ _ _ = _ := scan
        rw [scan]
        simp [behind, atMiddle, argumentOf, length, Nat.add_comm 2]

/-- The walk finds the argument of an array with nothing but white space behind it. -/
theorem walkArguments_eq {index : Nat} (array : IsArray loose value elements) (blank : Blank after)
    (here : params.drop index = value ++ after) (second debug : Bool) :
    walkArguments params index second (second && !debug) =
      .ok (.ok (argumentOf second debug elements)) := by
  obtain ⟨calls, cut, reports⟩ := scanArray_calls array here
  have scan := reports Walked (visitArgument (second && !debug)) ⟨0, (0, 0), (0, 0)⟩
  have inside : index + value.length ≤ params.length := by
    have length := congrArg List.length here
    have nonempty := List.length_pos_of_ne_nil (Jsonrpc.value_ne_nil array.isValue)
    simp only [List.length_drop, List.length_append] at length
    omega
  have behind := skipSpace_end blank (drop_add_of_drop here) inside
  cases elements with
  | nil =>
    cases cut
    have scan : scanArray _ _ _ _ = _ := scan
    rw [walkArguments, scan]
    rfl
  | cons element elements =>
    cases calls with
    | nil => cases cut
    | cons first calls =>
      cases elements with
      | nil =>
        cases cut with
        | cons atFirst rest =>
          cases rest
          have start : first.position = 0 := atFirst.position
          rw [walk_later _ [first] (by simp [start])] at scan
          have scan : scanArray _ _ _ _ = _ := scan
          have only : slice params (bounds first).1 (bounds first).2 = .ok element := atFirst.value
          rw [walkArguments, scan]
          simp [behind, only, argumentOf]
      | cons next elements =>
        cases calls with
        | nil => cases cut with | cons _ rest => cases rest
        | cons middle calls => exact walkArguments_two cut scan behind

end Walk

theorem number_head {text : Bytes} (number : Number text) (head : text.head? = some byte) :
    byte ∈ ascii "-0123456789" := by
  obtain ⟨sign, whole, fraction, exponent, signed, integral, _, _, rfl⟩ := number
  have digits : ∀ digit ∈ ascii "0123456789", digit ∈ ascii "-0123456789" :=
    List.all_iff_forall_prop.mp (by decide)
  rcases signed with rfl | rfl
  · rcases integral with rfl | ⟨⟨nonempty, isDigits⟩, _⟩
    · cases head
      decide
    · obtain ⟨digit, rest, rfl⟩ := List.exists_cons_of_ne_nil nonempty
      cases head
      exact digits _ (isDigits _ (by simp))
  · cases head
    decide

/-- Of all values only null starts with its first letter. -/
theorem value_null_of_head {value : Bytes} (valid : Value rfc8259 value)
    (head : value.head? = some 110) : value = ascii "null" := by
  cases valid with
  | scalar scalar =>
    rcases scalar with number | rfl | rfl | rfl
    · exact absurd (number_head number head) (by decide)
    · cases head
    · cases head
    · rfl
  | string content => cases head
  | array blank elements => cases head
  | object blank members => cases head

section Select

variable {threshold : Nat} {lookup : SecondLookup} {debug second : Bool}
  {before value after : Bytes}

theorem select_array (finds : FindsSecond lookup) (blanks : Blank before) (behind : Blank after)
    (array : IsArray rfc8259 value elements) :
    blockContextArgumentAbove threshold lookup debug (before ++ value ++ after) second =
      .ok (.ok (argumentOf second debug elements)) := by
  have split : (before ++ value ++ after).drop 0 = before ++ (value ++ after) := by simp
  have here := drop_add_of_drop split
  rw [Nat.zero_add] at here
  have start := skipSpace_value blanks array.isValue.loose split
  rw [Nat.zero_add] at start
  have atBracket : ∃ rest, (before ++ value ++ after).drop before.length = 91 :: rest := by
    obtain ⟨blank, items, rfl, _⟩ := array
    exact ⟨_, here⟩
  obtain ⟨rest, atBracket⟩ := atBracket
  have walked := walkArguments_eq array.loose behind here second debug
  have looked := finds _ value elements ⟨before, after, blanks, behind, rfl⟩ array
  simp only [blockContextArgumentAbove, start, Checked.ok_bind, read_of_drop atBracket,
    if_neg (Nat.not_le.mpr (lt_length_of_drop atBracket)), ne_eq, not_true_eq_false, if_false]
  split_ifs with large
  · rw [looked]
    obtain ⟨rfl, rfl⟩ : second = true ∧ debug = false := by simp_all
    match elements, walked with
    | [], walked => exact walked
    | [only], walked => exact walked
    | first :: next :: more, _ => rfl
  · exact walked

theorem select_scalar (blanks : Blank before) (behind : Blank after)
    (valid : Value rfc8259 value) (other : ∀ elements, ¬ IsArray rfc8259 value elements) :
    blockContextArgumentAbove threshold lookup debug (before ++ value ++ after) second =
      if value = ascii "null" then .ok (.ok ([], 0)) else .ok (.error .malformedParams) := by
  have split : (before ++ value ++ after).drop 0 = before ++ (value ++ after) := by simp
  have here := drop_add_of_drop split
  rw [Nat.zero_add] at here
  have start := skipSpace_value blanks valid.loose split
  rw [Nat.zero_add] at start
  obtain ⟨byte, rest, shape, _⟩ := value_head valid.loose
  have atByte : (before ++ value ++ after).drop before.length = byte :: (rest ++ after) := by
    rw [here, shape]
    rfl
  have notArray : byte ≠ 91 := by
    rintro rfl
    obtain ⟨elements, array⟩ := valid.isArray (by rw [shape]; rfl)
    exact other elements array
  simp only [blockContextArgumentAbove, start, Checked.ok_bind, read_of_drop atByte,
    if_neg (Nat.not_le.mpr (lt_length_of_drop atByte)), ne_eq, notArray, not_false_eq_true, if_true]
  split_ifs with isNull
  · have stop := skipSpace_end behind (drop_add_of_drop here) (by simp)
    rw [show value.length = 4 from congrArg List.length isNull] at stop
    rw [stop, Checked.ok_bind, here, isNull, if_pos ⟨rfl, List.prefix_append _ _⟩]
    rfl
  · rw [skipSpace_eq, Checked.ok_bind, if_neg]
    · rfl
    · rintro ⟨_, null⟩
      rw [atByte] at null
      have same : (110 : UInt8) = byte := (List.cons_prefix_cons.mp null).1
      exact isNull (value_null_of_head valid (by rw [shape, same]; rfl))

end Select

/-- The argument selected is the one full decoding selects, whichever way it is found. -/
theorem blockContextArgument_exact (lookup : SecondLookup) (finds : FindsSecond lookup)
    (debug second : Bool) (params value : Bytes) (document : Document params value)
    (valid : Value rfc8259 value) :
    (∀ elements, IsArray rfc8259 value elements →
      blockContextArgument lookup debug params second =
        .ok (.ok (argumentOf second debug elements))) ∧
    ((∀ elements, ¬ IsArray rfc8259 value elements) →
      blockContextArgument lookup debug params second =
        if value = ascii "null" then .ok (.ok ([], 0)) else .ok (.error .malformedParams)) ∧
    ∀ threshold, blockContextArgumentAbove threshold lookup debug params second =
      blockContextArgument lookup debug params second := by
  obtain ⟨before, after, blanks, behind, rfl⟩ := document
  refine ⟨fun elements array => select_array finds blanks behind array,
    fun other => select_scalar blanks behind valid other, fun threshold => ?_⟩
  by_cases array : ∃ elements, IsArray rfc8259 value elements
  · obtain ⟨elements, array⟩ := array
    rw [blockContextArgument, select_array finds blanks behind array,
      select_array finds blanks behind array]
  · have other := not_exists.mp array
    rw [blockContextArgument, select_scalar blanks behind valid other,
      select_scalar blanks behind valid other]

/-- A lookup by scanning. -/
def scanSecond : SecondLookup := fun params => (Jsonrpc.elementsOf params)[1]?.map .ok

theorem scanSecond_finds : FindsSecond scanSecond := by
  intro params value elements document array
  rw [scanSecond, Jsonrpc.elementsOf_document document array.loose]

/-- The second of two arguments, with white space around them. -/
theorem blockContextArgument_sample :
    blockContextArgument scanSecond false (ascii " [ 1 , null ] ") true =
      .ok (.ok (ascii "null", 2)) := by
  have null : Value rfc8259 (ascii "null") := .scalar (.inr (.inr (.inr rfl)))
  have blank : Blank (ascii " ") := by simp [Blank, ascii]
  have array : IsArray rfc8259 (ascii "[ 1 , null ]") [ascii "1", ascii "null"] := by
    refine ⟨[], [⟨ascii " ", ascii "1", ascii " "⟩, ⟨ascii " ", ascii "null", ascii " "⟩],
      by decide, blank_nil, ?_, ?_, rfl⟩
    · simp only [List.forall_mem_cons, List.not_mem_nil, false_imp_iff, implies_true, and_true]
      exact ⟨⟨blank, blank⟩, ⟨blank, blank⟩⟩
    · simp only [List.forall_mem_cons, List.not_mem_nil, false_imp_iff, implies_true, and_true]
      exact ⟨value_one, null⟩
  exact (blockContextArgument_exact scanSecond scanSecond_finds false true _ _
    ⟨ascii " ", ascii " ", blank, blank, rfl⟩ array.isValue).1 _ array

end NodexProxy.Lb
