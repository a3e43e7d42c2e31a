import NodexProxy.Jsonscan.Exact
import NodexProxy.Jsonscan.Turns

/-! Walking objects and arrays of well-formed text: the visitor is called for exactly the members
or elements, in order, with bounds that cut out their values. -/

namespace NodexProxy.Jsonscan

open NodexProxy.Foundation NodexProxy.Foundation.Json

section Lists

variable {State Item : Type}

/-- Visit a list until the visitor has enough. The flag is whether the end was reached. -/
def walk (visit : State → Item → Checked (State × Bool)) : List Item → State → Checked (State × Bool)
  | [], state => return (state, true)
  | item :: items, state => do
    let (state, goOn) ← visit state item
    if goOn then walk visit items state else return (state, false)

/-- A scan that does what a walk does: it ends at `stop`, or earlier if the visitor has enough. -/
def Reports (scan : Checked (Option Nat × State)) (stop : Nat) : Checked (State × Bool) → Prop
  | .error fault => scan = .error fault
  | .ok (final, true) => scan = .ok (some stop, final)
  | .ok (final, false) => ∃ early, scan = .ok (some early, final)

theorem Reports.turn (visit : State → Item → Checked (State × Bool)) (state : State) (item : Item)
    (early : Nat) {onward : State → Checked (Option Nat × State)}
    (further : ∀ state, Reports (onward state) stop (walk visit items state)) :
    Reports (turn (visit state item) early onward) stop (walk visit (item :: items) state) := by
  rw [walk, Jsonscan.turn]
  cases visit state item with
  | error fault => rfl
  | ok outcome =>
    obtain ⟨state, goOn⟩ := outcome
    cases goOn with
    | false => exact ⟨early, rfl⟩
    | true => exact further state

/-- Visitors that agree on related items walk related lists alike. -/
theorem walk_congr {Other : Type} {visit : State → Item → Checked (State × Bool)}
    {visit' : State → Other → Checked (State × Bool)} {related : Item → Other → Prop}
    {items : List Item} {others : List Other} (lists : List.Forall₂ related items others)
    (agree : ∀ item, ∀ other ∈ others, related item other →
      ∀ state, visit state item = visit' state other) (state : State) :
    walk visit items state = walk visit' others state := by
  induction lists generalizing state with
  | nil => rfl
  | cons head _ inductionHypothesis =>
    have tail := inductionHypothesis fun item other listed =>
      agree item other (List.mem_cons_of_mem _ listed)
    simp only [walk, agree _ _ (List.mem_cons_self ..) head state, tail]

/-- A visitor that never has enough folds over the list. -/
theorem walk_foldl (visit : State → Item → State) (items : List Item) (state : State) :
    walk (fun state item => .ok (visit state item, true)) items state =
      .ok (items.foldl visit state, true) := by
  induction items generalizing state with
  | nil => rfl
  | cons item items inductionHypothesis => exact inductionHypothesis (visit state item)

theorem Reports.foldl (visit : State → Item → State) {items : List Item} {state : State}
    (reports : Reports scan stop
      (walk (fun state item => .ok (visit state item, true)) items state)) :
    scan = .ok (some stop, items.foldl visit state) := by
  rw [walk_foldl] at reports
  exact reports

end Lists

/-- What stands behind the first of several texts up to the closing bracket and beyond. -/
def trailer (close : UInt8) (rest : Bytes) : List Bytes → Bytes
  | [] => close :: rest
  | text :: texts => 44 :: (text ++ trailer close rest texts)

theorem separated_trailer (blank : Bytes) (close : UInt8) (rest : Bytes) (texts : List Bytes) :
    ∀ text, separated blank (text :: texts) ++ close :: rest = text ++ trailer close rest texts := by
  induction texts with
  | nil => simp [separated, trailer]
  | cons next texts ih =>
    intro text
    rw [separated, List.append_assoc, List.cons_append, ih next]
    rfl

/-- The bounds of a value with something behind it cut it out. -/
theorem slice_cut {text : Bytes} {start : Nat}
    (here : text.drop start = value ++ (after ++ trailer close rest texts)) :
    slice text start (start + value.length) = .ok value := by
  refine slice_of_drop here rfl ?_
  have behind := drop_add_of_drop (drop_add_of_drop here)
  cases texts with
  | nil =>
    have inside := lt_length_of_drop behind
    omega
  | cons next texts =>
    have inside := lt_length_of_drop behind
    omega

theorem drop_of_slice {text : Bytes} {low high : Nat} (cut : slice text low high = .ok value) :
    ∃ rest, text.drop low = value ++ rest ∧ high = low + value.length := by
  unfold slice at cut
  split_ifs at cut with inside
  cases cut
  refine ⟨(text.drop low).drop (high - low), (List.take_append_drop _ _).symm, ?_⟩
  rw [List.length_take, List.length_drop]
  omega

/-- A comma or the closing bracket may stand behind a value. -/
theorem follows_trailer (blank : Blank after) (ends : isDelimiter close = true) (rest : Bytes)
    (texts : List Bytes) : Follows (after ++ trailer close rest texts) := by
  cases texts with
  | nil => exact follows_blank blank ends
  | cons next texts => exact follows_blank blank (by decide)

section Behind

variable {State : Type} {text : Bytes} {stop : Nat}

/-- Behind the last value the scan ends just past the closing bracket. -/
theorem onward_close (blank : Blank after) (here : text.drop stop = after ++ close :: rest)
    (token : isSpace close = false) (other : close ≠ 44)
    (again : State → Nat → Checked (Option Nat × State)) (state : State) :
    onward text close stop again state = .ok (some (text.length - rest.length), state) := by
  have atClose : text.drop (stop + after.length) = [close] ++ rest := drop_add_of_drop here
  have inside := lt_length_of_drop atClose
  rw [onward, skipSpace_blank blank here token, ← end_of_drop atClose inside.le]
  simp only [Checked.ok_bind, if_neg (Nat.not_le.mpr inside), read_of_drop atClose, if_neg other,
    if_true]
  rfl

/-- Behind a comma the scan goes on. -/
theorem onward_next (blank : Blank after) (here : text.drop stop = after ++ 44 :: more)
    (close : UInt8) (again : State → Nat → Checked (Option Nat × State)) (state : State) :
    onward text close stop again state =
      skipSpace text (stop + after.length + 1) >>= again state := by
  have atComma := drop_add_of_drop here
  rw [onward, skipSpace_blank blank here (by decide)]
  simp only [Checked.ok_bind, if_neg (Nat.not_le.mpr (lt_length_of_drop atComma)),
    read_of_drop atComma, if_true]

end Behind

section Object

variable {State : Type} {text : Bytes} {index : Nat}
  {visit : State → Bytes → Bool → Nat → Nat → Checked (State × Bool)}

theorem slice_quoted (here : text.drop index = quoted content ++ rest) :
    slice text (index + 1) (index + (quoted content).length - 1) = .ok content := by
  have split : text.drop index = 34 :: (content ++ 34 :: rest) := by simpa [quoted] using here
  have inside := lt_length_of_drop split
  refine slice_of_drop (drop_succ_of_drop split) ?_ inside
  simp [quoted, Nat.add_comm, Nat.add_left_comm]

theorem skipStringEscaped_exact (skipped : Skipped content)
    (here : text.drop index = quoted content ++ rest) :
    skipStringEscaped text index =
      .ok (some (index + (quoted content).length, content.contains 92)) := by
  rw [skipStringEscaped, skipString_exact skipped here]
  simp only [Checked.ok_bind, slice_quoted here]
  rfl

/-- What the visitor of an object is called with. -/
structure MemberCall where
  key : Bytes
  escaped : Bool
  start : Nat
  stop : Nat

/-- How far the value of a member is from the opening quote of its key. -/
def lead (member : Member) : Nat :=
  (quoted member.key).length + member.afterKey.length + 1 + member.beforeValue.length

/-- The calls for members whose texts start at `index`, with a comma after each. -/
def memberCalls : Nat → List Member → List MemberCall
  | _, [] => []
  | index, member :: members =>
    let start := index + member.before.length + lead member
    ⟨member.key, member.key.contains 92, start, start + member.value.length⟩ ::
      memberCalls (index + member.text.length + 1) members

/-- The call is for this member, and its bounds cut out the value. -/
structure MemberCall.Cuts (text : Bytes) (call : MemberCall) (member : Bytes × Bytes) : Prop where
  key : call.key = member.1
  escaped : call.escaped = member.1.contains 92
  value : slice text call.start call.stop = .ok member.2

theorem drop_value {member : Member} (here : text.drop index = member.text ++ more) :
    text.drop (index + member.before.length + lead member) =
      member.value ++ (member.after ++ more) := by
  have split : text.drop index = (member.before ++ (quoted member.key ++ (member.afterKey ++
      58 :: member.beforeValue))) ++ (member.value ++ (member.after ++ more)) := by
    simpa [Member.text, Member.core] using here
  have width : index + member.before.length + lead member = index + (member.before ++
      (quoted member.key ++ (member.afterKey ++ 58 :: member.beforeValue))).length := by
    simp only [lead, List.length_append, List.length_cons]
    omega
  rw [width]
  exact drop_add_of_drop split

theorem skipSpace_member {member : Member} (space : member.Spaced)
    (here : text.drop index = member.text ++ more) :
    skipSpace text index = .ok (index + member.before.length) :=
  skipSpace_blank space.before (by simpa [Member.text, Member.core, quoted] using here) (by decide)

theorem member_width (member : Member) (index : Nat) :
    index + member.before.length + lead member + member.value.length + member.after.length =
      index + member.text.length := by
  simp only [lead, Member.text, Member.core, List.length_append, List.length_cons]
  omega

theorem memberCalls_cut (members : List Member) :
    ∀ (member : Member) (index : Nat),
      text.drop index = member.text ++ trailer close rest (members.map Member.text) →
      List.Forall₂ (MemberCall.Cuts text) (memberCalls index (member :: members))
        ((member :: members).map fun item => (item.key, item.value)) := by
  induction members with
  | nil =>
    intro member index here
    exact .cons ⟨rfl, rfl, slice_cut (drop_value here)⟩ .nil
  | cons next members inductionHypothesis =>
    intro member index here
    have atNext := drop_succ_of_drop (drop_add_of_drop here)
    exact .cons ⟨rfl, rfl, slice_cut (drop_value here)⟩ (inductionHypothesis next _ atNext)

/-- One turn of the loop, at the opening quote of a member. -/
theorem scanObjectLoop_member
    (visit : State → Bytes → Bool → Nat → Nat → Checked (State × Bool)) {member : Member}
    (space : member.Spaced) (content : Skipped member.key) (value : Value loose member.value)
    (fuel : Nat) (state : State)
    (here : text.drop index = member.text ++ trailer 125 rest texts) :
    let start := index + member.before.length + lead member
    scanObjectLoop text visit (fuel + 1) state (index + member.before.length) =
      turn (visit state member.key (member.key.contains 92) start (start + member.value.length))
        (start + member.value.length)
        (onward text 125 (start + member.value.length) (scanObjectLoop text visit fuel)) := by
  have atKey : text.drop (index + member.before.length) = quoted member.key ++ (member.afterKey ++
      58 :: (member.beforeValue ++ (member.value ++ (member.after ++ trailer 125 rest texts)))) := by
    rw [Member.text, List.append_assoc] at here
    simpa [Member.core] using drop_add_of_drop here
  have behindKey := drop_add_of_drop atKey
  have atColon := drop_add_of_drop behindKey
  have start : index + member.before.length + (quoted member.key).length + member.afterKey.length +
      1 + member.beforeValue.length = index + member.before.length + lead member := by
    simp only [lead]
    omega
  have valueStart := skipSpace_value space.beforeValue value (drop_succ_of_drop atColon)
  rw [start] at valueStart
  exact scanObjectLoop_turn visit fuel state (skipStringEscaped_exact content atKey)
    (slice_quoted atKey) (skipSpace_blank space.afterKey behindKey (by decide))
    (lt_length_of_drop atColon) (read_of_drop atColon) valueStart
    (skipValue_exact value (drop_value here) (follows_trailer space.after (by decide) rest texts))

/-- A visitor by the calls it gets. -/
def visitCall (visit : State → Bytes → Bool → Nat → Nat → Checked (State × Bool)) (state : State)
    (call : MemberCall) : Checked (State × Bool) :=
  visit state call.key call.escaped call.start call.stop

theorem scanObjectLoop_calls
    (visit : State → Bytes → Bool → Nat → Nat → Checked (State × Bool)) (members : List Member) :
    ∀ (member : Member) (fuel : Nat) (state : State) (index : Nat),
      (∀ item ∈ member :: members, (item.Spaced ∧ Skipped item.key) ∧ Value loose item.value) →
      members.length < fuel →
      text.drop index = member.text ++ trailer 125 rest (members.map Member.text) →
      Reports (scanObjectLoop text visit fuel state (index + member.before.length))
        (text.length - rest.length)
        (walk (visitCall visit) (memberCalls index (member :: members)) state) := by
  induction members with
  | nil =>
    intro member fuel state index formed enough here
    obtain ⟨fuel, rfl⟩ : ∃ more, fuel = more + 1 := ⟨fuel - 1, by omega⟩
    obtain ⟨⟨space, content⟩, value⟩ := formed member (by simp)
    rw [scanObjectLoop_member visit space content value fuel state here]
    refine Reports.turn (visitCall visit) state _ _ fun final => ?_
    exact onward_close space.after (drop_add_of_drop (drop_value here)) (by decide) (by decide) _ _
  | cons next members inductionHypothesis =>
    intro member fuel state index formed enough here
    obtain ⟨fuel, rfl⟩ : ∃ more, fuel = more + 1 := ⟨fuel - 1, by omega⟩
    obtain ⟨⟨space, content⟩, value⟩ := formed member (by simp)
    obtain ⟨⟨nextSpace, _⟩, _⟩ := formed next (by simp)
    have atNext := drop_succ_of_drop (drop_add_of_drop here)
    rw [scanObjectLoop_member visit space content value fuel state here]
    refine Reports.turn (visitCall visit) state _ _ fun state => ?_
    rw [onward_next space.after (drop_add_of_drop (drop_value here)), member_width,
      skipSpace_member nextSpace atNext]
    exact inductionHypothesis next fuel state _
      (fun item listed => formed item (List.mem_cons_of_mem _ listed))
      (Nat.lt_of_succ_lt_succ enough) atNext

theorem length_le_trailer (close : UInt8) (rest : Bytes) (texts : List Bytes) :
    texts.length < (trailer close rest texts).length := by
  induction texts with
  | nil => simp [trailer]
  | cons text texts ih =>
    simp only [trailer, List.length_cons, List.length_append]
    omega

/-- There is fuel for every text in front of the closing bracket. -/
theorem length_lt_of_trailer (here : text.drop index = piece ++ trailer close rest texts) :
    texts.length < text.length + 1 := by
  have length := congrArg List.length here
  have more := length_le_trailer close rest texts
  simp only [List.length_drop, List.length_append] at length
  omega

/-- An object calls the visitor once for each member, whatever the visitor does with the calls. -/
theorem scanObject_calls (object : IsObject loose piece members)
    (here : text.drop index = piece ++ rest) :
    ∃ calls, List.Forall₂ (MemberCall.Cuts text) calls members ∧
      ∀ (State : Type) (visit : State → Bytes → Bool → Nat → Nat → Checked (State × Bool))
        (state : State), Reports (scanObject text index visit state) (index + piece.length)
          (walk (visitCall visit) calls state) := by
  obtain ⟨blank, items, rfl, blanks, spaced, values, rfl⟩ := object
  have behind := drop_succ_of_drop here
  have inside := lt_length_of_drop here
  cases items with
  | nil =>
    refine ⟨[], .nil, fun State visit state => ?_⟩
    have atClose : text.drop (index + 1) = blank ++ 125 :: rest := by
      simpa [objectText, separated] using behind
    have stop : index + 1 + blank.length + 1 = index + (objectText blank []).length := by
      simp [objectText, separated]
      omega
    rw [scanObject_entering, entering_empty _ state here
      (skipSpace_blank blanks atClose (by decide)) (drop_add_of_drop atClose), stop]
    rfl
  | cons item items =>
    have atFirst : text.drop (index + 1) =
        item.text ++ trailer 125 rest (items.map Member.text) := by
      refine Eq.trans ?_ (separated_trailer blank 125 rest (items.map Member.text) item.text)
      rw [behind]
      simp
    refine ⟨memberCalls (index + 1) (item :: items), memberCalls_cut items item _ atFirst,
      fun State visit state => ?_⟩
    have formed : ∀ member ∈ item :: items,
        (member.Spaced ∧ Skipped member.key) ∧ Value loose member.value :=
      fun member listed => ⟨spaced member listed, values member listed⟩
    have enough : items.length < text.length + 1 := by simpa using length_lt_of_trailer atFirst
    have atQuote : text.drop (index + 1 + item.before.length) = 34 :: (item.core.tail ++
        trailer 125 rest (items.map Member.text)) := by
      rw [Member.text, List.append_assoc] at atFirst
      simpa [Member.core, quoted] using drop_add_of_drop atFirst
    have toQuote := skipSpace_member (spaced item (by simp)).1 atFirst
    rw [scanObject_entering, entering_item _ state here toQuote atQuote (by decide),
      end_of_drop here inside.le]
    exact scanObjectLoop_calls visit items item _ state _ formed enough atFirst

/-- The visitor sees such members by their key and the text of their value. -/
def VisitsMembers (text : Bytes) (seen : Bytes × Bytes → Prop)
    (visit : State → Bytes → Bool → Nat → Nat → Checked (State × Bool))
    (visitText : State → Bytes × Bytes → Checked (State × Bool)) : Prop :=
  ∀ state key value start rest, seen (key, value) → text.drop start = value ++ rest →
    visit state key (key.contains 92) start (start + value.length) = visitText state (key, value)

/-- An object is walked member by member up to its closing brace. -/
theorem scanObject_exact {seen : Bytes × Bytes → Prop}
    {visitText : State → Bytes × Bytes → Checked (State × Bool)}
    (visits : VisitsMembers text seen visit visitText)
    (object : IsObject loose piece members) (all : ∀ member ∈ members, seen member)
    (here : text.drop index = piece ++ rest) (state : State) :
    Reports (scanObject text index visit state) (index + piece.length)
      (walk visitText members state) := by
  obtain ⟨calls, cut, reports⟩ := scanObject_calls object here
  have same : walk (visitCall visit) calls state = walk visitText members state := by
    refine walk_congr cut (fun call member listed cuts state => ?_) state
    obtain ⟨rest, here, stop⟩ := drop_of_slice cuts.value
    rw [visitCall, cuts.key, cuts.escaped, stop]
    exact visits state member.1 member.2 call.start rest (all member listed) here
  rw [← same]
  exact reports State visit state

end Object

section Array

variable {State : Type} {text : Bytes} {index : Nat}
  {visit : State → Nat → Nat → Nat → Checked (State × Bool)}

theorem drop_element {element : Element} (here : text.drop index = element.text ++ more) :
    text.drop (index + element.before.length) = element.value ++ (element.after ++ more) := by
  rw [Element.text, List.append_assoc, List.append_assoc] at here
  exact drop_add_of_drop here

theorem skipSpace_element {element : Element} (space : element.Spaced)
    (value : Value loose element.value) (here : text.drop index = element.text ++ more) :
    skipSpace text index = .ok (index + element.before.length) := by
  rw [Element.text, List.append_assoc, List.append_assoc] at here
  exact skipSpace_value space.before value here

theorem element_width (element : Element) (index : Nat) :
    index + element.before.length + element.value.length + element.after.length =
      index + element.text.length := by
  simp only [Element.text, List.length_append]
  omega

/-- One turn of the loop, at the start of an element. -/
theorem scanArrayLoop_element (visit : State → Nat → Nat → Nat → Checked (State × Bool))
    {element : Element} (space : element.Spaced) (value : Value loose element.value) (fuel : Nat)
    (state : State) (position : Nat)
    (here : text.drop index = element.text ++ trailer 93 rest texts) :
    let start := index + element.before.length
    scanArrayLoop text visit (fuel + 1) state position start =
      turn (visit state position start (start + element.value.length))
        (start + element.value.length)
        (onward text 93 (start + element.value.length) fun state next =>
          scanArrayLoop text visit fuel state (position + 1) next) :=
  scanArrayLoop_turn visit fuel state position
    (skipValue_exact value (drop_element here) (follows_trailer space.after (by decide) rest texts))

/-- What the visitor of an array is called with. -/
structure ElementCall where
  position : Nat
  start : Nat
  stop : Nat

/-- The calls for elements whose texts start at `index`, with a comma after each. -/
def elementCalls : Nat → Nat → List Element → List ElementCall
  | _, _, [] => []
  | position, index, element :: elements =>
    let start := index + element.before.length
    ⟨position, start, start + element.value.length⟩ ::
      elementCalls (position + 1) (index + element.text.length + 1) elements

/-- The call is for this element, and its bounds cut it out. -/
structure ElementCall.Cuts (text : Bytes) (call : ElementCall) (element : Bytes × Nat) : Prop where
  position : call.position = element.2
  value : slice text call.start call.stop = .ok element.1

theorem elementCalls_cut (elements : List Element) :
    ∀ (element : Element) (position index : Nat),
      text.drop index = element.text ++ trailer close rest (elements.map Element.text) →
      List.Forall₂ (ElementCall.Cuts text) (elementCalls position index (element :: elements))
        (((element :: elements).map Element.value).zipIdx position) := by
  induction elements with
  | nil =>
    intro element position index here
    exact .cons ⟨rfl, slice_cut (drop_element here)⟩ .nil
  | cons next elements inductionHypothesis =>
    intro element position index here
    have atNext := drop_succ_of_drop (drop_add_of_drop here)
    exact .cons ⟨rfl, slice_cut (drop_element here)⟩
      (inductionHypothesis next (position + 1) _ atNext)

/-- A visitor by the calls it gets. -/
def visitElementCall (visit : State → Nat → Nat → Nat → Checked (State × Bool)) (state : State)
    (call : ElementCall) : Checked (State × Bool) :=
  visit state call.position call.start call.stop

theorem scanArrayLoop_calls (visit : State → Nat → Nat → Nat → Checked (State × Bool))
    (elements : List Element) :
    ∀ (element : Element) (fuel : Nat) (state : State) (position index : Nat),
      (∀ item ∈ element :: elements, item.Spaced ∧ Value loose item.value) →
      elements.length < fuel →
      text.drop index = element.text ++ trailer 93 rest (elements.map Element.text) →
      Reports (scanArrayLoop text visit fuel state position (index + element.before.length))
        (text.length - rest.length)
        (walk (visitElementCall visit) (elementCalls position index (element :: elements)) state) := by
  induction elements with
  | nil =>
    intro element fuel state position index formed enough here
    obtain ⟨fuel, rfl⟩ : ∃ more, fuel = more + 1 := ⟨fuel - 1, by omega⟩
    obtain ⟨space, value⟩ := formed element (by simp)
    rw [scanArrayLoop_element visit space value fuel state position here]
    refine Reports.turn (visitElementCall visit) state _ _ fun final => ?_
    exact onward_close space.after (drop_add_of_drop (drop_element here)) (by decide) (by decide) _ _
  | cons next elements inductionHypothesis =>
    intro element fuel state position index formed enough here
    obtain ⟨fuel, rfl⟩ : ∃ more, fuel = more + 1 := ⟨fuel - 1, by omega⟩
    obtain ⟨space, value⟩ := formed element (by simp)
    obtain ⟨nextSpace, nextValue⟩ := formed next (by simp)
    have atNext := drop_succ_of_drop (drop_add_of_drop here)
    rw [scanArrayLoop_element visit space value fuel state position here]
    refine Reports.turn (visitElementCall visit) state _ _ fun state => ?_
    rw [onward_next space.after (drop_add_of_drop (drop_element here)), element_width,
      skipSpace_element nextSpace nextValue atNext]
    exact inductionHypothesis next fuel state (position + 1) _
      (fun item listed => formed item (List.mem_cons_of_mem _ listed))
      (Nat.lt_of_succ_lt_succ enough) atNext

/-- An array calls the visitor once for each element, whatever the visitor does with the calls. -/
theorem scanArray_calls (array : IsArray loose piece elements)
    (here : text.drop index = piece ++ rest) :
    ∃ calls, List.Forall₂ (ElementCall.Cuts text) calls elements.zipIdx ∧
      ∀ (State : Type) (visit : State → Nat → Nat → Nat → Checked (State × Bool)) (state : State),
        Reports (scanArray text index visit state) (index + piece.length)
          (walk (visitElementCall visit) calls state) := by
  obtain ⟨blank, items, rfl, blanks, spaced, values, rfl⟩ := array
  have behind := drop_succ_of_drop here
  have inside := lt_length_of_drop here
  cases items with
  | nil =>
    refine ⟨[], .nil, fun State visit state => ?_⟩
    have atClose : text.drop (index + 1) = blank ++ 93 :: rest := by
      simpa [arrayText, separated] using behind
    have stop : index + 1 + blank.length + 1 = index + (arrayText blank []).length := by
      simp [arrayText, separated]
      omega
    rw [scanArray_entering, entering_empty _ state here
      (skipSpace_blank blanks atClose (by decide)) (drop_add_of_drop atClose), stop]
    rfl
  | cons item items =>
    have atFirst : text.drop (index + 1) =
        item.text ++ trailer 93 rest (items.map Element.text) := by
      refine Eq.trans ?_ (separated_trailer blank 93 rest (items.map Element.text) item.text)
      rw [behind]
      simp
    refine ⟨elementCalls 0 (index + 1) (item :: items), elementCalls_cut items item 0 _ atFirst,
      fun State visit state => ?_⟩
    have formed : ∀ element ∈ item :: items, element.Spaced ∧ Value loose element.value :=
      fun element listed => ⟨spaced element listed, values element listed⟩
    have enough : items.length < text.length + 1 := by simpa using length_lt_of_trailer atFirst
    obtain ⟨byte, tail, starts, inner⟩ := value_head (formed item (by simp)).2
    have open' : byte ≠ 93 := by
      rintro rfl
      cases inner
    have atByte := drop_element atFirst
    rw [starts, List.cons_append] at atByte
    have toByte := skipSpace_element (spaced item (by simp)) (values item (by simp)) atFirst
    rw [scanArray_entering, entering_item _ state here toByte atByte open',
      end_of_drop here inside.le]
    exact scanArrayLoop_calls visit items item _ state 0 _ formed enough atFirst

/-- The visitor sees such elements by their text and position. -/
def VisitsElements (text : Bytes) (seen : Bytes → Prop)
    (visit : State → Nat → Nat → Nat → Checked (State × Bool))
    (visitText : State → Bytes × Nat → Checked (State × Bool)) : Prop :=
  ∀ state value position start rest, seen value → text.drop start = value ++ rest →
    visit state position start (start + value.length) = visitText state (value, position)

/-- An array is walked element by element up to its closing bracket. -/
theorem scanArray_exact {seen : Bytes → Prop}
    {visitText : State → Bytes × Nat → Checked (State × Bool)}
    (visits : VisitsElements text seen visit visitText)
    (array : IsArray loose piece elements) (all : ∀ element ∈ elements, seen element)
    (here : text.drop index = piece ++ rest) (state : State) :
    Reports (scanArray text index visit state) (index + piece.length)
      (walk visitText elements.zipIdx state) := by
  obtain ⟨calls, cut, reports⟩ := scanArray_calls array here
  have same : walk (visitElementCall visit) calls state = walk visitText elements.zipIdx state := by
    refine walk_congr cut (fun call element listed cuts state => ?_) state
    obtain ⟨rest, here, stop⟩ := drop_of_slice cuts.value
    have member : element.1 ∈ elements := List.fst_mem_of_mem_zipIdx listed
    rw [visitElementCall, cuts.position, stop]
    exact visits state element.1 element.2 call.start rest (all _ member) here
  rw [← same]
  exact reports State visit state

end Array

section Boundaries

/-- The scanner finds exact boundaries in JSON text: just past a value, and for each member of an
object and each element of an array, which it calls the visitor for once and in order. -/
theorem scanner_finds_boundaries :
    (∀ before value after : Bytes, Value rfc8259 value →
      (after = [] ∨ ∃ byte rest, after = byte :: rest ∧ byte ∈ ascii " \t\n\r,:\x7d]") →
      skipValue (before ++ (value ++ after)) before.length =
        .ok (some (before.length + value.length))) ∧
    (∀ before object after members, IsObject rfc8259 object members →
      ∃ calls, List.Forall₂ (MemberCall.Cuts (before ++ (object ++ after))) calls members ∧
        ∀ (State : Type) (visit : State → Bytes → Bool → Nat → Nat → State) (state : State),
          scanObject (before ++ (object ++ after)) before.length
              (fun state key escaped start stop => .ok (visit state key escaped start stop, true))
              state =
            .ok (some (before.length + object.length), calls.foldl (fun state call =>
              visit state call.key call.escaped call.start call.stop) state)) ∧
    (∀ before array after elements, IsArray rfc8259 array elements →
      ∃ calls, List.Forall₂ (ElementCall.Cuts (before ++ (array ++ after))) calls
          elements.zipIdx ∧
        ∀ (State : Type) (visit : State → Nat → Nat → Nat → State) (state : State),
          scanArray (before ++ (array ++ after)) before.length
              (fun state position start stop => .ok (visit state position start stop, true))
              state =
            .ok (some (before.length + array.length), calls.foldl (fun state call =>
              visit state call.position call.start call.stop) state)) := by
  refine ⟨?_, ?_, ?_⟩
  · intro before value after isValue ends
    refine skipValue_exact isValue.loose List.drop_left ?_
    rcases ends with rfl | ⟨byte, rest, rfl, delimiter⟩
    · simp [Follows]
    · have all : ∀ byte ∈ ascii " \t\n\r,:\x7d]", isDelimiter byte = true :=
        List.all_iff_forall_prop.mp (by decide)
      simpa [Follows] using all byte delimiter
  · intro before object after members isObject
    obtain ⟨calls, cut, reports⟩ :=
      scanObject_calls isObject.loose (@List.drop_left _ before (object ++ after))
    refine ⟨calls, cut, fun State visit state => ?_⟩
    exact Reports.foldl
      (fun state (call : MemberCall) => visit state call.key call.escaped call.start call.stop)
      (reports State (fun state key escaped start stop =>
        .ok (visit state key escaped start stop, true)) state)
  · intro before array after elements isArray
    obtain ⟨calls, cut, reports⟩ :=
      scanArray_calls isArray.loose (@List.drop_left _ before (array ++ after))
    refine ⟨calls, cut, fun State visit state => ?_⟩
    exact Reports.foldl
      (fun state (call : ElementCall) => visit state call.position call.start call.stop)
      (reports State (fun state position start stop =>
        .ok (visit state position start stop, true)) state)

end Boundaries

end NodexProxy.Jsonscan
