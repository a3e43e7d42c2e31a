import NodexProxy.Jsonscan.Walk

/-! The scanner on any text, well-formed or not: it comes to an end, every access is in range, and
a visitor is called with bounds that lie in the text one behind the other. -/

namespace NodexProxy.Jsonscan

open NodexProxy.Foundation

/-- Bounds of a value: not empty, in the text, and with both quotes if they start with one. -/
structure Spans (text : Bytes) (start stop : Nat) : Prop where
  nonempty : start < stop
  inside : stop ≤ text.length
  quotes : text[start]? = some 34 → start + 2 ≤ stop ∧ text[stop - 1]? = some 34

theorem Spans.slice_returns (spans : Spans text start stop) :
    (slice text start stop).Returns fun cut => cut = (text.drop start).take (stop - start) :=
  Foundation.slice_returns spans.nonempty.le spans.inside

section Skips

variable {text rest : Bytes} {index : Nat}

theorem skipSpace_returns (text : Bytes) (index : Nat) :
    (skipSpace text index).Returns fun stop => index ≤ stop :=
  ⟨_, skipSpace_eq text index, Nat.le_add_right _ _⟩

theorem stringEnd_bounds {escaped : Bool} (ends : stringEnd escaped rest = some width) :
    1 ≤ width ∧ width ≤ rest.length ∧ rest[width - 1]? = some 34 := by
  induction rest generalizing escaped width with
  | nil => cases escaped <;> cases ends
  | cons byte rest inductionHypothesis =>
    have further {escaped : Bool} (ends : (stringEnd escaped rest).map (· + 1) = some width) :
        1 ≤ width ∧ width ≤ (byte :: rest).length ∧ (byte :: rest)[width - 1]? = some 34 := by
      obtain ⟨shorter, found, rfl⟩ := Option.map_eq_some_iff.mp ends
      obtain ⟨positive, inside, quote⟩ := inductionHypothesis found
      obtain ⟨less, rfl⟩ : ∃ less, shorter = less + 1 := ⟨shorter - 1, by omega⟩
      exact ⟨by omega, by simpa using inside, quote⟩
    cases escaped with
    | true => exact further ends
    | false =>
      rw [stringEnd] at ends
      split_ifs at ends with quote
      · cases ends
        exact ⟨le_refl 1, by simp, by simp [quote]⟩
      · exact further ends

theorem nestedEnd_bounds {mode : Option Bool} {depth : Int}
    (ends : nestedEnd mode depth rest = some width) : 1 ≤ width ∧ width ≤ rest.length := by
  induction rest generalizing mode depth width with
  | nil => cases mode <;> simp [nestedEnd] at ends
  | cons byte rest inductionHypothesis =>
    have further {mode : Option Bool} {depth : Int}
        (ends : (nestedEnd mode depth rest).map (· + 1) = some width) :
        1 ≤ width ∧ width ≤ (byte :: rest).length := by
      obtain ⟨shorter, found, rfl⟩ := Option.map_eq_some_iff.mp ends
      have bounds := inductionHypothesis found
      exact ⟨by omega, by simpa using bounds.2⟩
    cases mode with
    | some escaped => cases escaped <;> exact further ends
    | none =>
      rw [nestedEnd] at ends
      split_ifs at ends
      · exact further ends
      · exact further ends
      · cases ends
        exact ⟨le_refl 1, by simp⟩
      · exact further ends
      · exact further ends

/-- A string that is skipped has its two quotes. -/
theorem skipString_returns (text : Bytes) (index : Nat) :
    (skipString text index).Returns fun found => ∀ stop ∈ found,
      index + 2 ≤ stop ∧ stop ≤ text.length ∧ text[stop - 1]? = some 34 := by
  cases here : text.drop index with
  | nil =>
    rw [skipString, if_pos (length_le_of_drop here)]
    exact .pure (by simp)
  | cons byte rest =>
    by_cases quote : byte = 34
    · refine ⟨_, skipString_eq (quote ▸ here), fun stop found => ?_⟩
      obtain ⟨width, ends, rfl⟩ := Option.map_eq_some_iff.mp found
      obtain ⟨positive, inside, closes⟩ := stringEnd_bounds ends
      have behind := drop_succ_of_drop here
      have length := congrArg List.length behind
      rw [List.length_drop] at length
      refine ⟨by omega, by have := lt_length_of_drop here; omega, ?_⟩
      rw [← behind, List.getElem?_drop] at closes
      rw [← closes]
      congr 1
      omega
    · rw [skipString, if_neg (by have := lt_length_of_drop here; omega), read_of_drop here]
      simp only [Checked.ok_bind, ne_eq, quote, not_false_eq_true, if_true]
      exact .pure (by simp)

theorem skipStringEscaped_returns (text : Bytes) (index : Nat) :
    (skipStringEscaped text index).Returns fun found => ∀ result ∈ found,
      index + 2 ≤ result.1 ∧ result.1 ≤ text.length := by
  refine .bind (skipString_returns text index) fun found bounds => ?_
  cases found with
  | none => exact .pure (by simp)
  | some stop =>
    obtain ⟨behind, inside, -⟩ := bounds stop rfl
    refine .bind (slice_returns (by omega) (by omega)) fun inner _ => .pure ?_
    rintro _ ⟨⟩
    exact ⟨behind, inside⟩

theorem skipValue_returns (text : Bytes) (index : Nat) :
    (skipValue text index).Returns fun found => ∀ stop ∈ found, Spans text index stop := by
  cases here : text.drop index with
  | nil =>
    rw [skipValue, if_pos (length_le_of_drop here)]
    exact .pure (by simp)
  | cons byte rest =>
    have inside := lt_length_of_drop here
    have length := congrArg List.length here
    rw [List.length_drop, List.length_cons] at length
    have first : text[index]? = some byte := by
      rw [← List.head?_drop, here]
      rfl
    rw [skipValue, if_neg (by omega), read_of_drop here, Checked.ok_bind]
    split_ifs with quote opens
    · refine (skipString_returns text index).mono fun found bounds stop member => ?_
      obtain ⟨behind, inside, closes⟩ := bounds stop member
      exact ⟨by omega, inside, fun _ => ⟨behind, closes⟩⟩
    · refine ⟨_, skipNestedLoop_eq text.length 0 index (by omega), fun stop found => ?_⟩
      obtain ⟨width, ends, rfl⟩ := Option.map_eq_some_iff.mp found
      have bounds := nestedEnd_bounds ends
      rw [List.length_drop] at bounds
      refine ⟨by omega, by omega, fun other => ?_⟩
      exact absurd (Option.some.inj (first.symm.trans other)) quote
    · rw [skipWhile_eq _ text.length index (by omega), Checked.ok_bind]
      refine .pure ?_
      split_ifs with same
      · simp
      rintro _ ⟨⟩
      have short : ((text.drop index).takeWhile fun byte => !isDelimiter byte).length ≤
          (text.drop index).length := (List.takeWhile_prefix _).length_le
      refine ⟨by omega, ?_, fun other => ?_⟩
      · rw [List.length_drop] at short
        omega
      · exact absurd (Option.some.inj (first.symm.trans other)) quote

end Skips

section Turns

variable {Item Place : Type}

/-- A scanning loop: fuel, the visitor's state, and where it stands. -/
abbrev Loop (Item Place : Type) : Type 1 :=
  (State : Type) → (State → Item → Checked (State × Bool)) → Nat → State → Place →
    Checked (Option Nat × State)

/-- What one turn of a loop does, whatever its visitor is: it gives up, or calls the visitor for
one item and then ends or goes on behind it. -/
inductive Turn (text : Bytes) (start stop : Item → Nat) (position : Place → Nat)
    (loop : Loop Item Place) (place : Place) : Prop where
  | fails : (∀ State visit fuel state,
      loop State visit (fuel + 1) state place = .ok (none, state)) → Turn ..
  | ends (item : Item) (finish : Option Nat) : position place ≤ start item →
      Spans text (start item) (stop item) →
      (∀ last ∈ finish, stop item < last ∧ last ≤ text.length) →
      (∀ State visit fuel state, loop State visit (fuel + 1) state place =
        turn (visit state item) (stop item) fun state => .ok (finish, state)) → Turn ..
  | goes (item : Item) (next : Place) : position place ≤ start item →
      Spans text (start item) (stop item) → stop item < position next →
      (∀ State visit fuel state, loop State visit (fuel + 1) state place =
        turn (visit state item) (stop item) fun state => loop State visit fuel state next) →
      Turn ..

/-- Call a visitor for the items until it has enough, as a scan does that ends with `finish`. -/
def replay {State : Type} (stop : Item → Nat) (finish : Option Nat)
    (visit : State → Item → Checked (State × Bool)) :
    List Item → State → Checked (Option Nat × State)
  | [], state => return (finish, state)
  | item :: items, state =>
    turn (visit state item) (stop item) (replay stop finish visit items)

/-- The items lie in the text from `low` on, one behind the other, and the end behind them. -/
structure Ordered (text : Bytes) (start stop : Item → Nat) (low : Nat) (items : List Item)
    (finish : Option Nat) : Prop where
  inside : ∀ item ∈ items, low ≤ start item ∧ Spans text (start item) (stop item)
  apart : items.Pairwise fun first second => stop first < start second
  last : ∀ last ∈ finish, low ≤ last ∧ last ≤ text.length ∧ ∀ item ∈ items, stop item < last

variable {text : Bytes} {start stop : Item → Nat} {position : Place → Nat}
  {loop : Loop Item Place}

theorem Ordered.nil (low : Nat) : Ordered text start stop low [] none :=
  ⟨by simp, .nil, by simp⟩

theorem Ordered.ending {low : Nat} (last : ∀ last ∈ finish, low < last ∧ last ≤ text.length) :
    Ordered text start stop (low + 1) [] finish :=
  ⟨by simp, .nil, fun stop ends => ⟨(last stop ends).1, (last stop ends).2, by simp⟩⟩

theorem Ordered.cons {items : List Item} (here : low ≤ start item)
    (spans : Spans text (start item) (stop item))
    (rest : Ordered text start stop (stop item + 1) items finish) :
    Ordered text start stop low (item :: items) finish := by
  have grows := spans.nonempty
  refine ⟨?_, ?_, ?_⟩
  · intro other member
    rcases List.mem_cons.mp member with rfl | later
    · exact ⟨here, spans⟩
    · obtain ⟨behind, spans⟩ := rest.inside other later
      exact ⟨by omega, spans⟩
  · refine List.pairwise_cons.mpr ⟨fun other later => ?_, rest.apart⟩
    have := (rest.inside other later).1
    omega
  · intro last ends
    obtain ⟨behind, inside, others⟩ := rest.last last ends
    refine ⟨by omega, inside, fun other member => ?_⟩
    rcases List.mem_cons.mp member with rfl | later
    · omega
    · exact others other later

theorem Ordered.mono {items : List Item} (ordered : Ordered text start stop low items finish)
    (below : lower ≤ low) : Ordered text start stop lower items finish := by
  refine ⟨fun item member => ?_, ordered.apart, fun last ends => ?_⟩
  · obtain ⟨behind, spans⟩ := ordered.inside item member
    exact ⟨by omega, spans⟩
  · obtain ⟨behind, rest⟩ := ordered.last last ends
    exact ⟨by omega, rest⟩

/-- A loop whose turns are these replays a list of items that does not depend on the visitor. -/
theorem replays_of_turns (turns : ∀ place, Turn text start stop position loop place) (fuel : Nat) :
    ∀ place, text.length ≤ fuel + position place → ∃ items finish,
      Ordered text start stop (position place) items finish ∧
      ∀ State visit state, loop State visit (fuel + 1) state place =
        replay stop finish visit items state := by
  induction fuel with
  | zero =>
    intro place beyond
    -- nothing is left for an item
    cases turns place with
    | fails gives => exact ⟨[], none, .nil _, fun State visit state => gives State visit 0 state⟩
    | ends item finish here spans =>
      have := spans.nonempty
      have := spans.inside
      omega
    | goes item next here spans =>
      have := spans.nonempty
      have := spans.inside
      omega
  | succ fuel inductionHypothesis =>
    intro place enough
    cases turns place with
    | fails gives => exact ⟨[], none, .nil _, fun State visit state => gives State visit _ state⟩
    | ends item finish here spans last does =>
      exact ⟨[item], finish, .cons here spans (.ending last),
        fun State visit state => does State visit _ state⟩
    | goes item next here spans behind does =>
      have grows := spans.nonempty
      obtain ⟨items, finish, ordered, replays⟩ := inductionHypothesis next (by omega)
      refine ⟨item :: items, finish, .cons here spans (ordered.mono behind),
        fun State visit state => ?_⟩
      rw [does, replay]
      congr 1
      funext state
      exact replays State visit state

end Turns

theorem onward_cases (text : Bytes) (close : UInt8) (stop : Nat) :
    (∃ finish, (∀ last ∈ finish, stop < last ∧ last ≤ text.length) ∧
      ∀ State again state, @onward State text close stop again state = .ok (finish, state)) ∨
    ∃ next, stop < next ∧
      ∀ State again state, @onward State text close stop again state = again state next := by
  obtain ⟨index, skipped, behind⟩ := skipSpace_returns text stop
  by_cases beyond : text.length ≤ index
  · refine .inl ⟨none, by simp, fun State again state => ?_⟩
    rw [onward, skipped, Checked.ok_bind, if_pos beyond]
    rfl
  obtain ⟨byte, found, -⟩ := read_returns (Nat.not_le.mp beyond)
  obtain ⟨next, spaced, further⟩ := skipSpace_returns text (index + 1)
  by_cases comma : byte = 44
  · refine .inr ⟨next, by omega, fun State again state => ?_⟩
    rw [onward, skipped, Checked.ok_bind, if_neg beyond, found, Checked.ok_bind, if_pos comma, spaced,
      Checked.ok_bind]
  have stays State again state : @onward State text close stop again state =
      .ok (if byte = close then some (index + 1) else none, state) := by
    rw [onward, skipped, Checked.ok_bind, if_neg beyond, found, Checked.ok_bind, if_neg comma]
    split_ifs <;> rfl
  refine .inl ⟨_, fun last ends => ?_, stays⟩
  split_ifs at ends
  · cases ends
    omega
  · cases ends

/-- A turn that visits a value and then does what is done behind one. -/
theorem Turn.of_onward {Item Place : Type} {start stop : Item → Nat} {position : Place → Nat}
    {loop : Loop Item Place} {place : Place} (item : Item) (onto : Nat → Place)
    (positions : ∀ next, position (onto next) = next) (here : position place ≤ start item)
    (spans : Spans text (start item) (stop item)) (close : UInt8)
    (visits : ∀ State visit fuel state, loop State visit (fuel + 1) state place =
      turn (visit state item) (stop item) (onward text close (stop item) fun state next =>
        loop State visit fuel state (onto next))) :
    Turn text start stop position loop place := by
  rcases onward_cases text close (stop item) with ⟨finish, last, ends⟩ | ⟨next, further, goes⟩
  · refine .ends item finish here spans last fun State visit fuel state => ?_
    rw [visits]
    congr 1
    funext state
    exact ends State _ state
  · refine .goes item (onto next) here spans (by rwa [positions]) fun State visit fuel state => ?_
    rw [visits]
    congr 1
    funext state
    exact goes State _ state

theorem entering_cases (text : Bytes) (opens closes : UInt8) (index : Nat) :
    (∃ finish, (∀ last ∈ finish, index < last ∧ last ≤ text.length) ∧
      ∀ State loop state, @entering State text opens closes index loop state =
        .ok (finish, state)) ∨
    ∃ first, index < first ∧ ∀ State loop state,
      @entering State text opens closes index loop state = loop state first := by
  by_cases beyond : text.length ≤ index
  · refine .inl ⟨none, by simp, fun State loop state => ?_⟩
    rw [entering, if_pos beyond]
    rfl
  obtain ⟨byte, reads, -⟩ := read_returns (Nat.not_le.mp beyond)
  by_cases other : byte ≠ opens
  · refine .inl ⟨none, by simp, fun State loop state => ?_⟩
    rw [entering, if_neg beyond, reads, Checked.ok_bind, if_pos other]
    rfl
  obtain ⟨first, toFirst, behind⟩ := skipSpace_returns text (index + 1)
  by_cases inside : first < text.length
  · obtain ⟨next, readsNext, -⟩ := read_returns inside
    by_cases empty : next = closes
    · refine .inl ⟨some (first + 1), ?_, fun State loop state => ?_⟩
      · rintro _ ⟨⟩
        omega
      · simp only [entering, if_neg beyond, reads, Checked.ok_bind, if_neg other, toFirst,
          if_pos inside, readsNext, if_pos empty]
        rfl
    · refine .inr ⟨first, behind, fun State loop state => ?_⟩
      simp only [entering, if_neg beyond, reads, Checked.ok_bind, if_neg other, toFirst,
        if_pos inside, readsNext, if_neg empty]
  · refine .inr ⟨first, behind, fun State loop state => ?_⟩
    simp only [entering, if_neg beyond, reads, Checked.ok_bind, if_neg other, toFirst,
      if_neg inside]

section Objects

/-- The loop of `scanObject`, for visitors by their calls. -/
def objectLoop (text : Bytes) : Loop MemberCall Nat := fun _ visit fuel state index =>
  scanObjectLoop text (fun state key escaped start stop => visit state ⟨key, escaped, start, stop⟩)
    fuel state index

theorem objectLoop_turn (text : Bytes) (index : Nat) :
    Turn text MemberCall.start MemberCall.stop id (objectLoop text) index := by
  obtain ⟨found, skipsKey, bounds⟩ := skipStringEscaped_returns text index
  cases found with
  | none =>
    refine .fails fun State visit fuel state => ?_
    simp only [objectLoop, scanObjectLoop, skipsKey]
    rfl
  | some result =>
    obtain ⟨behind, inside⟩ := bounds result rfl
    obtain ⟨key, cuts, -⟩ : (slice text (index + 1) (result.1 - 1)).Returns _ :=
      slice_returns (by omega) (by omega)
    obtain ⟨colon, toColon, afterKey⟩ := skipSpace_returns text result.1
    by_cases beyond : text.length ≤ colon
    · refine .fails fun State visit fuel state => ?_
      simp only [objectLoop, scanObjectLoop, skipsKey, cuts, toColon, Checked.ok_bind, if_pos beyond]
      rfl
    obtain ⟨byte, reads, -⟩ := read_returns (Nat.not_le.mp beyond)
    by_cases other : byte ≠ 58
    · refine .fails fun State visit fuel state => ?_
      simp only [objectLoop, scanObjectLoop, skipsKey, cuts, toColon, Checked.ok_bind, if_neg beyond,
        reads, if_pos other]
      rfl
    obtain ⟨start, toValue, afterColon⟩ := skipSpace_returns text (colon + 1)
    obtain ⟨found, skipsValue, spans⟩ := skipValue_returns text start
    cases found with
    | none =>
      refine .fails fun State visit fuel state => ?_
      simp only [objectLoop, scanObjectLoop, skipsKey, cuts, toColon, Checked.ok_bind, if_neg beyond,
        reads, if_neg other, toValue, skipsValue]
      rfl
    | some stop =>
      refine .of_onward ⟨key, result.2, start, stop⟩ id (fun _ => rfl) ?_ (spans stop rfl) 125 ?_
      · have order : index ≤ start := by omega
        exact order
      · intro State visit fuel state
        rw [not_not.mp other] at reads
        exact scanObjectLoop_turn _ fuel state skipsKey cuts toColon (Nat.not_le.mp beyond) reads
          toValue skipsValue

/-- `ScanObject` calls any visitor for the same members, until it has enough. -/
theorem scanObject_replays (text : Bytes) (index : Nat) :
    ∃ calls finish, Ordered text MemberCall.start MemberCall.stop (index + 1) calls finish ∧
      ∀ State visit state, @scanObject State text index visit state =
        replay MemberCall.stop finish (visitCall visit) calls state := by
  rcases entering_cases text 123 125 index with ⟨finish, last, ends⟩ | ⟨first, behind, enters⟩
  · refine ⟨[], finish, .ending last, fun State visit state => ?_⟩
    rw [scanObject_entering, ends]
    rfl
  · obtain ⟨calls, finish, ordered, replays⟩ :=
      replays_of_turns (objectLoop_turn text) text.length first (Nat.le_add_right _ _)
    refine ⟨calls, finish, ordered.mono behind, fun State visit state => ?_⟩
    rw [scanObject_entering, enters]
    exact replays State (visitCall visit) state

end Objects

section Arrays

/-- The loop of `scanArray`, for visitors by their calls; it also counts. -/
def arrayLoop (text : Bytes) : Loop ElementCall (Nat × Nat) := fun _ visit fuel state place =>
  scanArrayLoop text (fun state position start stop => visit state ⟨position, start, stop⟩)
    fuel state place.1 place.2

theorem arrayLoop_turn (text : Bytes) (place : Nat × Nat) :
    Turn text ElementCall.start ElementCall.stop Prod.snd (arrayLoop text) place := by
  obtain ⟨found, skips, spans⟩ := skipValue_returns text place.2
  cases found with
  | none =>
    refine .fails fun State visit fuel state => ?_
    simp only [arrayLoop, scanArrayLoop, skips]
    rfl
  | some stop =>
    refine .of_onward ⟨place.1, place.2, stop⟩ (Prod.mk (place.1 + 1)) (fun _ => rfl) le_rfl
      (spans stop rfl) 93 fun State visit fuel state => ?_
    exact scanArrayLoop_turn _ fuel state place.1 skips

/-- `ScanArray` calls any visitor for the same elements, until it has enough. -/
theorem scanArray_replays (text : Bytes) (index : Nat) :
    ∃ calls finish, Ordered text ElementCall.start ElementCall.stop (index + 1) calls finish ∧
      ∀ State visit state, @scanArray State text index visit state =
        replay ElementCall.stop finish (visitElementCall visit) calls state := by
  rcases entering_cases text 91 93 index with ⟨finish, last, ends⟩ | ⟨first, behind, enters⟩
  · refine ⟨[], finish, .ending last, fun State visit state => ?_⟩
    rw [scanArray_entering, ends]
    rfl
  · obtain ⟨calls, finish, ordered, replays⟩ :=
      replays_of_turns (arrayLoop_turn text) text.length (0, first) (Nat.le_add_right _ _)
    refine ⟨calls, finish, ordered.mono behind, fun State visit state => ?_⟩
    rw [scanArray_entering, enters]
    exact replays State (visitElementCall visit) state

end Arrays

section Replay

variable {Item State : Type} {text : Bytes} {start stop : Item → Nat}
  {visit : State → Item → Checked (State × Bool)} {finish : Option Nat} {items : List Item}

/-- A scan faults only where its visitor does. -/
theorem replay_returns
    (safe : ∀ state, ∀ item ∈ items, (visit state item).Returns fun _ => True) (state : State) :
    (replay stop finish visit items state).Returns fun _ => True := by
  induction items generalizing state with
  | nil => exact .pure trivial
  | cons item items inductionHypothesis =>
    have further := inductionHypothesis fun state item later =>
      safe state item (List.mem_cons_of_mem _ later)
    refine .bind (safe state item (List.mem_cons_self ..)) fun outcome _ => ?_
    obtain ⟨next, goOn⟩ := outcome
    cases goOn with
    | false => exact .pure trivial
    | true => exact further next

/-- A scan that succeeds ends behind its beginning, in the text. -/
theorem Ordered.replay_stop (ordered : Ordered text start stop (low + 1) items finish)
    (returned : replay stop finish visit items state = .ok (some final, after)) :
    low < final ∧ final ≤ text.length := by
  have ends : ∀ item ∈ items, low < stop item ∧ stop item ≤ text.length := by
    intro item member
    obtain ⟨behind, spans⟩ := ordered.inside item member
    have := spans.nonempty
    exact ⟨by omega, spans.inside⟩
  have finishes : ∀ last ∈ finish, low < last ∧ last ≤ text.length := fun last ends =>
    ⟨(ordered.last last ends).1, (ordered.last last ends).2.1⟩
  clear ordered
  induction items generalizing state with
  | nil =>
    cases returned
    exact finishes final rfl
  | cons item items inductionHypothesis =>
    obtain ⟨outcome, -, returned⟩ := Checked.of_bind_ok returned
    dsimp only at returned
    split_ifs at returned
    · cases returned
      exact ends item (List.mem_cons_self ..)
    · exact inductionHypothesis returned fun item later => ends item (List.mem_cons_of_mem _ later)

end Replay

end NodexProxy.Jsonscan
