import NodexProxy.Jsonscan.Safety
import NodexProxy.Lb.BlockDecode

/-! The scanner and the two visitors that slice keys and values by the bounds it gives them, on
text that need not be JSON. -/

namespace NodexProxy.Lb

open NodexProxy.Foundation NodexProxy.Jsonscan NodexProxy.Jsonrpc

section Visitors

variable {text : Bytes} {start stop : Nat}

/-- Nothing is sliced before the opening quote has been seen. -/
theorem visitMember_returns (spans : Spans text start stop) (state : RequestObject × Bool)
    (key : Bytes) (keyEscaped : Bool) :
    (visitMember text state key keyEscaped start stop).Returns fun _ => True := by
  have inside : start < text.length := Nat.lt_of_lt_of_le spans.nonempty spans.inside
  unfold visitMember
  dsimp only
  by_cases named : key = ascii "jsonrpc" ∨ key = ascii "method"
  · rw [if_pos named]
    refine .bind (read_returns inside) fun byte found => ?_
    by_cases quote : byte ≠ 34
    · rw [if_pos quote]
      exact .pure trivial
    · rw [if_neg quote]
      rw [not_not.mp quote] at found
      have bounds := spans.quotes found
      have := spans.inside
      refine .bind (slice_returns (by omega) (by omega)) fun value _ => ?_
      split_ifs <;> exact .pure trivial
  · rw [if_neg named]
    split_ifs
    · exact .bind spans.slice_returns fun _ _ => .pure trivial
    · exact .bind spans.slice_returns fun _ _ => .pure trivial
    · exact .pure trivial
    · exact .pure trivial
    · exact .pure trivial

theorem plainString_returns (spans : Spans text start stop) (seen : Bool) :
    (plainString text seen start stop).Returns fun _ => True := by
  have inside := spans.inside
  have grows := spans.nonempty
  refine .bind spans.slice_returns fun value cut => ?_
  have length : value.length = stop - start := by
    rw [cut, List.length_take, List.length_drop]
    omega
  split_ifs
  · exact .pure trivial
  refine .bind (read_returns (by omega)) fun byte found => ?_
  split_ifs with quote
  · exact .pure trivial
  · have first : text[start]? = some 34 := by
      rw [not_not.mp quote, cut, List.getElem?_take_of_lt (by omega), List.getElem?_drop] at found
      exact found
    have bounds := spans.quotes first
    exact .bind (slice_returns (by omega) (by omega)) fun _ _ => .pure trivial

theorem visitContext_returns (spans : Spans text start stop) (scan : ContextScan) (key : Bytes)
    (keyEscaped : Bool) :
    (visitContext text scan key keyEscaped start stop).Returns fun _ => True := by
  unfold visitContext
  split_ifs
  · exact .pure trivial
  · refine .bind (plainString_returns spans _) fun content _ => ?_
    cases content <;> exact .pure trivial
  · refine .bind (plainString_returns spans _) fun content _ => ?_
    cases content <;> exact .pure trivial
  · exact .pure trivial
  · exact .pure trivial

end Visitors

/-- A visitor that is fine with bounds of values never makes `ScanObject` fault. -/
theorem scanObject_returns {State : Type}
    {visit : State → Bytes → Bool → Nat → Nat → Checked (State × Bool)} {text : Bytes}
    (safe : ∀ state key escaped start stop, Spans text start stop →
      (visit state key escaped start stop).Returns fun _ => True) (index : Nat) (state : State) :
    (scanObject text index visit state).Returns fun _ => True := by
  obtain ⟨calls, finish, ordered, replays⟩ := scanObject_replays text index
  rw [replays]
  exact replay_returns (fun state call listed => safe state _ _ _ _ (ordered.inside call listed).2)
    state

theorem scanRequestObject_returns (text : Bytes) (index : Nat) :
    (scanRequestObject text index).Returns fun _ => True :=
  .bind (scanObject_returns (fun state key escaped _ _ spans =>
    visitMember_returns spans state key escaped) index _) fun _ _ => .pure trivial

theorem decodeBlockContextFast_returns (geth : Geth) (raw : Bytes) :
    (decodeBlockContextFast geth raw).Returns fun _ => True := by
  unfold decodeBlockContextFast
  split_ifs
  · exact .pure trivial
  refine .bind (scanObject_returns (fun scan key escaped _ _ spans =>
    visitContext_returns spans scan key escaped) 0 _) fun outcome _ => ?_
  obtain ⟨stop, scan⟩ := outcome
  dsimp only
  split_ifs <;> exact .pure trivial

/-- On every text and from every index the scanner returns with an end that is in the text. Its
visitors are called for bounds that depend on the text alone, are in the text and apart, and have
both quotes if they have one; the scan does what these calls do, and faults only where one of
them does. The two visitors that slice by them never fault. -/
theorem scanner_safe (text : Bytes) (index : Nat) :
    (skipStringEscaped text index).Returns (fun found => ∀ result ∈ found,
      index < result.1 ∧ result.1 ≤ text.length) ∧
    (skipValue text index).Returns (fun found => ∀ stop ∈ found,
      index < stop ∧ stop ≤ text.length) ∧
    (∃ calls finish, Ordered text MemberCall.start MemberCall.stop (index + 1) calls finish ∧
      ∀ State visit state,
        @scanObject State text index visit state =
          replay MemberCall.stop finish (visitCall visit) calls state ∧
        ∀ stop final, @scanObject State text index visit state = .ok (some stop, final) →
          index < stop ∧ stop ≤ text.length) ∧
    (∃ calls finish, Ordered text ElementCall.start ElementCall.stop (index + 1) calls finish ∧
      ∀ State visit state,
        @scanArray State text index visit state =
          replay ElementCall.stop finish (visitElementCall visit) calls state ∧
        ∀ stop final, @scanArray State text index visit state = .ok (some stop, final) →
          index < stop ∧ stop ≤ text.length) ∧
    (scanRequestObject text index).Returns (fun _ => True) ∧
    ∀ geth, (decodeBlockContextFast geth text).Returns (fun _ => True) := by
  refine ⟨?_, ?_, ?_, ?_, scanRequestObject_returns text index,
    fun geth => decodeBlockContextFast_returns geth text⟩
  · refine (skipStringEscaped_returns text index).mono fun found bounds result member => ?_
    have := bounds result member
    omega
  · refine (skipValue_returns text index).mono fun found spans stop member => ?_
    exact ⟨(spans stop member).nonempty, (spans stop member).inside⟩
  · obtain ⟨calls, finish, ordered, replays⟩ := scanObject_replays text index
    refine ⟨calls, finish, ordered, fun State visit state =>
      ⟨replays State visit state, fun stop final returned => ?_⟩⟩
    rw [replays] at returned
    exact ordered.replay_stop returned
  · obtain ⟨calls, finish, ordered, replays⟩ := scanArray_replays text index
    refine ⟨calls, finish, ordered, fun State visit state =>
      ⟨replays State visit state, fun stop final returned => ?_⟩⟩
    rw [replays] at returned
    exact ordered.replay_stop returned

end NodexProxy.Lb
