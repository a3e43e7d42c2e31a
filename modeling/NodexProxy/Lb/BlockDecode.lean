import NodexProxy.Jsonrpc.Borrowed
import NodexProxy.Lb.BlockArgument
import NodexProxy.Lb.Chain
import NodexProxy.Lb.Pick

/-! Decoding the block context of a request. The usual shape is decoded by the scanner, every
other one by `sonic`; what is relied on of `sonic` and of go-ethereum is stated as laws. -/

namespace NodexProxy.Lb

open NodexProxy.Foundation NodexProxy.Foundation.Json NodexProxy.Jsonscan
open NodexProxy.Jsonrpc (equalFold decodeString)

/-! The string forms of a block id. -/

/-- What is used of go-ethereum: `Hash.UnmarshalText` and `hexutil.DecodeUint64`, with the texts of
their errors. -/
structure Geth where
  unmarshalHash : Bytes → Except Bytes Bytes
  decodeUint64 : Bytes → Except Bytes Nat

/-- What is behind `0x` or `0X`. -/
def cut0x (input : Bytes) : Option Bytes :=
  match input with
  | 48 :: 120 :: digits => some digits
  | 48 :: 88 :: digits => some digits
  | _ => none

def nibble (byte : UInt8) : Option Nat :=
  (digitValue byte).filter (· < 16)

/-- `hex.Decode`. -/
def hexBytes : Bytes → Option Bytes
  | [] => some []
  | [_] => none
  | high :: low :: rest => do
    let high ← nibble high
    let low ← nibble low
    let rest ← hexBytes rest
    return UInt8.ofNat (16 * high + low) :: rest

/-- Documented behaviour of go-ethereum: a text of 66 characters is a hash if there are digits
behind its `0x`, and a quantity has digits without a leading zero and fits 64 bits. -/
structure Geth.Conforms (geth : Geth) : Prop where
  digest : ∀ input digest, input.length = 66 → (geth.unmarshalHash input = .ok digest ↔
    ∃ digits, cut0x input = some digits ∧ hexBytes digits = some digest)
  quantity : ∀ input number, geth.decodeUint64 input = .ok number ↔
    ∃ digits, cut0x input = some digits ∧ digits ≠ [] ∧
      (digits = ascii "0" ∨ digits.head? ≠ some 48) ∧ parseDigits 16 digits = some number ∧
      number < 2 ^ 64

/-- The tags of `rpc.BlockNumber`. -/
def blockTags : List (Bytes × Int) :=
  [(ascii "earliest", 0), (ascii "latest", latestBlockNumber), (ascii "pending", pendingBlockNumber),
    (ascii "finalized", -3), (ascii "safe", -4)]

def parseBlockIDString (geth : Geth) (input : Bytes) : Except Bytes BlockId :=
  match blockTags.find? fun tag => tag.1 == input with
  | some tag => .ok ⟨some tag.2, none⟩
  | none =>
    if input.length = 66 then do
      let digest ← geth.unmarshalHash input
      return ⟨none, some digest⟩
    else do
      let number ← geth.decodeUint64 input
      if 2 ^ 63 - 1 < number then .error (ascii "blocknumber too high")
      else return ⟨some number, none⟩

/-! The fast path. -/

/-- The variables of `decodeBlockContextFast`. -/
structure ContextScan where
  blockID : Bytes
  typ : Bytes
  hasBlockID : Bool
  hasTyp : Bool
  declined : Bool

def ContextScan.zero : ContextScan := ⟨[], [], false, false, false⟩

def ContextScan.decline (scan : ContextScan) : ContextScan × Bool :=
  ({ scan with declined := true }, false)

/-- The content of a string that is borrowed as it stands; `none` to decline. -/
def plainString (raw : Bytes) (seen : Bool) (start stop : Nat) : Checked (Option Bytes) := do
  let value ← slice raw start stop
  if seen then return none
  else
    let byte ← read value 0
    if byte ≠ 34 then return none
    else
      let content ← slice value 1 (value.length - 1)
      return if content.contains 92 || !isPlainASCII content then none else some content

def visitContext (raw : Bytes) (scan : ContextScan) (key : Bytes) (keyEscaped : Bool)
    (start stop : Nat) : Checked (ContextScan × Bool) :=
  if keyEscaped || !isPlainASCII key then return scan.decline
  else if key = ascii "block_id" then do
    match ← plainString raw scan.hasBlockID start stop with
    | none => return scan.decline
    | some content => return ({ scan with blockID := content, hasBlockID := true }, true)
  else if key = ascii "type" then do
    match ← plainString raw scan.hasTyp start stop with
    | none => return scan.decline
    | some content => return ({ scan with typ := content, hasTyp := true }, true)
  -- the decoder matches field names case-insensitively
  else if equalFold key (ascii "block_id") || equalFold key (ascii "type") then return scan.decline
  else return (scan, true)

def ownBlockContextType (typ : Bytes) : Bytes :=
  if typ = [] then []
  else if typ = ascii "Equals" then ascii "Equals"
  else if typ = ascii "Contains" then ascii "Contains"
  else typ

/-- `decodeBlockContextFast`; `none` where it does not handle the input. -/
def decodeBlockContextFast (geth : Geth) (raw : Bytes) :
    Checked (Option (Except Bytes BlockContext)) :=
  if raw.head? ≠ some 123 then return none
  else do
    let (stop, scan) ← scanObject raw 0 (visitContext raw) .zero
    if stop.isNone || scan.declined then return none
    else if scan.hasBlockID then
      return some ((parseBlockIDString geth scan.blockID).map fun blockId =>
        ⟨some blockId, ownBlockContextType scan.typ⟩)
    else return some (.ok ⟨none, ownBlockContextType scan.typ⟩)

/-- `decodeBlockContext`; `none` for an error of either decoder. -/
def decodeBlockContext (geth : Geth) (unmarshal : Bytes → Option BlockContext) (raw : Bytes) :
    Checked (Option BlockContext) := do
  match ← decodeBlockContextFast geth raw with
  | some outcome => return outcome.toOption
  | none => return unmarshal raw

/-- The methods that have their block context in the second argument. -/
def secondArgumentMethods : List Bytes :=
  [ascii "contractMultiCall", ascii "simulateTransactions", ascii "estimateGas"]

/-- `ParseBlockContext`: the first request with a context gives it. -/
def parseBlockContext (geth : Geth) (lookup : SecondLookup)
    (unmarshal : Bytes → Option BlockContext) (debug : Bool) :
    List (Option Jsonrpc.RequestObject) → Checked (Option BlockContext)
  | [] => return none
  | request :: requests => do
    let request ← deref request
    let second := secondArgumentMethods.contains request.method
    match ← blockContextArgument lookup debug (request.params.getD []) second with
    | .error _ => parseBlockContext geth lookup unmarshal debug requests
    | .ok (raw, count) =>
      if count = 0 then parseBlockContext geth lookup unmarshal debug requests
      else if second && count = 1 then
        return some ⟨some ⟨some latestBlockNumber, none⟩, ascii "Contains"⟩
      else
        match ← decodeBlockContext geth unmarshal raw with
        | none => parseBlockContext geth lookup unmarshal debug requests
        | some context => return some context

/-! What the two decoders agree on. -/

/-- A tag, the text of a hash, or a canonical quantity below `2^63`, and the block it names. -/
inductive BlockIDText : Bytes → BlockId → Prop where
  | tag : (input, number) ∈ blockTags → BlockIDText input ⟨some number, none⟩
  | digest : cut0x input = some digits → digits.length = 64 → hexBytes digits = some digest →
      BlockIDText input ⟨none, some digest⟩
  | quantity : cut0x input = some digits → digits ≠ [] →
      (digits = ascii "0" ∨ digits.head? ≠ some 48) → parseDigits 16 digits = some number →
      number ≤ 2 ^ 63 - 1 → BlockIDText input ⟨some number, none⟩

/-- `sonic` decoding into a `BlockContext`, and its reading of block ids and strings. -/
structure ContextDecoder where
  unquote : Bytes → Option Bytes
  blockID : Bytes → Option (Option BlockId)
  unmarshal : Bytes → Option BlockContext

/-- Assign one member. Keys match without regard to ASCII case, and other values are skipped. -/
def ContextDecoder.member (decoder : ContextDecoder) (context : BlockContext)
    (member : Bytes × Bytes) : Option BlockContext := do
  let name ← decoder.unquote member.1
  if equalFold name (ascii "block_id") then
    let blockId ← decoder.blockID member.2
    return { context with blockId }
  else if equalFold name (ascii "type") then
    let type ← decodeString decoder.unquote member.2 context.type
    return { context with type }
  else return context

/-- Documented behaviour of the reference decoder: members in order, so the last duplicate wins,
and block ids as go-ethereum reads them. -/
structure ContextDecoder.Conforms (decoder : ContextDecoder) : Prop where
  unquote_plain : ∀ content, isPlainASCII content = true → 92 ∉ content →
    decoder.unquote content = some content
  blockID_text : ∀ content blockId, isPlainASCII content = true → 92 ∉ content →
    BlockIDText content blockId → decoder.blockID (quoted content) = some (some blockId)
  blockID_other : ∀ content, isPlainASCII content = true → 92 ∉ content →
    (∀ blockId, ¬ BlockIDText content blockId) → decoder.blockID (quoted content) = none
  object : ∀ raw value members, Document raw value → IsObject rfc8259 value members →
    decoder.unmarshal raw = members.foldlM decoder.member ⟨none, []⟩

section Text

variable {geth : Geth} {input digits : Bytes}

theorem length_of_cut0x (cut : cut0x input = some digits) : input.length = digits.length + 2 := by
  unfold cut0x at cut
  split at cut
  · cases cut
    rfl
  · cases cut
    rfl
  · cases cut

theorem not_tag_of_cut0x (cut : cut0x input = some digits) :
    (blockTags.find? fun tag => tag.1 == input) = none := by
  have bare : ∀ tag ∈ blockTags, cut0x tag.1 = none := List.all_iff_forall_prop.mp (by decide)
  refine List.find?_eq_none.mpr fun tag listed same => ?_
  rw [beq_iff_eq] at same
  have absent := bare tag listed
  rw [same, cut] at absent
  cases absent

/-- Digits without a leading zero make at least a power of the base. -/
theorem le_foldlM_digits {base : Nat} {text : Bytes} {start number : Nat}
    (parsed : text.foldlM (fun number byte => do
      let digit ← digitValue byte
      if digit < base then return number * base + digit else none) start = some number) :
    start * base ^ text.length ≤ number := by
  induction text generalizing start with
  | nil =>
    cases parsed
    simp
  | cons byte rest inductionHypothesis =>
    rw [List.foldlM_cons] at parsed
    obtain ⟨next, step, parsed⟩ := Option.bind_eq_some_iff.mp parsed
    obtain ⟨digit, _, step⟩ := Option.bind_eq_some_iff.mp step
    split_ifs at step
    cases step
    calc start * base ^ (byte :: rest).length
        = start * base * base ^ rest.length := by rw [List.length_cons, pow_succ]; ring
      _ ≤ (start * base + digit) * base ^ rest.length :=
          Nat.mul_le_mul_right _ (Nat.le_add_right _ _)
      _ ≤ number := inductionHypothesis parsed

theorem digitValue_eq_zero {byte : UInt8} (zero : digitValue byte = some 0) : byte = 48 := by
  unfold digitValue at zero
  split_ifs at zero with digit
  · have value : byte.toNat - 48 = 0 := Option.some.inj zero
    have low := UInt8.le_iff_toNat_le.mp digit.1
    refine UInt8.toNat_inj.mp ?_
    simp at low ⊢
    omega
  · simp at zero
  · simp at zero

/-- A canonical quantity of 64 digits is far above `2^63`. -/
theorem lt_of_quantity (canonical : digits = ascii "0" ∨ digits.head? ≠ some 48)
    (parsed : parseDigits 16 digits = some number) (small : number ≤ 2 ^ 63 - 1) :
    digits.length ≠ 64 := by
  intro long
  rcases canonical with rfl | nonzero
  · cases long
  · cases digits with
    | nil => cases long
    | cons byte rest =>
      unfold parseDigits at parsed
      rw [List.foldlM_cons] at parsed
      obtain ⟨next, step, parsed⟩ := Option.bind_eq_some_iff.mp parsed
      obtain ⟨digit, valued, step⟩ := Option.bind_eq_some_iff.mp step
      split_ifs at step
      cases step
      have positive : digit ≠ 0 := by
        rintro rfl
        exact nonzero (congrArg some (digitValue_eq_zero valued))
      have large := le_foldlM_digits parsed
      have length : rest.length = 63 := by simpa using long
      rw [length] at large
      have least : 1 * 16 ^ 63 ≤ (0 * 16 + digit) * 16 ^ 63 := Nat.mul_le_mul_right _ (by omega)
      exact absurd (least.trans (large.trans small)) (by norm_num)

theorem BlockIDText.of_parsed (reads : geth.Conforms) {blockId : BlockId}
    (parsed : parseBlockIDString geth input = .ok blockId) : BlockIDText input blockId := by
  unfold parseBlockIDString at parsed
  cases tagged : blockTags.find? fun tag => tag.1 == input with
  | some tag =>
    rw [tagged] at parsed
    cases parsed
    have same : tag.1 = input := by simpa using List.find?_some tagged
    exact .tag (same ▸ List.mem_of_find?_eq_some tagged)
  | none =>
    rw [tagged] at parsed
    dsimp only at parsed
    split_ifs at parsed with long
    · cases decoded : geth.unmarshalHash input with
      | error error => rw [decoded] at parsed; cases parsed
      | ok digest =>
        rw [decoded] at parsed
        cases parsed
        obtain ⟨digits, cut, bytes⟩ := (reads.digest input digest long).mp decoded
        have length := length_of_cut0x cut
        exact .digest cut (by omega) bytes
    · cases decoded : geth.decodeUint64 input with
      | error error => rw [decoded] at parsed; cases parsed
      | ok number =>
        rw [decoded] at parsed
        obtain ⟨digits, cut, present, canonical, value, _⟩ := (reads.quantity input number).mp decoded
        change (if 2 ^ 63 - 1 < number then _ else _) = _ at parsed
        split_ifs at parsed with high
        cases parsed
        exact .quantity cut present canonical value (not_lt.mp high)

theorem BlockIDText.parses (reads : geth.Conforms) {blockId : BlockId}
    (text : BlockIDText input blockId) : parseBlockIDString geth input = .ok blockId := by
  unfold parseBlockIDString
  cases text with
  | tag listed =>
    simp only [blockTags, List.mem_cons, Prod.mk.injEq, List.not_mem_nil, or_false] at listed
    rcases listed with ⟨rfl, rfl⟩ | ⟨rfl, rfl⟩ | ⟨rfl, rfl⟩ | ⟨rfl, rfl⟩ | ⟨rfl, rfl⟩ <;> rfl
  | digest cut length bytes =>
    have long : input.length = 66 := by rw [length_of_cut0x cut, length]
    rw [not_tag_of_cut0x cut]
    dsimp only
    rw [if_pos long, (reads.digest input _ long).mpr ⟨_, cut, bytes⟩]
    rfl
  | @quantity digits number cut present canonical value small =>
    have short : input.length ≠ 66 := by
      rw [length_of_cut0x cut]
      have := lt_of_quantity canonical value small
      omega
    rw [not_tag_of_cut0x cut]
    dsimp only
    rw [if_neg short,
      (reads.quantity input number).mpr ⟨digits, cut, present, canonical, value, by omega⟩]
    exact if_neg (not_lt.mpr small)

/-- `parseBlockIDString` accepts exactly the texts of block ids. -/
theorem parseBlockIDString_eq_ok (reads : geth.Conforms) {blockId : BlockId} :
    parseBlockIDString geth input = .ok blockId ↔ BlockIDText input blockId :=
  ⟨BlockIDText.of_parsed reads, BlockIDText.parses reads⟩

end Text

section Fast

/-- `plainString` on the text of the value. -/
def plainText (seen : Bool) (value : Bytes) : Option Bytes :=
  if seen then none
  else if value.head? ≠ some 34 then none
  else if value.tail.dropLast.contains 92 || !isPlainASCII value.tail.dropLast then none
  else some value.tail.dropLast

/-- `visitContext` on the text of the value. -/
def visitContextText (scan : ContextScan) (member : Bytes × Bytes) : ContextScan × Bool :=
  if member.1.contains 92 || !isPlainASCII member.1 then scan.decline
  else if member.1 = ascii "block_id" then
    match plainText scan.hasBlockID member.2 with
    | none => scan.decline
    | some content => ({ scan with blockID := content, hasBlockID := true }, true)
  else if member.1 = ascii "type" then
    match plainText scan.hasTyp member.2 with
    | none => scan.decline
    | some content => ({ scan with typ := content, hasTyp := true }, true)
  else if equalFold member.1 (ascii "block_id") || equalFold member.1 (ascii "type") then scan.decline
  else (scan, true)

theorem plainString_eq {raw value : Bytes} (isValue : Value loose value)
    (here : raw.drop start = value ++ rest) (seen : Bool) :
    plainString raw seen start (start + value.length) = .ok (plainText seen value) := by
  rw [plainString, Jsonrpc.slice_value here (Jsonrpc.value_ne_nil isValue), Checked.ok_bind]
  cases seen with
  | true => rfl
  | false =>
    obtain ⟨byte, tail, rfl, _⟩ := value_head isValue
    have first : read (byte :: tail) 0 = .ok byte := rfl
    simp only [Bool.false_eq_true, if_false, first, Checked.ok_bind, plainText, List.head?_cons,
      ne_eq, Option.some.injEq]
    by_cases quote : byte = 34
    · obtain ⟨content, shape⟩ := Jsonrpc.quoted_of_head isValue (by rw [quote]; rfl)
      have inner : slice (quoted content) (0 + 1) (0 + (quoted content).length - 1) = .ok content :=
        slice_quoted (show (quoted content).drop 0 = quoted content ++ [] by simp)
      rw [Nat.zero_add, Nat.zero_add] at inner
      have stripped : (quoted content).tail.dropLast = content := by simp [quoted]
      rw [shape, inner, stripped]
      simp only [quote, not_true_eq_false, if_false, Checked.ok_bind]
      rfl
    · simp [quote]

theorem visits_context (raw : Bytes) :
    VisitsMembers raw (fun member => Value loose member.2) (visitContext raw)
      (fun scan member => .ok (visitContextText scan member)) := by
  intro scan key value start rest isValue here
  unfold visitContext visitContextText
  rw [plainString_eq isValue here, plainString_eq isValue here]
  simp only [Checked.ok_bind]
  split_ifs
  · rfl
  · cases plainText scan.hasBlockID value <;> rfl
  · cases plainText scan.hasTyp value <;> rfl
  · rfl
  · rfl

/-- What the decoder has read once the scan has seen the same members. -/
def ContextDecoder.reading (decoder : ContextDecoder) (scan : ContextScan) : Option BlockContext :=
  if scan.hasBlockID then (decoder.blockID (quoted scan.blockID)).map fun blockId => ⟨blockId, scan.typ⟩
  else some ⟨none, scan.typ⟩

/-- A block id the scan holds decodes to its own text. -/
def ContextScan.Plain (scan : ContextScan) : Prop :=
  scan.hasBlockID = true → isPlainASCII scan.blockID = true ∧ 92 ∉ scan.blockID

theorem plainText_some (isValue : Value loose value) (borrowed : plainText seen value = some content) :
    seen = false ∧ value = quoted content ∧ isPlainASCII content = true ∧ 92 ∉ content := by
  unfold plainText at borrowed
  split_ifs at borrowed with repeated other special
  cases borrowed
  obtain ⟨content, rfl⟩ := Jsonrpc.quoted_of_head isValue (not_not.mp other)
  have stripped : (quoted content).tail.dropLast = content := by simp [quoted]
  rw [stripped] at special ⊢
  simp only [List.contains_iff_mem, Bool.or_eq_true, Bool.not_eq_true', not_or,
    Bool.not_eq_false] at special
  exact ⟨Bool.eq_false_of_not_eq_true repeated, rfl, special.2, special.1⟩

variable {geth : Geth} {decoder : ContextDecoder}

theorem member_type (conforms : decoder.Conforms) (plain : isPlainASCII content = true)
    (free : 92 ∉ content) (context : BlockContext) :
    decoder.member context (ascii "type", quoted content) =
      some { context with type := content } := by
  have name := conforms.unquote_plain (ascii "type") (by decide) (by decide)
  have other : equalFold (ascii "type") (ascii "block_id") = false := by decide
  have same : equalFold (ascii "type") (ascii "type") = true := by decide
  have notNull : quoted content ≠ ascii "null" := by simp [quoted, ascii]
  have head : (quoted content).head? = some 34 := rfl
  have stripped : (quoted content).tail.dropLast = content := by simp [quoted]
  have decoded : decodeString decoder.unquote (quoted content) context.type = some content := by
    rw [decodeString, if_neg notNull, if_pos head, stripped]
    exact conforms.unquote_plain content plain free
  simp [ContextDecoder.member, name, other, same, decoded]

theorem member_skipped (conforms : decoder.Conforms) (plain : isPlainASCII key = true)
    (free : 92 ∉ key)
    (other : ¬ (equalFold key (ascii "block_id") || equalFold key (ascii "type")) = true)
    (context : BlockContext) : decoder.member context (key, value) = some context := by
  have name := conforms.unquote_plain key plain free
  simp only [Bool.or_eq_true, not_or, Bool.not_eq_true] at other
  simp [ContextDecoder.member, name, other.1, other.2]

/-- A member the scan takes is one the decoder reads in the same way. -/
theorem reading_step (conforms : decoder.Conforms) {scan next : ContextScan}
    {member : Bytes × Bytes} (isValue : Value loose member.2) (plain : scan.Plain)
    (taken : visitContextText scan member = (next, true)) :
    next.Plain ∧ (decoder.reading scan).bind (decoder.member · member) = decoder.reading next := by
  obtain ⟨key, value⟩ := member
  unfold visitContextText at taken
  split_ifs at taken with special isBlockID isType folded
  · cases taken
  · -- the block id itself: nothing was read for it before
    dsimp only at isBlockID taken isValue
    subst key
    cases borrowed : plainText scan.hasBlockID value with
    | none => rw [borrowed] at taken; cases taken
    | some content =>
      rw [borrowed] at taken
      cases taken
      obtain ⟨first, rfl, isPlain, free⟩ := plainText_some isValue borrowed
      have name := conforms.unquote_plain (ascii "block_id") (by decide) (by decide)
      refine ⟨fun _ => ⟨isPlain, free⟩, ?_⟩
      simp only [ContextDecoder.reading, first, Bool.false_eq_true, if_false, if_true,
        Option.bind_some, ContextDecoder.member, name]
      cases decoder.blockID (quoted content) <;> rfl
  · dsimp only at isType taken isValue
    subst key
    cases borrowed : plainText scan.hasTyp value with
    | none => rw [borrowed] at taken; cases taken
    | some content =>
      rw [borrowed] at taken
      cases taken
      obtain ⟨_, rfl, isPlain, free⟩ := plainText_some isValue borrowed
      refine ⟨plain, ?_⟩
      simp only [member_type conforms isPlain free]
      unfold ContextDecoder.reading
      dsimp only
      split_ifs
      · cases decoder.blockID (quoted scan.blockID) <;> rfl
      · rfl
  · cases taken
  · cases taken
    simp only [List.contains_iff_mem, Bool.or_eq_true, Bool.not_eq_true', not_or,
      Bool.not_eq_false] at special
    refine ⟨plain, ?_⟩
    simp only [member_skipped conforms special.2 special.1 folded]
    cases decoder.reading scan <;> rfl

/-- The scan is only cut short to decline. -/
theorem declined_of_stop {scan next : ContextScan}
    (stopped : visitContextText scan member = (next, false)) : next.declined = true := by
  unfold visitContextText at stopped
  split_ifs at stopped
  · cases stopped
    rfl
  · cases borrowed : plainText scan.hasBlockID member.2 with
    | none =>
      rw [borrowed] at stopped
      cases stopped
      rfl
    | some content =>
      rw [borrowed] at stopped
      cases stopped
  · cases borrowed : plainText scan.hasTyp member.2 with
    | none =>
      rw [borrowed] at stopped
      cases stopped
      rfl
    | some content =>
      rw [borrowed] at stopped
      cases stopped
  · cases stopped
    rfl
  · cases stopped

/-- The walk over the members declines, or it has read what the decoder reads of them. -/
theorem reading_walk (conforms : decoder.Conforms) (members : List (Bytes × Bytes))
    (values : ∀ member ∈ members, Value loose member.2) {scan : ContextScan} (plain : scan.Plain) :
    ∃ final goOn,
      walk (fun scan member => .ok (visitContextText scan member)) members scan =
        .ok (final, goOn) ∧
      (final.declined = true ∨
        final.Plain ∧ (decoder.reading scan).bind (members.foldlM decoder.member) =
          decoder.reading final) := by
  induction members generalizing scan with
  | nil =>
    refine ⟨scan, true, rfl, .inr ⟨plain, ?_⟩⟩
    cases decoder.reading scan <;> rfl
  | cons member members inductionHypothesis =>
    simp only [walk, Checked.ok_bind]
    cases visited : visitContextText scan member with
    | mk next goOn =>
      cases goOn with
      | false => exact ⟨next, false, rfl, .inl (declined_of_stop visited)⟩
      | true =>
        obtain ⟨nextPlain, step⟩ := reading_step conforms (values member (by simp)) plain visited
        obtain ⟨final, goOn, walked, outcome⟩ := inductionHypothesis
          (fun other listed => values other (List.mem_cons_of_mem _ listed)) nextPlain
        refine ⟨final, goOn, walked, ?_⟩
        rcases outcome with declined | ⟨finalPlain, same⟩
        · exact .inl declined
        · refine .inr ⟨finalPlain, ?_⟩
          rw [← same, ← step, Option.bind_assoc]
          rfl

theorem ownBlockContextType_eq (typ : Bytes) : ownBlockContextType typ = typ := by
  unfold ownBlockContextType
  split_ifs with empty equals contains
  · exact empty.symm
  · exact equals.symm
  · exact contains.symm
  · rfl

theorem blockID_eq (reads : geth.Conforms) (conforms : decoder.Conforms)
    (plain : isPlainASCII content = true) (free : 92 ∉ content) :
    decoder.blockID (quoted content) = (parseBlockIDString geth content).toOption.map some := by
  cases parsed : parseBlockIDString geth content with
  | ok blockId =>
    exact conforms.blockID_text content blockId plain free
      ((parseBlockIDString_eq_ok reads).mp parsed)
  | error error =>
    refine conforms.blockID_other content plain free fun blockId text => ?_
    rw [(parseBlockIDString_eq_ok reads).mpr text] at parsed
    cases parsed

/-- What the fast path returns for a scan that did not decline. -/
theorem reading_eq (reads : geth.Conforms) (conforms : decoder.Conforms) {scan : ContextScan}
    (plain : scan.Plain) :
    decoder.reading scan =
      if scan.hasBlockID then
        ((parseBlockIDString geth scan.blockID).map fun blockId =>
          (⟨some blockId, ownBlockContextType scan.typ⟩ : BlockContext)).toOption
      else some ⟨none, ownBlockContextType scan.typ⟩ := by
  unfold ContextDecoder.reading
  rw [ownBlockContextType_eq]
  split_ifs with held
  · rw [blockID_eq reads conforms (plain held).1 (plain held).2]
    cases parseBlockIDString geth scan.blockID <;> rfl
  · rfl

/-- The scan of an object either declines or has read what the decoder reads. -/
theorem scanObject_context (conforms : decoder.Conforms) (object : IsObject rfc8259 value members)
    (here : raw.drop 0 = value ++ rest) :
    ∃ stop scan, scanObject raw 0 (visitContext raw) .zero = .ok (some stop, scan) ∧
      (scan.declined = true ∨
        scan.Plain ∧ members.foldlM decoder.member ⟨none, []⟩ = decoder.reading scan) := by
  have values : ∀ member ∈ members, Value loose member.2 :=
    fun member listed => (object.loose.mem listed).1
  have started : ContextScan.zero.Plain := fun held => by cases held
  have reports := scanObject_exact (visits_context raw) object.loose values here .zero
  obtain ⟨scan, goOn, walked, read⟩ := reading_walk conforms members values started
  rw [walked] at reports
  cases goOn with
  | true => exact ⟨_, scan, reports, read⟩
  | false =>
    obtain ⟨early, stopped⟩ := reports
    exact ⟨early, scan, stopped, read⟩

/-- A document that starts with a byte no blank is has nothing before its value. -/
theorem object_of_head (document : Document raw value) (valid : Value rfc8259 value)
    (head : raw.head? = some 123) :
    ∃ members rest, IsObject rfc8259 value members ∧ raw.drop 0 = value ++ rest := by
  obtain ⟨before, after, blanks, _, rfl⟩ := document
  cases before with
  | cons byte before =>
    have blank := blanks byte (by simp)
    rw [show byte = 123 from Option.some.inj head] at blank
    exact absurd blank (by decide)
  | nil =>
    obtain ⟨byte, rest, shape, _⟩ := value_head valid.loose
    have first : value.head? = some 123 := by simpa [shape] using head
    obtain ⟨members, object⟩ := valid.isObject first
    exact ⟨members, after, object, rfl⟩

/-! Decoders that keep the laws, for texts without escapes. -/

def readHash (input : Bytes) : Except Bytes Bytes :=
  match (cut0x input).bind hexBytes with
  | none => .error (ascii "invalid hex string")
  | some digest => .ok digest

def readQuantity (input : Bytes) : Except Bytes Nat :=
  match cut0x input with
  | none => .error (ascii "hex string without 0x prefix")
  | some digits =>
    if digits = [] then .error (ascii "hex string \"0x\"")
    else if 1 < digits.length ∧ digits.head? = some 48 then
      .error (ascii "hex number with leading zero digits")
    else
      match parseDigits 16 digits with
      | none => .error (ascii "invalid hex string")
      | some number =>
        if number < 2 ^ 64 then .ok number else .error (ascii "hex number > 64 bits")

def readingGeth : Geth := ⟨readHash, readQuantity⟩

theorem canonical_iff {digits : Bytes} (present : digits ≠ []) :
    ¬ (1 < digits.length ∧ digits.head? = some 48) ↔
      digits = ascii "0" ∨ digits.head? ≠ some 48 := by
  cases digits with
  | nil => exact absurd rfl present
  | cons byte rest =>
    cases rest with
    | nil => simpa [ascii] using em (byte = 48)
    | cons next rest => simp [ascii]

theorem readQuantity_eq_ok {input : Bytes} :
    readQuantity input = .ok number ↔
      ∃ digits, cut0x input = some digits ∧ digits ≠ [] ∧
        (digits = ascii "0" ∨ digits.head? ≠ some 48) ∧ parseDigits 16 digits = some number ∧
        number < 2 ^ 64 := by
  unfold readQuantity
  cases cut : cut0x input with
  | none => simp
  | some digits =>
    simp only [Option.some.injEq, exists_eq_left']
    by_cases empty : digits = []
    · simp [empty]
    · simp only [empty, if_false, ne_eq, not_false_eq_true, true_and]
      by_cases padded : 1 < digits.length ∧ digits.head? = some 48
      · rw [if_pos padded]
        exact iff_of_false (by simp) fun found => (canonical_iff empty).mpr found.1 padded
      · rw [if_neg padded]
        have plain := (canonical_iff empty).mp padded
        cases parseDigits 16 digits with
        | none => simp
        | some value =>
          simp only [plain, true_and, Option.some.injEq]
          split_ifs with fits
          · simp only [Except.ok.injEq]
            exact ⟨fun same => ⟨same, same ▸ fits⟩, And.left⟩
          · exact iff_of_false (by simp) fun found => fits (found.1 ▸ found.2)

theorem readingGeth_conforms : readingGeth.Conforms where
  digest input digest _ := by
    show readHash input = _ ↔ _
    rw [readHash, ← Option.bind_eq_some_iff]
    cases (cut0x input).bind hexBytes <;> simp
  quantity _ _ := readQuantity_eq_ok

/-- The reading of a block id that is a string or null. -/
def readBlockID (value : Bytes) : Option (Option BlockId) :=
  if value = ascii "null" then some none
  else if value.head? = some 34 then
    (parseBlockIDString readingGeth value.tail.dropLast).toOption.map some
  else none

def scanningDecoder : ContextDecoder where
  unquote := some
  blockID := readBlockID
  unmarshal raw :=
    (Jsonrpc.membersOf raw).foldlM (ContextDecoder.member ⟨some, readBlockID, fun _ => none⟩) ⟨none, []⟩

theorem readBlockID_quoted (content : Bytes) :
    readBlockID (quoted content) = (parseBlockIDString readingGeth content).toOption.map some := by
  have notNull : quoted content ≠ ascii "null" := by simp [quoted, ascii]
  have head : (quoted content).head? = some 34 := rfl
  have stripped : (quoted content).tail.dropLast = content := by simp [quoted]
  rw [readBlockID, if_neg notNull, if_pos head, stripped]

theorem scanningDecoder_conforms : scanningDecoder.Conforms where
  unquote_plain _ _ _ := rfl
  blockID_text content blockId _ _ text := by
    refine (readBlockID_quoted content).trans ?_
    rw [(parseBlockIDString_eq_ok readingGeth_conforms).mpr text]
    rfl
  blockID_other content _ _ other := by
    refine (readBlockID_quoted content).trans ?_
    cases parsed : parseBlockIDString readingGeth content with
    | ok blockId =>
      exact absurd ((parseBlockIDString_eq_ok readingGeth_conforms).mp parsed) (other blockId)
    | error error => rfl
  object raw value members document object := by
    refine (congrArg (List.foldlM _ _) (Jsonrpc.membersOf_document document object.loose)).trans ?_
    rfl

/-- The block context of requests, as these decoders read it. -/
def readBlockContext (requests : List (Option Jsonrpc.RequestObject)) : Option BlockContext :=
  (parseBlockContext readingGeth scanSecond scanningDecoder.unmarshal false requests).toOption.join

/-- A block number behind a member that is skipped. -/
def sampleContext : List (Bytes × Bytes) :=
  [(ascii "x", ascii "null"), (ascii "block_id", quoted (ascii "0x10")),
    (ascii "type", quoted (ascii "Equals"))]

theorem sampleContext_isObject :
    IsObject rfc8259 (objectText [] (sampleContext.map Member.compact)) sampleContext := by
  refine isObject_compact fun member listed => ?_
  simp only [sampleContext, List.mem_cons, List.not_mem_nil, or_false] at listed
  rcases listed with rfl | rfl | rfl
  all_goals refine ⟨Jsonrpc.chars_of_plain _ (List.all_iff_forall_prop.mp (by decide)), ?_⟩
  · exact .scalar (.inr (.inr (.inr rfl)))
  · exact .string (Jsonrpc.chars_of_plain _ (List.all_iff_forall_prop.mp (by decide)))
  · exact .string (Jsonrpc.chars_of_plain _ (List.all_iff_forall_prop.mp (by decide)))

/-- Where the fast path handles a valid text, it gives what the reference decoder gives. -/
theorem decodeBlockContextFast_agrees (geth : Geth) (reads : geth.Conforms)
    (decoder : ContextDecoder) (conforms : decoder.Conforms) (raw value : Bytes)
    (document : Document raw value) (valid : Value rfc8259 value) :
    ∃ result, decodeBlockContextFast geth raw = .ok result ∧
      ∀ outcome, result = some outcome → decoder.unmarshal raw = outcome.toOption := by
  unfold decodeBlockContextFast
  split_ifs with other
  · exact ⟨none, rfl, fun outcome handled => by cases handled⟩
  · obtain ⟨members, rest, object, here⟩ := object_of_head document valid (not_not.mp other)
    obtain ⟨stop, scan, scanned, read⟩ := scanObject_context conforms object here
    simp only [scanned, Checked.ok_bind, Option.isNone_some, Bool.false_or]
    split_ifs with declined held
    · exact ⟨none, rfl, fun outcome handled => by cases handled⟩
    all_goals
      refine ⟨_, rfl, fun outcome handled => ?_⟩
      cases handled
      obtain ⟨plain, read⟩ := read.resolve_left declined
      rw [conforms.object raw value members document object, read, reading_eq reads conforms plain]
    · rw [if_pos held]
    · rw [if_neg held]
      rfl

theorem decodeBlockContextFast_sample :
    decodeBlockContextFast readingGeth (objectText [] (sampleContext.map Member.compact)) =
        .ok (some (.ok ⟨some ⟨some 16, none⟩, ascii "Equals"⟩)) ∧
      scanningDecoder.unmarshal (objectText [] (sampleContext.map Member.compact)) =
        some ⟨some ⟨some 16, none⟩, ascii "Equals"⟩ := by
  have fast : decodeBlockContextFast readingGeth (objectText [] (sampleContext.map Member.compact)) =
      .ok (some (.ok ⟨some ⟨some 16, none⟩, ascii "Equals"⟩)) := by
    decide +kernel
  obtain ⟨result, decoded, agrees⟩ := decodeBlockContextFast_agrees readingGeth
    readingGeth_conforms scanningDecoder scanningDecoder_conforms _ _ (.self _)
    sampleContext_isObject.isValue
  cases fast.symm.trans decoded
  exact ⟨fast, agrees _ rfl⟩

end Fast

end NodexProxy.Lb
