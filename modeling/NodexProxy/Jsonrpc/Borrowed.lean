import NodexProxy.Jsonrpc.Reference

/-! The borrowed fast path refines the reference decoder: what it does not decline, the
decoder reads in the same way. -/

namespace NodexProxy.Jsonrpc

open NodexProxy.Foundation NodexProxy.Foundation.Json NodexProxy.Jsonscan

section Members

/-- `visitMember` on the text of the value. -/
def visitMemberText (state : RequestObject × Bool) (member : Bytes × Bytes) :
    Checked ((RequestObject × Bool) × Bool) :=
  let decline := ((state.1, false), false)
  if member.1 = ascii "jsonrpc" ∨ member.1 = ascii "method" then
    if member.2.head? ≠ some 34 then return decline
    else if !isPlainASCII member.2.tail.dropLast then return decline
    else if member.1 = ascii "jsonrpc" then
      return (({ state.1 with jsonrpc := member.2.tail.dropLast }, state.2), true)
    else return (({ state.1 with method := member.2.tail.dropLast }, state.2), true)
  else if member.1 = ascii "params" then
    return (({ state.1 with params := some member.2 }, state.2), true)
  else if member.1 = ascii "id" then
    return (({ state.1 with id := some member.2 }, state.2), true)
  else if !isPlainASCII member.1 then return decline
  else if requestKeys.any fun field => equalFold member.1 field.name then return decline
  else return (state, true)

/-- Members the laws speak about. -/
structure Plain (member : Bytes × Bytes) : Prop where
  value : Value rfc8259 member.2
  key : 92 ∉ member.1
  text : 92 ∉ member.2

theorem quoted_of_head (value : Value loose text) (head : text.head? = some 34) :
    ∃ content, text = quoted content := by
  cases value with
  | scalar scalar =>
    obtain ⟨byte, rest, rfl⟩ := List.exists_cons_of_ne_nil scalar.1
    cases head
    exact absurd rfl (Loose.ne (scalar.2 34 (by simp)) (by decide))
  | string content => exact ⟨_, rfl⟩
  | array blank elements => cases head
  | object blank members => cases head

theorem visits_members (body : Bytes) :
    VisitsMembers body Plain (visitMember body) visitMemberText := by
  intro state key value start rest plain here
  have loosely : Value loose value := plain.value.loose
  obtain ⟨byte, tail, starts, _⟩ := value_head loosely
  have atByte : body.drop start = byte :: (tail ++ rest) := by rw [here, starts, List.cons_append]
  have first : read body start = .ok byte := read_of_drop atByte
  have raw : slice body start (start + value.length) = .ok value :=
    slice_of_drop here rfl (lt_length_of_drop atByte).le
  have unescaped : key.contains 92 = false := by simpa using plain.key
  unfold visitMember visitMemberText
  simp only [first, raw, unescaped, Checked.ok_bind, Bool.false_or]
  by_cases named : key = ascii "jsonrpc" ∨ key = ascii "method"
  · simp only [if_pos named]
    by_cases quote : byte = 34
    · have head : value.head? = some 34 := by simp [starts, quote]
      obtain ⟨content, rfl⟩ := quoted_of_head loosely head
      have inner : (quoted content).tail.dropLast = content := by simp [quoted]
      simp only [ne_eq, quote, head, not_true_eq_false, if_false, slice_quoted here, inner,
        Checked.ok_bind]
    · have head : value.head? ≠ some 34 := by simpa [starts] using quote
      simp only [ne_eq, quote, head, not_false_eq_true, if_true]
  · simp only [if_neg named]

variable {sonic : Sonic} (conforms : sonic.Conforms)
include conforms

theorem unquote_name (field : Field) : sonic.unquote field.name = some field.name := by
  apply conforms.unquote_plain <;> cases field <;> decide

/-- A borrowed string field is what the decoder assigns. -/
theorem decodeString_plain (free : 92 ∉ value) (head : value.head? = some 34)
    (plain : isPlainASCII value.tail.dropLast = true) (old : Bytes) :
    decodeString sonic.unquote value old = some value.tail.dropLast := by
  have other : value ≠ ascii "null" := by
    rintro rfl
    cases head
  have inner : 92 ∉ value.tail.dropLast := fun member =>
    free (List.mem_of_mem_tail (List.dropLast_subset _ member))
  rw [decodeString, if_neg other, if_pos head, conforms.unquote_plain _ plain inner]

theorem decodeMember_field (field : Field) (request : RequestObject) (value : Bytes) :
    decodeMember sonic.unquote request (field.name, value) =
      match field with
      | .jsonrpc => (decodeString sonic.unquote value request.jsonrpc).map fun text =>
          { request with jsonrpc := text }
      | .method => (decodeString sonic.unquote value request.method).map fun text =>
          { request with method := text }
      | .params => some { request with params := some value }
      | .id => some { request with id := some value } := by
  have found : fieldOf field.name = some field := by cases field <;> decide
  simp only [decodeMember, unquote_name conforms, Option.bind_eq_bind, Option.bind_some, found]
  cases field with
  | jsonrpc => cases decodeString sonic.unquote value request.jsonrpc <;> rfl
  | method => cases decodeString sonic.unquote value request.method <;> rfl
  | params => rfl
  | id => rfl

/-- A visited member is declined, or assigned as the decoder assigns it. -/
theorem visitMemberText_decodes (plain : Plain member) (request : RequestObject) :
    visitMemberText (request, true) member = .ok ((request, false), false) ∨
      ∃ next, visitMemberText (request, true) member = .ok ((next, true), true) ∧
        decodeMember sonic.unquote request member = some next := by
  obtain ⟨key, value⟩ := member
  have free : 92 ∉ value := plain.text
  unfold visitMemberText
  simp only [Checked.pure_eq]
  by_cases known : ∃ field : Field, key = field.name
  · obtain ⟨field, rfl⟩ := known
    rw [decodeMember_field conforms]
    -- a string field is borrowed only if it is a string of printable ASCII
    have text : (value.head? = some 34 ∧ isPlainASCII value.tail.dropLast = true) ∨
        (value.head? ≠ some 34 ∨ isPlainASCII value.tail.dropLast = false) := by
      cases isPlainASCII value.tail.dropLast <;> tauto
    cases field with
    | params => exact .inr ⟨_, rfl, rfl⟩
    | id => exact .inr ⟨_, rfl, rfl⟩
    | jsonrpc =>
      rcases text with ⟨head, printable⟩ | declined
      · refine .inr ⟨{ request with jsonrpc := value.tail.dropLast }, ?_, ?_⟩
        · simp [Field.name, head, printable]
        · simp [decodeString_plain conforms free head printable]
      · left
        rcases declined with head | unprintable <;> simp [Field.name, *]
    | method =>
      rcases text with ⟨head, printable⟩ | declined
      · refine .inr ⟨{ request with method := value.tail.dropLast }, ?_, ?_⟩
        · have other : ascii "method" ≠ ascii "jsonrpc" := by decide
          simp [Field.name, head, printable, other]
        · simp [decodeString_plain conforms free head printable]
      · left
        rcases declined with head | unprintable <;> simp [Field.name, *]
  · have other : ∀ field : Field, key ≠ field.name := fun field same => known ⟨field, same⟩
    have texts : ¬ (key = ascii "jsonrpc" ∨ key = ascii "method") :=
      not_or.mpr ⟨other .jsonrpc, other .method⟩
    have params : ¬ key = ascii "params" := other .params
    have id : ¬ key = ascii "id" := other .id
    simp only [if_neg texts, if_neg params, if_neg id]
    cases printable : isPlainASCII key with
    | false => exact .inl rfl
    | true =>
      cases folds : requestKeys.any fun field => equalFold key field.name with
      | true => exact .inl rfl
      | false =>
        have none : fieldOf key = none := by
          simpa [fieldOf, List.find?_eq_none, List.any_eq_false] using folds
        refine .inr ⟨request, rfl, ?_⟩
        simp [decodeMember, conforms.unquote_plain key printable plain.key, none]

/-- A whole walk either declines or decodes. -/
theorem walk_decodes (members : List (Bytes × Bytes)) :
    ∀ request : RequestObject, (∀ member ∈ members, Plain member) →
      (∃ last, walk visitMemberText members (request, true) = .ok ((last, false), false)) ∨
      ∃ last, walk visitMemberText members (request, true) = .ok ((last, true), true) ∧
        members.foldlM (decodeMember sonic.unquote) request = some last := by
  induction members with
  | nil => exact fun request _ => .inr ⟨request, rfl, rfl⟩
  | cons member members ih =>
    intro request plain
    rw [walk]
    rcases visitMemberText_decodes conforms (plain member (by simp)) request with
      declined | ⟨next, visited, decoded⟩
    · exact .inl ⟨request, by rw [declined]; rfl⟩
    · rw [visited, List.foldlM_cons, decoded]
      exact ih next fun member listed => plain member (by simp [listed])

end Members

section Requests

theorem plain_of_object (object : IsObject rfc8259 text members) (free : 92 ∉ text) :
    ∀ member ∈ members, Plain member := by
  rintro ⟨key, value⟩ listed
  obtain ⟨isValue, keyInside, valueInside⟩ := object.mem listed
  exact ⟨isValue, fun member => free (keyInside 92 member),
    fun member => free (valueInside 92 member)⟩

/-- What `scanRequestObject` makes of the members of an object. -/
def borrowMembers (members : List (Bytes × Bytes)) : Checked (Option RequestObject) := do
  let ((request, ok), _) ← walk visitMemberText members (.zero, true)
  return if ok then some request else none

variable {body : Bytes} {index : Nat}

theorem scanRequestObject_eq (object : IsObject rfc8259 text members) (free : 92 ∉ text)
    (here : body.drop index = text ++ rest) :
    scanRequestObject body index = borrowMembers members := by
  have reports := scanObject_exact (visits_members body) object.loose (plain_of_object object free)
    here (.zero, true)
  unfold scanRequestObject borrowMembers
  cases walked : walk visitMemberText members (.zero, true) with
  | error fault =>
    rw [walked] at reports
    rw [show scanObject body index (visitMember body) (.zero, true) = _ from reports]
    rfl
  | ok outcome =>
    obtain ⟨⟨request, ok⟩, done⟩ := outcome
    rw [walked] at reports
    cases done with
    | true =>
      rw [show scanObject body index (visitMember body) (.zero, true) = _ from reports]
      cases ok <;> rfl
    | false =>
      obtain ⟨early, scanned⟩ := reports
      rw [scanned]
      cases ok <;> rfl

/-- `visitElement` on the text of the element. -/
def visitElementText (state : List RequestObject × Bool) (element : Bytes × Nat) :
    Checked ((List RequestObject × Bool) × Bool) := do
  if element.1.head? ≠ some 123 then return ((state.1, true), false)
  else
    match ← scanRequestObject element.1 0 with
    | none => return ((state.1, true), false)
    | some request => return ((state.1 ++ [request], state.2), true)

theorem visits_elements (body : Bytes) :
    VisitsElements body (fun element => Value rfc8259 element ∧ 92 ∉ element) (visitElement body)
      visitElementText := by
  rintro state element position start rest ⟨value, free⟩ here
  obtain ⟨byte, tail, starts, _⟩ := value_head value.loose
  have first : read body start = .ok byte :=
    read_of_drop (here.trans (by rw [starts, List.cons_append]))
  have head : element.head? = some byte := by rw [starts]; rfl
  unfold visitElement visitElementText
  rw [first, head]
  by_cases brace : byte = 123
  · subst byte
    obtain ⟨members, object⟩ := value.isObject head
    have whole : element.drop 0 = element ++ [] := by simp
    rw [scanRequestObject_eq object free here, scanRequestObject_eq object free whole]
    rfl
  · simp [brace]

variable {sonic : Sonic} (conforms : sonic.Conforms)
include conforms

/-- Borrowing an object declines it, or gives the decoder's request. -/
theorem borrowMembers_decodes (plain : ∀ member ∈ members, Plain member) :
    borrowMembers members = .ok none ∨ ∃ request, borrowMembers members = .ok (some request) ∧
      decodeMembers sonic.unquote members = some request := by
  unfold borrowMembers
  rcases walk_decodes conforms members .zero plain with ⟨last, declined⟩ | ⟨last, walked, decoded⟩
  · rw [declined]
    exact .inl rfl
  · rw [walked]
    exact .inr ⟨last, rfl, decoded⟩

/-- A walk over a batch declines it, or gives the decoder's requests. -/
theorem walk_elements_decodes (elements : List Bytes) :
    ∀ (position : Nat) (requests : List RequestObject),
      (∀ element ∈ elements, Value rfc8259 element ∧ 92 ∉ element) →
      (∃ last, walk visitElementText (elements.zipIdx position) (requests, false) =
        .ok ((last, true), false)) ∨
      ∃ more, walk visitElementText (elements.zipIdx position) (requests, false) =
          .ok ((requests ++ more, false), true) ∧
        List.Forall₂ (DecodesElement sonic.unquote) elements
          (more.map fun request => some (some request)) := by
  induction elements with
  | nil => exact fun position requests _ => .inr ⟨[], by simp [walk], .nil⟩
  | cons element elements ih =>
    intro position requests seen
    obtain ⟨value, free⟩ := seen element (by simp)
    rw [List.zipIdx_cons, walk]
    by_cases head : element.head? = some 123
    · obtain ⟨members, object⟩ := value.isObject head
      have whole : element.drop 0 = element ++ [] := by simp
      have scanned := scanRequestObject_eq object free whole
      rcases borrowMembers_decodes conforms (plain_of_object object free) with
        declined | ⟨request, borrowed, decoded⟩
      · left
        simp [visitElementText, head, scanned, declined]
      · have visited : visitElementText (requests, false) (element, position) =
            .ok ((requests ++ [request], false), true) := by
          simp [visitElementText, head, scanned, borrowed]
        rw [visited]
        rcases ih (position + 1) (requests ++ [request])
          (fun element listed => seen element (by simp [listed])) with
          ⟨last, declined⟩ | ⟨more, walked, all⟩
        · exact .inl ⟨last, declined⟩
        · refine .inr ⟨request :: more, by simpa using walked, .cons ?_ all⟩
          have decodes : DecodesElement sonic.unquote element
              ((decodeMembers sonic.unquote members).map some) := .object object
          rwa [decoded] at decodes
    · left
      simp [visitElementText, head]

omit conforms in
theorem isBatch_of_document (document : Document body value) (starts : value = byte :: tail)
    (token : isSpace byte = false) : isBatch body = (byte == 91) := by
  obtain ⟨before, after, blanks, _, rfl⟩ := document
  have none : before.find? (fun byte => !isSpace byte) = none := by
    rw [List.find?_eq_none]
    intro byte member
    simpa using (isSpace_eq byte).mpr (blanks byte member)
  simp [isBatch, starts, List.find?_append, none, token]

/-- On an object the scan declines, or finds the request the decoder finds. -/
theorem scanRequestObject_decodes (document : Document body value) (free : 92 ∉ body)
    (object : IsObject rfc8259 value members) (here : body.drop index = value ++ after)
    (freeValue : 92 ∉ value) :
    scanRequestObject body index = .ok none ∨
      ∃ request, scanRequestObject body index = .ok (some request) ∧
        sonic.unmarshalRequest body = some request := by
  rw [scanRequestObject_eq object freeValue here,
    conforms.request body value members free document object]
  exact borrowMembers_decodes conforms (plain_of_object object freeValue)

/-- On an array the visitor declines, or has the requests of the decoder when the scan ends. -/
theorem scanArray_decodes (document : Document body value) (free : 92 ∉ body)
    (array : IsArray rfc8259 value elements) (here : body.drop index = value ++ after)
    (freeValue : 92 ∉ value) :
    (∃ stop last, scanArray body index (visitElement body) ([], false) = .ok (stop, last, true)) ∨
      ∃ stop requests,
        scanArray body index (visitElement body) ([], false) = .ok (some stop, requests, false) ∧
          sonic.unmarshalBatch body = some (requests.map some) := by
  have seen : ∀ element ∈ elements, Value rfc8259 element ∧ 92 ∉ element := fun element listed =>
    ⟨(array.mem listed).1, fun member => freeValue ((array.mem listed).2 92 member)⟩
  have reports := scanArray_exact (visits_elements body) array.loose seen here ([], false)
  rcases walk_elements_decodes conforms elements 0 [] seen with
    ⟨last, declined⟩ | ⟨requests, walked, all⟩
  · rw [declined] at reports
    obtain ⟨early, scanned⟩ := reports
    exact .inl ⟨some early, last, scanned⟩
  · rw [walked] at reports
    refine .inr ⟨_, requests, reports, ?_⟩
    rw [conforms.batch body value elements _ free document array all, List.mapM_map]
    exact List.mapM_pure

/-- The fast path declines a body, or reads it as the decoder does. -/
theorem parseRequestBorrowed_cases (body : Bytes) :
    parseRequestBorrowed sonic body = .ok none ∨
      ∃ requests, parseRequestBorrowed sonic body = .ok (some requests) ∧
        parseRequestDecoded sonic body = .ok (requests.map some) := by
  unfold parseRequestBorrowed
  by_cases declined : (body.contains 92 || !sonic.valid body) = true
  · exact .inl (if_pos declined)
  rw [if_neg declined]
  simp only [Bool.or_eq_true, List.contains_iff_mem, Bool.not_eq_true', not_or,
    Bool.not_eq_false] at declined
  obtain ⟨free, valid⟩ := declined
  obtain ⟨value, document, isValue⟩ := (conforms.valid_iff body free).mp valid
  have parts := document
  obtain ⟨before, after, blanks, _, same⟩ := parts
  have start : body.drop 0 = before ++ (value ++ after) := by simp [same]
  have here : body.drop before.length = value ++ after := by
    simpa using drop_add_of_drop start
  obtain ⟨byte, tail, starts, inner⟩ := value_head isValue.loose
  have atByte : body.drop before.length = byte :: (tail ++ after) := by
    rw [here, starts, List.cons_append]
  have token : isSpace byte = false := by
    by_contra blank
    simp [isDelimiter, Bool.eq_true_of_not_eq_false blank] at inner
  have batch := isBatch_of_document document starts token
  have freeValue : 92 ∉ value := fun member => free (by simp [same, member])
  have index := skipSpace_value blanks isValue.loose start
  rw [Nat.zero_add] at index
  rw [index]
  simp only [Checked.ok_bind, if_neg (Nat.not_le.mpr (lt_length_of_drop atByte)),
    read_of_drop atByte]
  unfold parseRequestDecoded
  rw [batch]
  by_cases brace : byte = 123
  · subst byte
    obtain ⟨members, object⟩ := isValue.isObject (by rw [starts]; rfl)
    rcases scanRequestObject_decodes conforms document free object here freeValue with
      declined | ⟨request, borrowed, decoded⟩
    · rw [declined]
      exact .inl rfl
    · rw [borrowed, decoded]
      exact .inr ⟨[request], rfl, rfl⟩
  by_cases bracket : byte = 91
  · subst byte
    obtain ⟨elements, array⟩ := isValue.isArray (by rw [starts]; rfl)
    rcases scanArray_decodes conforms document free array here freeValue with
      ⟨stop, last, declined⟩ | ⟨stop, requests, borrowed, decoded⟩
    · rw [declined]
      exact .inl (by simp)
    · rw [borrowed, decoded]
      exact .inr ⟨requests, rfl, rfl⟩
  · simp [brace, bracket]

omit conforms in
theorem parseRequestDecoded_of_readsAs (decodes : sonic.Decodes)
    (reads : ReadsAs sonic.unquote body requests) :
    parseRequestDecoded sonic body = .ok requests := by
  obtain ⟨value, document, ⟨members, request, object, decoded, rfl⟩ | ⟨elements, array, all⟩⟩ := reads
  · have single : isBatch body = false := by
      obtain ⟨blank, items, text, -⟩ := object
      exact isBatch_of_document document text rfl
    have unmarshalled := decodes.request body value members document object
    rw [parseRequestDecoded, single, unmarshalled, decoded]
    rfl
  · have batch : isBatch body = true := by
      obtain ⟨blank, items, text, -⟩ := array
      exact isBatch_of_document document text rfl
    have unmarshalled := decodes.batch body value elements _ document array all
    rw [List.mapM_map, show (id ∘ some : Option RequestObject → _) = pure from rfl,
      List.mapM_pure] at unmarshalled
    simp [parseRequestDecoded, batch, unmarshalled]

end Requests

/-- Where the fast path does not decline, the decoder succeeds with the same requests: as
many of them, and the same in every field. -/
theorem borrowed_requests_agree (sonic : Sonic) (conforms : sonic.Conforms) (body : Bytes)
    (requests : List RequestObject)
    (borrowed : parseRequestBorrowed sonic body = .ok (some requests)) :
    parseRequestDecoded sonic body = .ok (requests.map some) := by
  rcases parseRequestBorrowed_cases conforms body with declined | ⟨found, accepted, decoded⟩
  · rw [declined] at borrowed
    cases borrowed
  · rw [accepted] at borrowed
    cases borrowed
    exact decoded

def sampleMembers : List Member :=
  [⟨[], ascii "jsonrpc", [], [], quoted (ascii "2.0"), []⟩,
    ⟨[], ascii "method", [], [], quoted (ascii "m"), []⟩,
    ⟨[], ascii "id", [], [], ascii "1", []⟩]

theorem chars_of_plain : ∀ text : Bytes, (∀ byte ∈ text, 32 ≤ byte ∧ byte ≠ 34 ∧ byte ≠ 92) →
    Chars text
  | [], _ => .nil
  | byte :: text, plain =>
    have first := plain byte (by simp)
    .plain first.1 first.2.1 first.2.2
      (chars_of_plain text fun byte member => plain byte (by simp [member]))

theorem sampleMembers_valid : plainSonic.valid (objectText [] sampleMembers) = true := by
  refine (plainSonic_conforms.valid_iff _ (by decide)).mpr ⟨_, .self _, ?_⟩
  refine .object [] sampleMembers (by simp [Blank]) ?_ ?_
  · intro member listed
    simp only [sampleMembers, List.mem_cons, List.not_mem_nil, or_false] at listed
    have blank : Blank [] := by simp [Blank]
    rcases listed with rfl | rfl | rfl
    all_goals
      exact ⟨⟨blank, blank, blank, blank⟩,
        chars_of_plain _ (List.all_iff_forall_prop.mp (by decide))⟩
  · intro member listed
    simp only [sampleMembers, List.mem_cons, List.not_mem_nil, or_false] at listed
    rcases listed with rfl | rfl | rfl
    · exact .string (chars_of_plain _ (List.all_iff_forall_prop.mp (by decide)))
    · exact .string (chars_of_plain _ (List.all_iff_forall_prop.mp (by decide)))
    · exact value_one

theorem borrowed_requests_agree_sample :
    parseRequestBorrowed plainSonic (objectText [] sampleMembers) =
      .ok (some [⟨ascii "2.0", ascii "m", none, some (ascii "1")⟩]) ∧
    parseRequestDecoded plainSonic (objectText [] sampleMembers) =
      .ok [some ⟨ascii "2.0", ascii "m", none, some (ascii "1")⟩] := by
  have borrowed : parseRequestBorrowed plainSonic (objectText [] sampleMembers) =
      .ok (some [⟨ascii "2.0", ascii "m", none, some (ascii "1")⟩]) := by
    rw [parseRequestBorrowed, sampleMembers_valid]
    rfl
  exact ⟨borrowed, borrowed_requests_agree plainSonic plainSonic_conforms _ _ borrowed⟩

end NodexProxy.Jsonrpc
