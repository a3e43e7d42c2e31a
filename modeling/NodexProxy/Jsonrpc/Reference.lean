import NodexProxy.Jsonrpc.Request
import NodexProxy.Jsonscan.Walk

/-! Decoders built on the scanner, one that runs and two that keep the laws asked of `sonic`. They
decode no escapes. -/

namespace NodexProxy.Jsonrpc

open NodexProxy.Foundation NodexProxy.Foundation.Json NodexProxy.Jsonscan

/-- Collect members without looking at them. -/
def collectMember (text : Bytes) (state : List (Bytes × Bytes)) (key : Bytes) (_ : Bool)
    (start stop : Nat) : Checked (List (Bytes × Bytes) × Bool) := do
  let value ← slice text start stop
  return (state ++ [(key, value)], true)

def collectElement (text : Bytes) (state : List Bytes) (_ start stop : Nat) :
    Checked (List Bytes × Bool) := do
  let value ← slice text start stop
  return (state ++ [value], true)

def startOf (text : Bytes) : Nat := (text.takeWhile isSpace).length

def membersOf (text : Bytes) : List (Bytes × Bytes) :=
  match scanObject text (startOf text) (collectMember text) [] with
  | .ok (_, members) => members
  | .error _ => []

def elementsOf (text : Bytes) : List Bytes :=
  match scanArray text (startOf text) (collectElement text) [] with
  | .ok (_, elements) => elements
  | .error _ => []

def decodeElement (text : Bytes) : Option (Option RequestObject) :=
  if text = ascii "null" then some none
  else if text.head? = some 123 then (decodeMembers some (membersOf text)).map some
  else none

/-- A document is taken for valid if nothing is left behind its brackets. -/
def scanningSonic : Sonic where
  valid body :=
    match skipValue body (startOf body) with
    | .ok (some stop) => (body.drop stop).all isSpace
    | _ => false
  unquote := some
  unmarshalRequest body := decodeMembers some (membersOf body)
  unmarshalBatch body := (elementsOf body).mapM decodeElement

/-- The text `JSON` writes for an error response whose strings need no escapes. -/
def ResponseObject.text (object : ResponseObject) : Bytes :=
  ascii "\x7b\"jsonrpc\":" ++ quoted object.jsonrpc ++ ascii ",\"error\":\x7b\"code\":" ++
    itoa object.error.code ++ ascii ",\"message\":" ++ quoted object.error.message ++
    (if object.error.data = [] then [] else ascii ",\"data\":" ++ quoted object.error.data) ++
    ascii "\x7d,\"id\":" ++ object.id ++ ascii "\x7d"

/-- The error stands before the id. -/
theorem ResponseObject.mark_infix_text (object : ResponseObject) :
    ascii "\x7d,\"id\":" <:+: object.text := by
  unfold ResponseObject.text
  rw [List.append_assoc _ object.id]
  exact (List.suffix_append _ _).isInfix.trans (List.prefix_append _ _).isInfix

theorem ResponseObject.text_ne_nil (object : ResponseObject) : object.text ≠ [] := by
  simp [ResponseObject.text, ascii]

open Classical in
noncomputable def plainSonic : Sonic where
  valid body := decide (∃ value, Document body value ∧ Value rfc8259 value)
  unquote := some
  unmarshalRequest body := decodeMembers some (membersOf body)
  unmarshalBatch body :=
    if ∃ value elements, Document body value ∧ IsArray loose value elements then
      (elementsOf body).mapM decodeElement
    else none

section Collect

variable {Item : Type}

theorem walk_collect {Result : Type} (value : Item → Result) (items : List Item) :
    ∀ state : List Result, walk (fun state item => .ok (state ++ [value item], true)) items state =
      .ok (state ++ items.map value, true) := by
  induction items with
  | nil => simp [walk]
  | cons item items ih =>
    intro state
    rw [walk]
    simpa using ih (state ++ [value item])

end Collect

theorem startOf_document (document : Document body value) (isValue : Value loose value) :
    ∃ rest, body.drop (startOf body) = value ++ rest := by
  obtain ⟨before, after, blanks, _, rfl⟩ := document
  have split : (before ++ value ++ after).drop 0 = before ++ (value ++ after) := by simp
  have start := skipSpace_value blanks isValue split
  rw [skipSpace_eq] at start
  simp only [List.drop_zero, Nat.zero_add, Except.ok.injEq] at start
  refine ⟨after, ?_⟩
  rw [startOf, start]
  simp

theorem slice_value {text : Bytes} (here : text.drop start = value ++ rest) (nonempty : value ≠ []) :
    slice text start (start + value.length) = .ok value := by
  obtain ⟨byte, tail, rfl⟩ := List.exists_cons_of_ne_nil nonempty
  exact slice_of_drop here rfl (lt_length_of_drop here).le

theorem value_ne_nil (isValue : Value loose value) : value ≠ [] := by
  obtain ⟨byte, rest, rfl, _⟩ := value_head isValue
  simp

/-- A scan collects the members of an object and stops behind it. -/
theorem scanObject_collects (object : IsObject loose value members)
    (here : body.drop index = value ++ rest) :
    scanObject body index (collectMember body) [] = .ok (some (index + value.length), members) := by
  have visits : VisitsMembers body (fun member => member.2 ≠ []) (collectMember body)
      (fun state member => .ok (state ++ [member], true)) := by
    intro state key value start rest nonempty here
    rw [collectMember, slice_value here nonempty]
    rfl
  have reports := scanObject_exact visits object
    (fun member listed => value_ne_nil (object.mem listed).1) here []
  rw [walk_collect fun member => member] at reports
  simpa using show scanObject body _ (collectMember body) [] = _ from reports

theorem membersOf_document (document : Document body value)
    (object : IsObject loose value members) : membersOf body = members := by
  obtain ⟨rest, here⟩ := startOf_document document object.isValue
  rw [membersOf, scanObject_collects object here]

/-- No text starts with two different objects. -/
theorem object_unique (first : IsObject loose value members) (second : IsObject loose other others)
    (same : value ++ rest = other ++ tail) : value = other ∧ members = others := by
  have scanned := scanObject_collects first (show (value ++ rest).drop 0 = _ from rfl)
  rw [scanObject_collects second (show (value ++ rest).drop 0 = _ from same)] at scanned
  simp only [Nat.zero_add, Except.ok.injEq, Prod.mk.injEq, Option.some.injEq] at scanned
  exact ⟨(List.append_inj same scanned.1.symm).1, scanned.2.symm⟩

theorem elementsOf_document (document : Document body value)
    (array : IsArray loose value elements) : elementsOf body = elements := by
  obtain ⟨rest, here⟩ := startOf_document document array.isValue
  have visits : VisitsElements body (fun element => element ≠ []) (collectElement body)
      (fun state element => .ok (state ++ [element.1], true)) := by
    intro state value position start rest nonempty here
    rw [collectElement, slice_value here nonempty]
    rfl
  have reports := scanArray_exact visits array
    (fun element listed => value_ne_nil (array.mem listed).1) here []
  rw [walk_collect (fun element : Bytes × Nat => element.1)] at reports
  rw [elementsOf, show scanArray body _ (collectElement body) [] = _ from reports]
  simp

theorem decodeElement_eq (decodes : DecodesElement some text outcome) :
    decodeElement text = outcome := by
  cases decodes with
  | null => rfl
  | object object =>
    have head : text.head? = some 123 := by
      obtain ⟨blank, items, rfl, _⟩ := object
      rfl
    have other : text ≠ ascii "null" := by
      rintro rfl
      cases head
    rw [decodeElement, if_neg other, if_pos head, membersOf_document (.self text) object.loose]
  | other _ other head => rw [decodeElement, if_neg other, if_neg head]

theorem decodeElement_none_iff (decoded : decodeElement text = some request) :
    request = none ↔ text = ascii "null" := by
  unfold decodeElement at decoded
  split at decoded
  · cases decoded
    simpa
  · split at decoded
    · obtain ⟨found, _, rfl⟩ := Option.map_eq_some_iff.mp decoded
      simpa
    · cases decoded

theorem map_decodeElement (all : List.Forall₂ (DecodesElement some) elements outcomes) :
    elements.map decodeElement = outcomes := by
  induction all with
  | nil => rfl
  | cons first _ ih => rw [List.map_cons, decodeElement_eq first, ih]

theorem forall₂_of_mapM (elements : List Bytes) :
    ∀ requests, elements.mapM decodeElement = some requests →
      List.Forall₂ (fun element request => request = none ↔ element = ascii "null")
        elements requests := by
  induction elements with
  | nil =>
    intro requests decoded
    cases decoded
    exact .nil
  | cons element elements ih =>
    intro requests decoded
    rw [List.mapM_cons] at decoded
    obtain ⟨request, first, decoded⟩ := Option.bind_eq_some_iff.mp decoded
    obtain ⟨more, rest, decoded⟩ := Option.bind_eq_some_iff.mp decoded
    cases decoded
    exact .cons (decodeElement_none_iff first) (ih more rest)

theorem plainSonic_decodes : plainSonic.Decodes where
  request body value members document object := by
    show decodeMembers some (membersOf body) = _
    rw [membersOf_document document object.loose]
    rfl
  batch body value elements outcomes document array all := by
    have decoded : plainSonic.unmarshalBatch body = (elementsOf body).mapM decodeElement :=
      if_pos ⟨value, elements, document, array.loose⟩
    rw [decoded, elementsOf_document document array.loose, ← map_decodeElement all, List.mapM_map]
    rfl

theorem plainSonic_conforms : plainSonic.Conforms where
  valid_iff body _ := by simp [plainSonic]
  unquote_plain _ _ _ := rfl
  request body value members _ := plainSonic_decodes.request body value members
  batch body value elements outcomes _ := plainSonic_decodes.batch body value elements outcomes

theorem plainSonic_readsArrays : plainSonic.ReadsArrays := by
  intro body requests _ decoded
  obtain ⟨⟨value, elements, document, array⟩, decoded⟩ :=
    Option.ite_none_right_eq_some.mp decoded
  rw [elementsOf_document document array] at decoded
  exact ⟨value, elements, document, array, forall₂_of_mapM elements requests decoded⟩

open Classical in
/-- A decoder that also rejects what is no object. -/
noncomputable def strictSonic : Sonic where
  valid := plainSonic.valid
  unquote := some
  unmarshalRequest body :=
    if ∃ value members, Document body value ∧ IsObject loose value members then
      plainSonic.unmarshalRequest body
    else none
  unmarshalBatch := plainSonic.unmarshalBatch

theorem strictSonic_conforms : strictSonic.Conforms where
  valid_iff := plainSonic_conforms.valid_iff
  unquote_plain _ _ _ := rfl
  request body value members free document object :=
    (if_pos ⟨value, members, document, object.loose⟩).trans
      (plainSonic_conforms.request body value members free document object)
  batch := plainSonic_conforms.batch

theorem strictSonic_skips : strictSonic.Skips (Value loose) where
  valid _ valid := valid.loose
  reads body request decoded := by
    obtain ⟨⟨value, members, document, object⟩, decoded⟩ := Option.ite_none_right_eq_some.mp decoded
    refine .inr ⟨value, members, document, object, fun member listed => (object.mem listed).1, ?_⟩
    rw [← decoded, ← membersOf_document document object]
    rfl
  decodes body value members document object _ := by
    refine (if_pos ⟨value, members, document, object⟩).trans ?_
    rw [← membersOf_document document object]
    rfl

theorem strictSonic_readsObjects : strictSonic.ReadsObjects := by
  intro body request decoded
  refine (strictSonic_skips.reads body request decoded).imp_right ?_
  exact fun ⟨value, members, document, object, _, decoded⟩ => ⟨value, members, document, object, decoded⟩

theorem strictSonic_readsArrays : strictSonic.ReadsArrays := plainSonic_readsArrays

end NodexProxy.Jsonrpc
