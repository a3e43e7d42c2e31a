import NodexProxy.Jsonrpc.Borrowed

/-! Request intake: `generateRequestContext` from the body a client sends. -/

namespace NodexProxy.Lb

open NodexProxy.Foundation NodexProxy.Foundation.Json NodexProxy.Jsonrpc

inductive IntakeError where
  | parse (error : ParseError)
  | invalid (error : ErrorObject)
deriving DecidableEq, Repr

def IntakeError.error : IntakeError → Bytes
  | .parse error => error.error
  | .invalid object => object.error

/-- The part of `RequestContext` that intake fills. -/
structure RequestContext where
  archive : Bool
  method : Bytes
  isBatch : Bool
  requestBody : List (Option RequestObject)
  error : Option IntakeError
  responseBody : Option ResponseObject
deriving DecidableEq, Repr

def isArchiveNodeTypeHeaderValue (value : Bytes) : Bool := trimSpace value == ascii "archive"

def beforeProcess (nodeType : Bytes) : RequestContext where
  archive := isArchiveNodeTypeHeaderValue nodeType
  method := ascii "unknown"
  isBatch := false
  requestBody := []
  error := none
  responseBody := none

/-- Keep the first validation error, with the response for it. -/
def RequestContext.validate (context : RequestContext) : RequestContext :=
  match context.requestBody.findSome? validateRequest with
  | none => context
  | some object =>
    { context with
      error := some (.invalid object)
      responseBody := some (badRequest object.error) }

/-- What happens to the outcome of `ParseRequest`. The method of a single request is read before
anything is validated. -/
def RequestContext.accept (context : RequestContext)
    (parsed : Except ParseError (List (Option RequestObject))) : Checked RequestContext :=
  match parsed with
  | .error error => return { context with error := some (.parse error) }
  | .ok requests => do
    let context := { context with requestBody := requests, isBatch := decide (1 < requests.length) }
    if !context.isBatch then
      let first ← read requests 0
      let request ← deref first
      return { context with method := request.method }.validate
    else return context.validate

/-- `nodeType` is the value of the node-type header, `body` what could be read of the body. -/
def generateRequestContext (sonic : Sonic) (nodeType : Bytes) (body : Option Bytes) :
    Checked RequestContext := do
  let parsed ← parseRequest sonic body
  (beforeProcess nodeType).accept parsed

/-- An array without elements, or with null as its only element. -/
def EmptyOrNullBatch (body : Bytes) : Prop :=
  ∃ value elements, Document body value ∧ IsArray loose value elements ∧
    (elements = [] ∨ elements = [ascii "null"])

/-- Every request is there, speaks version 2.0 and names a method. -/
def RequestContext.Accepted (context : RequestContext) : Prop :=
  context.requestBody ≠ [] ∧ ∀ request ∈ context.requestBody, ∃ object, request = some object ∧
    object.jsonrpc = ascii "2.0" ∧ object.method ≠ []

theorem RequestContext.validate_sound (context : RequestContext)
    (nonempty : context.requestBody ≠ []) :
    context.validate.error.isSome ∨ context.validate.Accepted := by
  unfold RequestContext.validate
  cases found : context.requestBody.findSome? validateRequest with
  | some object => exact .inl rfl
  | none =>
    right
    refine ⟨nonempty, fun request member => ?_⟩
    exact validateRequest_eq_none.mp (List.findSome?_eq_none_iff.mp found request member)

theorem RequestContext.validate_spec (context : RequestContext) :
    context.validate.isBatch = context.isBatch ∧ context.validate.method = context.method ∧
      context.validate.requestBody = context.requestBody := by
  unfold RequestContext.validate
  split <;> exact ⟨rfl, rfl, rfl⟩

/-- Several requests, or one that is there and gives its method. -/
theorem RequestContext.accept_cases {context result : RequestContext}
    (accepted : context.accept (.ok requests) = .ok result) :
    (1 < requests.length ∧
      result = { context with requestBody := requests, isBatch := true }.validate) ∨
    ∃ object, requests = [some object] ∧ result =
      { context with requestBody := requests, isBatch := false, method := object.method }.validate := by
  unfold RequestContext.accept at accepted
  dsimp only at accepted
  by_cases several : 1 < requests.length
  · simp only [several, decide_true, Bool.not_true, Bool.false_eq_true, if_false] at accepted
    cases accepted
    exact .inl ⟨several, rfl⟩
  · simp only [several, decide_false, Bool.not_false, if_true] at accepted
    obtain ⟨first, found, accepted⟩ := Checked.of_bind_ok accepted
    obtain ⟨object, there, accepted⟩ := Checked.of_bind_ok accepted
    cases accepted
    rcases requests with _ | ⟨only, _ | ⟨next, rest⟩⟩
    · cases found
    · cases found
      cases first with
      | none => cases there
      | some request =>
        cases there
        exact .inr ⟨object, rfl, rfl⟩
    · simp at several

theorem RequestContext.accept_requestBody {context result : RequestContext}
    (accepted : context.accept (.ok requests) = .ok result) : result.requestBody = requests := by
  rcases RequestContext.accept_cases accepted with ⟨-, rfl⟩ | ⟨object, rfl, rfl⟩
  all_goals exact (RequestContext.validate_spec _).2.2

/-- A request without an error was parsed. -/
theorem RequestContext.accept_parsed {context result : RequestContext}
    {parsed : Except ParseError (List (Option RequestObject))}
    (accepted : context.accept parsed = .ok result) (valid : result.error = none) :
    parsed = .ok result.requestBody := by
  cases parsed with
  | error error =>
    cases accepted
    cases valid
  | ok requests => rw [RequestContext.accept_requestBody accepted]

theorem RequestContext.accept_sound (context : RequestContext)
    (present : 1 < requests.length ∨ ∃ object, requests = [some object]) :
    ∃ result, context.accept (.ok requests) = .ok result ∧
      (result.error.isSome ∨ result.Accepted) := by
  rcases present with several | ⟨object, rfl⟩
  · have nonempty : requests ≠ [] := by
      rintro rfl
      simp at several
    refine ⟨_, by simp [RequestContext.accept, several]; rfl, ?_⟩
    exact RequestContext.validate_sound _ nonempty
  · refine ⟨_, rfl, ?_⟩
    exact RequestContext.validate_sound _ (by simp)

theorem strict_of_emptyOrNull (array : IsArray loose value elements)
    (shape : elements = [] ∨ elements = [ascii "null"]) : IsArray rfc8259 value elements := by
  obtain ⟨blank, items, text, blanks, spaced, -, values⟩ := array
  refine ⟨blank, items, text, blanks, spaced, fun item listed => ?_, values⟩
  have listed : item.value ∈ elements := values ▸ List.mem_map_of_mem listed
  rcases shape with rfl | rfl
  · simp at listed
  · rw [List.mem_singleton.mp listed]
    exact .scalar (.inr (by simp [Literal]))

theorem free_of_emptyOrNull (document : Document body value)
    (array : IsArray loose value elements)
    (shape : elements = [] ∨ elements = [ascii "null"]) : 92 ∉ body := by
  obtain ⟨before, after, first, last, rfl⟩ := document
  obtain ⟨blank, items, rfl, blanks, spaced, -, rfl⟩ := array
  have free (text : Bytes) (blanks : Blank text) : 92 ∉ text := fun member => by
    simpa using blanks 92 member
  rcases items with _ | ⟨item, _ | ⟨next, items⟩⟩
  · simp [arrayText, separated, free _ first, free _ last, free _ blanks]
  · have value : item.value = ascii "null" := by simpa using shape
    have null : 92 ∉ ascii "null" := by decide
    have around := spaced item (by simp)
    simp [arrayText, separated, Element.text, value, null, free _ first, free _ last,
      free _ around.before, free _ around.after]
  · simp at shape

/-- Any other body leaves at least one request, and a single one is there. -/
theorem decoded_of_not_emptyOrNull {sonic : Sonic} (reads : sonic.ReadsArrays)
    (safe : ¬EmptyOrNullBatch body)
    (decoded : parseRequestDecoded sonic body = .ok requests) :
    1 < requests.length ∨ ∃ object, requests = [some object] := by
  unfold parseRequestDecoded at decoded
  split_ifs at decoded with batch
  · cases found : sonic.unmarshalBatch body with
    | none => simp [found] at decoded
    | some items =>
      obtain rfl : items = requests := by simpa [found] using decoded
      obtain ⟨value, elements, document, array, nulls⟩ := reads body items batch found
      cases nulls with
      | nil => exact absurd ⟨value, [], document, array, .inl rfl⟩ safe
      | @cons element request elements items null rest =>
        cases rest with
        | cons => exact .inl (by simp)
        | nil =>
          cases request with
          | some object => exact .inr ⟨object, rfl⟩
          | none =>
            obtain rfl := null.mp rfl
            exact absurd ⟨value, _, document, array, .inr rfl⟩ safe
  · cases found : sonic.unmarshalRequest body with
    | none => simp [found] at decoded
    | some object =>
      refine .inr ⟨object, ?_⟩
      simpa [found] using decoded.symm

section Laws

variable {sonic : Sonic} (conforms : sonic.Conforms)
include conforms

/-- Whichever path is taken, the outcome is the decoder's. -/
theorem parseRequest_eq_decoded (body : Bytes) :
    parseRequest sonic (some body) = .ok (parseRequestDecoded sonic body) := by
  unfold parseRequest
  rcases parseRequestBorrowed_cases conforms body with declined | ⟨requests, accepted, decoded⟩
  · simp only [declined, Checked.ok_bind, Checked.pure_eq]
  · simp only [accepted, decoded, Checked.ok_bind, Checked.pure_eq]

theorem generateRequestContext_some (nodeType body : Bytes) :
    generateRequestContext sonic nodeType (some body) =
      (beforeProcess nodeType).accept (parseRequestDecoded sonic body) := by
  unfold generateRequestContext
  rw [parseRequest_eq_decoded conforms body, Checked.ok_bind]

/-- The decoder reads an empty array as no request, and a lone null as a nil one. -/
theorem decoded_of_emptyOrNull (document : Document body value)
    (array : IsArray loose value elements) (shape : elements = [] ∨ elements = [ascii "null"]) :
    parseRequestDecoded sonic body = .ok (elements.map fun _ => none) := by
  have strict := strict_of_emptyOrNull array shape
  have free : 92 ∉ body := free_of_emptyOrNull document array shape
  have batch : isBatch body = true := by
    obtain ⟨blank, items, rfl, -⟩ := array
    exact isBatch_of_document document rfl rfl
  unfold parseRequestDecoded
  rw [if_pos batch]
  rcases shape with rfl | rfl
  · rw [conforms.batch body value [] [] free document strict .nil]
    rfl
  · rw [conforms.batch body value _ [some none] free document strict (.cons .null .nil)]
    rfl

end Laws

/-- Intake returns an error or a list of well-formed requests, unless the body is an array
without elements or with null as its only element: there it faults. -/
theorem generateRequestContext_safe_iff (sonic : Sonic) (conforms : sonic.Conforms)
    (reads : sonic.ReadsArrays) (nodeType body : Bytes) :
    (∃ context, generateRequestContext sonic nodeType (some body) = .ok context ∧
      (context.error.isSome ∨ context.Accepted)) ↔ ¬EmptyOrNullBatch body := by
  rw [generateRequestContext_some conforms nodeType body]
  constructor
  · rintro ⟨context, returned, -⟩ ⟨value, elements, document, array, shape⟩
    rw [decoded_of_emptyOrNull conforms document array shape] at returned
    rcases shape with rfl | rfl
    · cases returned
    · cases returned
  · intro safe
    cases decoded : parseRequestDecoded sonic body with
    | error error => exact ⟨_, rfl, .inl rfl⟩
    | ok requests =>
      exact RequestContext.accept_sound _ (decoded_of_not_emptyOrNull reads safe decoded)

theorem generateRequestContext_safe_sample :
    ∃ context, generateRequestContext plainSonic [] (some (objectText [] sampleMembers)) =
      .ok context ∧ (context.error.isSome ∨ context.Accepted) := by
  refine (generateRequestContext_safe_iff plainSonic plainSonic_conforms plainSonic_readsArrays
    [] _).mpr ?_
  rintro ⟨value, elements, document, ⟨blank, items, rfl, -⟩, -⟩
  have batch := isBatch_of_document document rfl rfl
  revert batch
  decide

theorem generateRequestContext_faults :
    generateRequestContext plainSonic [] (some (ascii "[]")) = .error .outOfRange ∧
      generateRequestContext plainSonic [] (some (ascii "[null]")) = .error .nilPointer := by
  have blank : Blank [] := by simp [Blank]
  have none : IsArray loose (ascii "[]") [] := ⟨[], [], rfl, blank, by simp, by simp, rfl⟩
  have null : IsArray loose (ascii "[null]") [ascii "null"] := by
    refine ⟨[], [⟨[], ascii "null", []⟩], by decide, blank, ?_, ?_, rfl⟩
    · simpa using Element.Spaced.mk blank blank
    · simp [Value.loose (.scalar (.inr (by simp [Literal])) : Value rfc8259 (ascii "null"))]
  constructor
  · rw [generateRequestContext_some plainSonic_conforms,
      decoded_of_emptyOrNull plainSonic_conforms (.self _) none (.inl rfl)]
    rfl
  · rw [generateRequestContext_some plainSonic_conforms,
      decoded_of_emptyOrNull plainSonic_conforms (.self _) null (.inr rfl)]
    rfl

end NodexProxy.Lb
