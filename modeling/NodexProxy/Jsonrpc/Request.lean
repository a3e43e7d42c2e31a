import NodexProxy.Foundation.Json
import NodexProxy.Jsonscan.Scan

/-! Reading a JSON-RPC request body: the reference decoder, and the fast path that borrows
from the body whatever decodes to its own text. `sonic` stays a parameter; what is relied on
is stated as laws. -/

namespace NodexProxy.Jsonrpc

open NodexProxy.Foundation NodexProxy.Foundation.Json NodexProxy.Jsonscan

/-- Raw fields are `none` while they are nil. -/
structure RequestObject where
  jsonrpc : Bytes
  method : Bytes
  params : Option Bytes
  id : Option Bytes
deriving DecidableEq, Repr

def RequestObject.zero : RequestObject := ⟨[], [], none, none⟩

inductive ParseError where
  | readBody
  | parseBatch
  | parseSingle
deriving DecidableEq, Repr

def ParseError.error : ParseError → Bytes
  | .readBody => ascii "failed to read jsonrpc request body"
  | .parseBatch => ascii "failed to parse jsonrpc batch request"
  | .parseSingle => ascii "failed to parse jsonrpc request"

/-- What is used of `sonic`. Unmarshalling gives `none` for an error; `unquote` is the string
that stands for the text between two quotes. -/
structure Sonic where
  valid : Bytes → Bool
  unquote : Bytes → Option Bytes
  unmarshalRequest : Bytes → Option RequestObject
  unmarshalBatch : Bytes → Option (List (Option RequestObject))

inductive Field where
  | jsonrpc
  | method
  | params
  | id
deriving DecidableEq, Repr

def Field.name : Field → Bytes
  | .jsonrpc => ascii "jsonrpc"
  | .method => ascii "method"
  | .params => ascii "params"
  | .id => ascii "id"

/-- `requestKeys`. -/
def requestKeys : List Field := [.jsonrpc, .method, .params, .id]

def lower (byte : UInt8) : UInt8 := if 65 ≤ byte ∧ byte ≤ 90 then byte + 32 else byte

/-- `strings.EqualFold` on ASCII text. -/
def equalFold (first second : Bytes) : Bool := first.map lower == second.map lower

def fieldOf (name : Bytes) : Option Field := requestKeys.find? fun field => equalFold name field.name

section Reference

variable (unquote : Bytes → Option Bytes)

/-- A value for a string field: null leaves it, and only a string is assigned. -/
def decodeString (value old : Bytes) : Option Bytes :=
  if value = ascii "null" then some old
  else if value.head? = some 34 then unquote (value.tail.dropLast)
  else none

/-- Assign one member. Keys match without regard to ASCII case, raw fields get the text. -/
def decodeMember (request : RequestObject) (member : Bytes × Bytes) : Option RequestObject := do
  let name ← unquote member.1
  match fieldOf name with
  | none => return request
  | some .jsonrpc =>
    let value ← decodeString unquote member.2 request.jsonrpc
    return { request with jsonrpc := value }
  | some .method =>
    let value ← decodeString unquote member.2 request.method
    return { request with method := value }
  | some .params => return { request with params := some member.2 }
  | some .id => return { request with id := some member.2 }

/-- Members in order, so the last duplicate wins. -/
def decodeMembers (members : List (Bytes × Bytes)) : Option RequestObject :=
  members.foldlM (decodeMember unquote) .zero

/-- An element of a batch: null is a nil pointer, an object a request, anything else an error. -/
inductive DecodesElement : Bytes → Option (Option RequestObject) → Prop where
  | null : DecodesElement (ascii "null") (some none)
  | object : IsObject rfc8259 text members →
      DecodesElement text ((decodeMembers unquote members).map some)
  | other : Value rfc8259 text → text ≠ ascii "null" → text.head? ≠ some 123 →
      DecodesElement text none

/-- The reference reading of a body, escapes included: one request, or a batch with nil pointers
for its nulls. -/
def ReadsAs (body : Bytes) (requests : List (Option RequestObject)) : Prop :=
  ∃ value, Document body value ∧
    ((∃ members request, IsObject rfc8259 value members ∧
      decodeMembers unquote members = some request ∧ requests = [some request]) ∨
    ∃ elements, IsArray rfc8259 value elements ∧
      List.Forall₂ (DecodesElement unquote) elements (requests.map some))

end Reference

/-- Documented behaviour of `sonic`. Escape sequences are outside what the laws for single
documents say. -/
structure Sonic.Conforms (sonic : Sonic) : Prop where
  /-- Text without escapes is valid when it is an RFC 8259 document. -/
  valid_iff : ∀ body, 92 ∉ body → (sonic.valid body = true ↔
    ∃ value, Document body value ∧ Value rfc8259 value)
  unquote_plain : ∀ content, isPlainASCII content = true → 92 ∉ content →
    sonic.unquote content = some content
  request : ∀ body value members, 92 ∉ body → Document body value →
    IsObject rfc8259 value members → sonic.unmarshalRequest body = decodeMembers sonic.unquote members
  batch : ∀ body value elements outcomes, 92 ∉ body → Document body value →
    IsArray rfc8259 value elements →
    List.Forall₂ (DecodesElement sonic.unquote) elements outcomes →
    sonic.unmarshalBatch body = outcomes.mapM id

/-- Documents are decoded member by member and element by element, whatever escapes are in their
strings. -/
structure Sonic.Decodes (sonic : Sonic) : Prop where
  request : ∀ body value members, Document body value → IsObject rfc8259 value members →
    sonic.unmarshalRequest body = decodeMembers sonic.unquote members
  batch : ∀ body value elements outcomes, Document body value → IsArray rfc8259 value elements →
    List.Forall₂ (DecodesElement sonic.unquote) elements outcomes →
    sonic.unmarshalBatch body = outcomes.mapM id

def isBatch (body : Bytes) : Bool :=
  (body.find? fun byte => !isSpace byte) == some 91

/-- A batch is decoded only from an array, however loosely its scalars are checked, and the
requests are nil exactly for its nulls. -/
def Sonic.ReadsArrays (sonic : Sonic) : Prop :=
  ∀ body requests, isBatch body = true → sonic.unmarshalBatch body = some requests →
    ∃ value elements, Document body value ∧ IsArray loose value elements ∧
      List.Forall₂ (fun element request => request = none ↔ element = ascii "null") elements requests

/-- A single request is decoded only from an object, however loosely its strings are checked, or
from null, which leaves it zero. -/
def Sonic.ReadsObjects (sonic : Sonic) : Prop :=
  ∀ body request, sonic.unmarshalRequest body = some request →
    request = .zero ∨ ∃ value members, Document body value ∧ IsObject loose value members ∧
      decodeMembers sonic.unquote members = some request

/-- A raw value is skipped by one rule wherever it stands, and an object decoded member by
member. -/
structure Sonic.Skips (sonic : Sonic) (skips : Bytes → Prop) : Prop where
  valid : ∀ value, Value rfc8259 value → skips value
  reads : ∀ body request, sonic.unmarshalRequest body = some request →
    request = .zero ∨ ∃ value members, Document body value ∧ IsObject loose value members ∧
      (∀ member ∈ members, skips member.2) ∧ decodeMembers sonic.unquote members = some request
  decodes : ∀ body value members, Document body value → IsObject loose value members →
    (∀ member ∈ members, skips member.2) →
    sonic.unmarshalRequest body = decodeMembers sonic.unquote members

section Parse

variable (sonic : Sonic)

def parseRequestDecoded (body : Bytes) : Except ParseError (List (Option RequestObject)) :=
  if isBatch body then
    match sonic.unmarshalBatch body with
    | none => .error .parseBatch
    | some requests => .ok requests
  else
    match sonic.unmarshalRequest body with
    | none => .error .parseSingle
    | some request => .ok [some request]

/-- The visitor of `scanRequestObject`: the request so far, and whether it can be borrowed. -/
def visitMember (text : Bytes) (state : RequestObject × Bool) (key : Bytes) (keyEscaped : Bool)
    (start stop : Nat) : Checked ((RequestObject × Bool) × Bool) :=
  let decline := ((state.1, false), false)
  if key = ascii "jsonrpc" ∨ key = ascii "method" then do
    let byte ← read text start
    if byte ≠ 34 then return decline
    else
      let value ← slice text (start + 1) (stop - 1)
      if !isPlainASCII value then return decline
      else if key = ascii "jsonrpc" then
        return (({ state.1 with jsonrpc := value }, state.2), true)
      else return (({ state.1 with method := value }, state.2), true)
  else if key = ascii "params" then do
    let raw ← slice text start stop
    return (({ state.1 with params := some raw }, state.2), true)
  else if key = ascii "id" then do
    let raw ← slice text start stop
    return (({ state.1 with id := some raw }, state.2), true)
  -- the decoder matches keys case-insensitively, so a key that could fold onto a field is left to it
  else if keyEscaped || !isPlainASCII key then return decline
  else if requestKeys.any fun field => equalFold key field.name then return decline
  else return (state, true)

def scanRequestObject (text : Bytes) (index : Nat) : Checked (Option RequestObject) := do
  let (stop, request, ok) ← scanObject text index (visitMember text) (.zero, true)
  return if ok && stop.isSome then some request else none

/-- The visitor over a batch: the requests so far, and whether one was declined. -/
def visitElement (text : Bytes) (state : List RequestObject × Bool) (_ start _ : Nat) :
    Checked ((List RequestObject × Bool) × Bool) := do
  let byte ← read text start
  if byte ≠ 123 then return ((state.1, true), false)
  else
    match ← scanRequestObject text start with
    | none => return ((state.1, true), false)
    | some request => return ((state.1 ++ [request], state.2), true)

/-- The requests as views into the body, or `none` to leave the body to the decoder. -/
def parseRequestBorrowed (body : Bytes) : Checked (Option (List RequestObject)) :=
  if body.contains 92 || !sonic.valid body then return none
  else do
    let index ← skipSpace body 0
    if body.length ≤ index then return none
    else
      let byte ← read body index
      if byte = 123 then
        let request ← scanRequestObject body index
        return request.map fun request => [request]
      else if byte = 91 then
        let (stop, requests, declined) ← scanArray body index (visitElement body) ([], false)
        return if stop.isNone || declined then none else some requests
      else return none

/-- `ParseRequest`. Without a body there is nothing to parse. -/
def parseRequest (body : Option Bytes) :
    Checked (Except ParseError (List (Option RequestObject))) :=
  match body with
  | none => return .error .readBody
  | some body => do
    match ← parseRequestBorrowed sonic body with
    | some requests => return .ok (requests.map some)
    | none => return parseRequestDecoded sonic body

end Parse

structure ErrorObject where
  code : Int
  message : Bytes
  data : Bytes
deriving DecidableEq, Repr

def ErrorObject.error (object : ErrorObject) : Bytes :=
  ascii "code: " ++ itoa object.code ++ ascii ", err_msg: " ++ object.message

/-- An error response; it has no result. -/
structure ResponseObject where
  jsonrpc : Bytes
  error : ErrorObject
  id : Bytes
deriving DecidableEq, Repr

def errorResponse (object : ErrorObject) : ResponseObject := ⟨ascii "2.0", object, ascii "1"⟩

/-- `BadRequest`, from the text of the error. -/
def badRequest (error : Bytes) : ResponseObject :=
  errorResponse ⟨-32700, ascii "parse error", error⟩

/-- `BadGateway`. -/
def badGateway (error : Bytes) : ResponseObject :=
  errorResponse ⟨-32603, ascii "server error", error⟩

/-- `GatewayTimeout`. -/
def gatewayTimeout (error : Bytes) : ResponseObject :=
  errorResponse ⟨-41002, ascii "server error", error⟩

/-- The first position at which the text continues with `part`. -/
def indexOf (part text : Bytes) : Option Nat :=
  (List.range (text.length + 1)).find? fun index => part.isPrefixOf (text.drop index)

/-- The loop of `ContainsErrorKey` from an offset on; each turn moves past one occurrence. -/
def containsErrorKeyLoop (message : Bytes) : Nat → Nat → Bool
  | 0, _ => false
  | fuel + 1, offset =>
    if message.length ≤ offset then false
    else
      match indexOf (ascii "rror\"") (message.drop offset) with
      | none => false
      | some found =>
        let index := found + offset
        if 2 ≤ index ∧ message[index - 2]? = some 34 ∧
            (message[index - 1]? = some 101 ∨ message[index - 1]? = some 69) then true
        else containsErrorKeyLoop message fuel (index + 5)

def containsErrorKey (message : Bytes) : Bool := containsErrorKeyLoop message message.length 0

def validateRequest (request : Option RequestObject) : Option ErrorObject :=
  match request with
  | none => some ⟨-32700, ascii "parse error", ascii "request must not be nil"⟩
  | some request =>
    if request.jsonrpc ≠ ascii "2.0" then
      some ⟨-32600, ascii "invalid Request", ascii "protocol must be exactly 2.0"⟩
    else if request.method = [] then
      some ⟨-32600, ascii "invalid Request", ascii "method must not empty"⟩
    else none

theorem validateRequest_eq_none {request : Option RequestObject} :
    validateRequest request = none ↔
      ∃ object, request = some object ∧ object.jsonrpc = ascii "2.0" ∧ object.method ≠ [] := by
  cases request with
  | none => simp [validateRequest]
  | some object =>
    simp only [validateRequest, Option.some.injEq, exists_eq_left']
    split_ifs <;> simp_all

end NodexProxy.Jsonrpc
