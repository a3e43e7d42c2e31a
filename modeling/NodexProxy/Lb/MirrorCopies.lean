import NodexProxy.Lb.DenyList

/-! What mirrors receive when the body was rewritten before it was copied for them. -/

namespace NodexProxy.Lb

open NodexProxy.Foundation NodexProxy.Foundation.Json NodexProxy.Discovery NodexProxy.Jsonrpc

section Payload

/-- The values of the request `getLatestBlock` is rewritten to. -/
def payloadValue (height : Int) (id : Bytes) : Field → Bytes
  | .jsonrpc => quoted (ascii "2.0")
  | .method => quoted (ascii "getBlockByHeight")
  | .params => arrayText [] [Element.compact (quoted (encodeBig height))]
  | .id => id

def payloadMembers (order : List Field) (height : Int) (id : Bytes) : List (Bytes × Bytes) :=
  order.map fun field => (field.name, payloadValue height id field)

/-- The payload without white space. A map is marshalled in any order. -/
def payloadText (order : List Field) (height : Int) (id : Bytes) : Bytes :=
  objectText [] ((payloadMembers order height id).map Member.compact)

def rewrittenLength (height : Int) (id : Bytes) : Nat := 65 + (encodeBig height).length + id.length

theorem payloadMembers_length (permuted : order.Perm requestKeys) (height : Int) (id : Bytes) :
    (((payloadMembers order height id).map Member.compact).map fun member =>
      member.text.length).sum = 60 + (encodeBig height).length + id.length := by
  rw [payloadMembers, List.map_map, List.map_map, (permuted.map _).sum_eq]
  simp [requestKeys, Member.compact, Member.text, Member.core, Element.compact, Element.text, quoted,
    arrayText, separated, payloadValue, Field.name, ascii]
  omega

theorem payloadText_length (permuted : order.Perm requestKeys) (height : Int) (id : Bytes) :
    (payloadText order height id).length = rewrittenLength height id := by
  have four : ((payloadMembers order height id).map Member.compact).length = 4 := by
    have same : order.length = 4 := permuted.length_eq
    simpa [payloadMembers] using same
  have nonempty : (payloadMembers order height id).map Member.compact ≠ [] :=
    List.ne_nil_of_length_pos (by omega)
  rw [payloadText, length_objectText [] _ nonempty, payloadMembers_length permuted, four,
    rewrittenLength]
  omega

/-- Printable, and no quote or backslash. -/
def Printed (byte : UInt8) : Prop := 32 ≤ byte ∧ byte ≠ 34 ∧ byte ≠ 92

instance (byte : UInt8) : Decidable (Printed byte) := inferInstanceAs (Decidable (_ ∧ _ ∧ _))

theorem hexadecimal_printed (number : Nat) : ∀ byte ∈ hexadecimal number, Printed byte := by
  unfold hexadecimal
  split
  · exact List.all_iff_forall_prop.mp (by decide)
  · intro byte listed
    obtain ⟨digit, inside, rfl⟩ := List.mem_map.mp listed
    have small := Nat.digits_lt_base (by omega) (List.mem_reverse.mp inside)
    interval_cases digit <;> decide

theorem encodeBig_printed (number : Int) : ∀ byte ∈ encodeBig number, Printed byte := by
  have sign : ∀ byte ∈ ascii "-0x", Printed byte := List.all_iff_forall_prop.mp (by decide)
  intro byte listed
  unfold encodeBig at listed
  split at listed
  all_goals rcases List.mem_append.mp listed with mark | digit
  · exact sign byte mark
  · exact hexadecimal_printed _ byte digit
  · exact sign byte (List.mem_of_mem_tail mark)
  · exact hexadecimal_printed _ byte digit

theorem Field.name_chars (field : Field) : Chars field.name := by
  cases field <;> exact chars_of_plain _ (List.all_iff_forall_prop.mp (by decide))

theorem payloadParams_isArray (height : Int) (id : Bytes) :
    IsArray rfc8259 (payloadValue height id .params) [quoted (encodeBig height)] := by
  have texts : payloadValue height id .params =
    arrayText [] ([quoted (encodeBig height)].map Element.compact) := rfl
  rw [texts]
  refine isArray_compact fun value listed => ?_
  rw [List.mem_singleton.mp listed]
  exact .string (chars_of_plain _ (encodeBig_printed height))

/-- All values of the payload but the id are the proxy's own. -/
theorem payloadValue_valid (height : Int) (id : Bytes) (own : field ≠ .id) :
    Value rfc8259 (payloadValue height id field) := by
  cases field with
  | jsonrpc => exact .string (chars_of_plain _ (List.all_iff_forall_prop.mp (by decide)))
  | method => exact .string (chars_of_plain _ (List.all_iff_forall_prop.mp (by decide)))
  | params => exact (payloadParams_isArray height id).isValue
  | id => exact absurd rfl own

theorem payload_isObject {id : Bytes} (order : List Field) (height : Int) (valid : Value loose id) :
    IsObject loose (payloadText order height id) (payloadMembers order height id) := by
  apply isObject_compact
  intro member listed
  obtain ⟨field, -, rfl⟩ := List.mem_map.mp listed
  refine ⟨(Field.name_chars field).skipped, ?_⟩
  by_cases own : field = .id
  · subst field
    exact valid
  · exact (payloadValue_valid height id own).loose

end Payload

section Decoded

variable {sonic : Sonic}

/-- The request the payload stands for, from the members that are in. -/
def payloadRequest (order : List Field) (height : Int) (id : Bytes) (start : RequestObject) :
    RequestObject where
  jsonrpc := if .jsonrpc ∈ order then ascii "2.0" else start.jsonrpc
  method := if .method ∈ order then ascii "getBlockByHeight" else start.method
  params := if .params ∈ order then some (payloadValue height id .params) else start.params
  id := if .id ∈ order then some id else start.id

theorem payloadRequest_cons (field : Field) (order : List Field) (height : Int) (id : Bytes)
    (start : RequestObject) :
    payloadRequest order height id (payloadRequest [field] height id start) =
      payloadRequest (field :: order) height id start := by
  cases field <;> simp [payloadRequest]

theorem payloadMember_decodes (conforms : sonic.Conforms) (field : Field) (height : Int) (id : Bytes)
    (start : RequestObject) :
    decodeMember sonic.unquote start (field.name, payloadValue height id field) =
      some (payloadRequest [field] height id start) := by
  rw [decodeMember_field conforms]
  cases field with
  | jsonrpc =>
    have plain : decodeString sonic.unquote (quoted (ascii "2.0")) start.jsonrpc =
        some (ascii "2.0") := decodeString_plain conforms (by decide) rfl (by decide) _
    simp [payloadValue, plain, payloadRequest]
  | method =>
    have plain : decodeString sonic.unquote (quoted (ascii "getBlockByHeight")) start.method =
        some (ascii "getBlockByHeight") :=
      decodeString_plain conforms (by decide) rfl (by decide) _
    simp [payloadValue, plain, payloadRequest]
  | params => simp [payloadRequest]
  | id => simp [payloadValue, payloadRequest]

/-- Whatever the order, the payload decodes to its own request. -/
theorem payload_decodes (conforms : sonic.Conforms) (order : List Field) (height : Int) (id : Bytes)
    (start : RequestObject) :
    (payloadMembers order height id).foldlM (decodeMember sonic.unquote) start =
      some (payloadRequest order height id start) := by
  induction order generalizing start with
  | nil => simp [payloadMembers, payloadRequest]
  | cons field order inductionHypothesis =>
    rw [payloadMembers, List.map_cons, List.foldlM_cons, payloadMember_decodes conforms]
    refine (inductionHypothesis (payloadRequest [field] height id start)).trans ?_
    rw [payloadRequest_cons]

theorem decodeMember_id {start next : RequestObject}
    (assigned : decodeMember sonic.unquote start member = some next) :
    next.id = start.id ∨ next.id = some member.2 := by
  unfold decodeMember at assigned
  obtain ⟨name, -, assigned⟩ := Option.bind_eq_some_iff.mp assigned
  split at assigned
  · cases assigned
    exact .inl rfl
  · obtain ⟨text, -, assigned⟩ := Option.bind_eq_some_iff.mp assigned
    cases assigned
    exact .inl rfl
  · obtain ⟨text, -, assigned⟩ := Option.bind_eq_some_iff.mp assigned
    cases assigned
    exact .inl rfl
  · cases assigned
    exact .inl rfl
  · cases assigned
    exact .inr rfl

/-- What holds of all values holds of an id that was decoded from them. -/
theorem decoded_id {holds : Bytes → Prop} {members : List (Bytes × Bytes)}
    (valid : ∀ member ∈ members, holds member.2) {start request : RequestObject}
    (decoded : members.foldlM (decodeMember sonic.unquote) start = some request)
    (known : ∀ id ∈ start.id, holds id) : ∀ id ∈ request.id, holds id := by
  induction members generalizing start with
  | nil =>
    cases decoded
    exact known
  | cons member members inductionHypothesis =>
    rw [List.foldlM_cons] at decoded
    obtain ⟨next, assigned, decoded⟩ := Option.bind_eq_some_iff.mp decoded
    refine inductionHypothesis (fun member listed => valid member (by simp [listed])) decoded ?_
    intro id held
    rcases decodeMember_id assigned with same | fresh
    · exact known id (same ▸ held)
    · rw [fresh] at held
      cases held
      exact valid member (by simp)

/-- The id of the rewritten request: what holds of the values sent, and of 1, holds of it. -/
theorem payloadID_holds {holds : Bytes → Prop} {members : List (Bytes × Bytes)}
    {object : RequestObject} {id : Bytes} (valid : ∀ member ∈ members, holds member.2)
    (one : holds (ascii "1")) (decoded : decodeMembers sonic.unquote members = some object)
    (found : Proxy.payloadID [some object] = .ok id) : holds id := by
  cases held : object.id with
  | none =>
    have default : id = ascii "1" := by simpa [Proxy.payloadID, deref, held] using found.symm
    rwa [default]
  | some own =>
    have same : id = own := by simpa [Proxy.payloadID, deref, held] using found.symm
    rw [same]
    exact decoded_id valid decoded (by simp [RequestObject.zero]) own held

theorem head_of_touching {first second : Bytes} (touching : first <+: second ∨ second <+: first)
    (head : first.head? = some byte) (nonempty : second ≠ []) : second.head? = some byte := by
  rcases touching with ⟨rest, rfl⟩ | ⟨rest, rfl⟩
  · rw [List.head?_append, head]
    rfl
  · rwa [List.head?_append_of_ne_nil _ nonempty] at head

/-- Neither the body of a request for the latest block nor its payload starts the other. -/
theorem payload_apart (conforms : sonic.Conforms) (reads : sonic.ReadsObjects)
    (decoded : parseRequestDecoded sonic text = .ok [some object])
    (latest : object.method = ascii "getLatestBlock") {id : Bytes}
    (found : Proxy.payloadID [some object] = .ok id) (permuted : order.Perm requestKeys)
    (height : Int) :
    ¬(payloadText order height id <+: text ∨ text <+: payloadText order height id) := by
  intro touching
  have opens : (payloadText order height id).head? = some 123 := rfl
  unfold parseRequestDecoded at decoded
  by_cases batch : isBatch text = true
  · have head := head_of_touching touching opens (by rintro rfl; cases batch)
    obtain ⟨tail, rfl⟩ := List.head?_eq_some_iff.mp head
    cases batch
  rw [if_neg batch] at decoded
  cases unmarshalled : sonic.unmarshalRequest text with
  | none => simp [unmarshalled] at decoded
  | some request =>
    obtain rfl : request = object := by simpa [unmarshalled] using decoded
    rcases reads text request unmarshalled with rfl | ⟨value, members, document, object, assigned⟩
    · cases latest
    obtain ⟨before, after, blank, -, rfl⟩ := document
    have starts : value.head? = some 123 := by
      obtain ⟨gap, items, rfl, -⟩ := object
      rfl
    have nonempty : value ≠ [] := by
      rintro rfl
      cases starts
    have head := head_of_touching touching opens (by simp [nonempty])
    obtain rfl : before = [] := by
      rcases before with _ | ⟨byte, before⟩
      · rfl
      · cases head
        simpa using blank 123 (by simp)
    have valid := payloadID_holds (fun member listed => (object.mem listed).1) value_one.loose
      assigned found
    have payload := payload_isObject order height valid
    have same : members = payloadMembers order height id := by
      rcases touching with ⟨rest, text⟩ | ⟨rest, text⟩
      · exact (object_unique payload object (by simpa using text)).2.symm
      · have longer : value ++ (after ++ rest) = payloadText order height id ++ [] := by
          simpa using text
        exact (object_unique object payload longer).2
    subst members
    have named : .method ∈ order := permuted.mem_iff.mpr (by decide)
    have renamed : request.method = ascii "getBlockByHeight" := by
      rw [Option.some.inj (assigned.symm.trans (payload_decodes conforms order height id .zero))]
      exact if_pos named
    rw [latest] at renamed
    exact absurd renamed (by decide)

end Decoded

/-- What a view shows after a rewrite that fits is one of the two texts only when they are equally
long. -/
theorem whole_iff {text payload copy : Bytes} (apart : ¬(payload <+: text ∨ text <+: payload))
    (copied : copy = (payload ++ text.drop payload.length).take text.length) :
    copy = text ∨ copy = payload ↔ text.length = payload.length := by
  constructor
  · rintro (rfl | rfl)
    · have starts : copy <+: payload ++ copy.drop payload.length :=
        List.prefix_iff_eq_take.mpr copied
      exact absurd (List.prefix_or_prefix_of_prefix (List.prefix_append _ _) starts) apart
    · have length := congrArg List.length copied
      simp only [List.length_take, List.length_append, List.length_drop] at length
      omega
  · intro length
    right
    rw [copied, length, List.take_left]

namespace Proxy

/-- Marshalling a payload writes its four members without white space. -/
def MarshalsPayload (proxy : Proxy) : Prop :=
  ∀ height id payload, proxy.marshalPayload height id = some payload →
    ∃ order, order.Perm requestKeys ∧ payload = payloadText order height id

/-- The request gets past the deny list, and its chain has mirrors to copy it for. -/
structure Mirrors (proxy : Proxy) (arrival : Arrival) (request : RequestContext) (chainId : Bytes) :
    Prop where
  received : generateRequestContext proxy.balancer.sonic arrival.nodeType arrival.received =
    .ok request
  valid : request.error = none
  chain : effectiveChainID arrival.overrides arrival.chainID = some chainId
  allowed : anyDenied (proxy.methodDenied.getD []) request.requestBody = .ok false
  enabled : proxy.mirrorEnable = true
  targets : arrival.mirroring.getMirrorURLs chainId ≠ []

/-- The request is rewritten before it is copied. -/
structure Rewrites (proxy : Proxy) (arrival : Arrival) (height : Int) (id : Bytes) : Prop where
  mirrored : ∃ request chainId, proxy.Mirrors arrival request chainId ∧
    request.method = ascii "getLatestBlock" ∧ arrival.heights.getHeight chainId = some height ∧
    payloadID request.requestBody = .ok id
  marshalled : (proxy.marshalPayload height id).isSome

section

variable {proxy : Proxy} {arrival : Arrival}

theorem getLatestBlock_frame {heights : Heights} {context : RoutedContext}
    {exchange after : Exchange}
    (returned : proxy.getLatestBlock heights context exchange = .ok after) :
    after.copied = exchange.copied ∧ after.rawRequestBody = exchange.rawRequestBody := by
  rcases getLatestBlock_cases returned with
    ⟨-, rfl⟩ | ⟨status, object, rfl⟩ | ⟨height, id, payload, -, -, -, -, rfl⟩
  all_goals exact ⟨rfl, rfl⟩

/-- The exchange the rewrite starts from. -/
def started (arrival : Arrival) (request : RequestContext) : Exchange :=
  { arrival.exchange with callsStarted := [request.method] }

/-- A denied request is answered. Any other gets to the rewrite, and from there to the mirrors if
it was not answered. -/
theorem preprocess_cases (written : ∀ object, proxy.balancer.marshalResponse object ≠ [])
    (ran : proxy.preprocess arrival = .ok (some exchange)) :
    ∃ request chainId,
      generateRequestContext proxy.balancer.sonic arrival.nodeType arrival.received = .ok request ∧
      request.error = none ∧ effectiveChainID arrival.overrides arrival.chainID = some chainId ∧
      (exchange = proxy.answer (routed request chainId) arrival.exchange 400 methodNotAllowed ∨
        anyDenied (proxy.methodDenied.getD []) request.requestBody = .ok false ∧
        ∃ rewritten, proxy.getLatestBlock arrival.heights (routed request chainId)
            (started arrival request) = .ok rewritten ∧
          (exchange = rewritten ∨
            rewritten.response.body = [] ∧ proxy.mirrorEnable = true ∧
              requestMirror arrival.mirroring arrival.tokens (routed request chainId) rewritten =
                .ok exchange)) := by
  obtain ⟨request, chainId, received, valid, chain, called⟩ := preprocess_eq_some_iff.mp ran
  refine ⟨request, chainId, received, valid, chain, ?_⟩
  obtain ⟨first, denied, called⟩ := callProcessors_cases called
  rcases jRPCMethodDenied_cases denied with rfl | ⟨looked, rfl⟩
  · exact .inl (called.resolve_right fun rest => answer_body_ne_nil written _ _ _ _ rest.1).2
  · obtain ⟨-, called⟩ := called.resolve_left fun rest => rest.1 rfl
    obtain ⟨second, counted, called⟩ := callProcessors_cases called
    cases counted
    obtain ⟨-, called⟩ := called.resolve_left fun rest => rest.1 rfl
    obtain ⟨rewritten, rewrites, called⟩ := callProcessors_cases called
    refine .inr ⟨looked, rewritten, rewrites, ?_⟩
    rcases called with ⟨-, same⟩ | ⟨silent, called⟩
    · exact .inl same
    · cases enabled : proxy.mirrorEnable with
      | false =>
        have ends : exchange = rewritten := by
          simpa [enabled, callProcessors, silent] using called.symm
        exact .inl ends
      | true =>
        simp only [enabled, if_true] at called
        obtain ⟨last, mirrored, called⟩ := callProcessors_cases called
        have same : exchange = last := by
          rcases called with ⟨-, same⟩ | ⟨-, ends⟩
          · exact same
          · cases ends
            rfl
        exact .inr ⟨silent, rfl, same ▸ mirrored⟩

/-- Mirrors get a copy of the raw view of what the rewrite left. -/
theorem mirrors_of_copied (written : ∀ object, proxy.balancer.marshalResponse object ≠ [])
    (ran : proxy.preprocess arrival = .ok (some exchange)) (copied : exchange.copied = some copy) :
    ∃ request chainId rewritten, proxy.Mirrors arrival request chainId ∧
      proxy.getLatestBlock arrival.heights (routed request chainId) (started arrival request) =
        .ok rewritten ∧ rewritten.response.body = [] ∧
      exchange.forwarded = rewritten.forwarded ∧ copy = arrival.body.read rewritten.arrays := by
  obtain ⟨request, chainId, received, valid, chain, rfl | ⟨looked, rewritten, rewrites, ended⟩⟩ :=
    preprocess_cases written ran
  · cases copied
  · obtain ⟨fresh, raw⟩ := getLatestBlock_frame rewrites
    have missing : exchange ≠ rewritten := by
      rintro rfl
      rw [fresh] at copied
      cases copied
    obtain ⟨silent, enabled, mirrored⟩ := ended.resolve_left missing
    obtain ⟨targets, mirrored, rfl⟩ := (requestMirror_cases mirrored).resolve_left missing
    cases copied
    rw [raw]
    exact ⟨request, chainId, rewritten, ⟨received, valid, chain, looked, enabled, targets⟩,
      rewrites, silent, rfl, rfl⟩

theorem requestMirror_copies {mirroring : Mirroring} {context : RoutedContext}
    (targets : mirroring.getMirrorURLs context.chainId ≠ []) (tokens : Nat → Bool)
    (exchange : Exchange) :
    ∃ after, requestMirror mirroring tokens context exchange = .ok after ∧
      after.copied = some (exchange.rawRequestBody.read exchange.arrays) ∧
      after.forwarded = exchange.forwarded ∧ after.response = exchange.response :=
  ⟨_, if_neg targets, rfl, rfl, rfl⟩

theorem copied_of_mirrors (mirrors : proxy.Mirrors arrival request chainId)
    (rewrites : proxy.getLatestBlock arrival.heights (routed request chainId)
      (started arrival request) = .ok rewritten) (silent : rewritten.response.body = []) :
    ∃ exchange, proxy.preprocess arrival = .ok (some exchange) ∧
      exchange.forwarded = rewritten.forwarded ∧
      exchange.copied = some (arrival.body.read rewritten.arrays) := by
  have allowed : proxy.jRPCMethodDenied (routed request chainId) arrival.exchange =
      .ok arrival.exchange :=
    @jRPCMethodDenied_eq proxy false (routed request chainId) mirrors.allowed arrival.exchange
  have counted : updatePreprocessorMetrics (routed request chainId) arrival.exchange =
    .ok (started arrival request) := rfl
  have targets : arrival.mirroring.getMirrorURLs (routed request chainId).chainId ≠ [] :=
    mirrors.targets
  obtain ⟨exchange, copies, copied, forwarded, response⟩ :=
    requestMirror_copies targets arrival.tokens rewritten
  rw [(getLatestBlock_frame rewrites).2] at copied
  refine ⟨exchange, preprocess_eq_some_iff.mpr
    ⟨request, chainId, mirrors.received, mirrors.valid, mirrors.chain, ?_⟩, forwarded, copied⟩
  rw [getPreProcessor, if_pos mirrors.enabled, callProcessors_of_silent allowed rfl,
    callProcessors_of_silent counted rfl, callProcessors_of_silent rewrites silent,
    callProcessors_of_silent copies (response ▸ silent)]
  rfl

/-- Only a single request can be for the latest block. -/
theorem single_of_latest (conforms : proxy.balancer.sonic.Conforms)
    (received : generateRequestContext proxy.balancer.sonic arrival.nodeType arrival.received =
      .ok request) (valid : request.error = none)
    (latest : request.method = ascii "getLatestBlock") :
    ∃ object, parseRequestDecoded proxy.balancer.sonic arrival.text = .ok [some object] ∧
      object.method = ascii "getLatestBlock" ∧ request.requestBody = [some object] := by
  by_cases readable : arrival.readable = true
  · rw [Arrival.received, if_pos readable, generateRequestContext_some conforms] at received
    have decoded := RequestContext.accept_parsed received valid
    rw [decoded] at received ⊢
    rcases RequestContext.accept_cases received with ⟨several, same⟩ | ⟨object, single, same⟩
    · rw [same, (RequestContext.validate_spec _).2.1] at latest
      cases latest
    · rw [same, (RequestContext.validate_spec _).2.1] at latest
      exact ⟨object, congrArg Except.ok single, latest, single⟩
  · rw [Arrival.received, if_neg readable] at received
    cases received
    cases valid

theorem text_length (arrival : Arrival) : arrival.text.length = arrival.body.length :=
  List.length_take_of_le arrival.within.length

/-- The raw view of a refilled buffer. -/
theorem rewritten_whole_iff {payload : Bytes}
    (apart : ¬(payload <+: arrival.text ∨ arrival.text <+: payload)) :
    (let copy := arrival.body.read (arrival.body.refill arrival.arrays payload).2
     copy = arrival.text ∨ copy = payload) ↔
    (arrival.body.room arrival.arrays).length < payload.length ∨
      arrival.text.length = payload.length := by
  rcases Nat.lt_or_ge (arrival.body.room arrival.arrays).length payload.length with moves | fits
  · have kept := Slice.read_of_moves arrival.within moves
    exact iff_of_true (.inl kept) (.inl moves)
  · have shown : arrival.body.read (arrival.body.refill arrival.arrays payload).2 =
        (payload ++ arrival.text.drop payload.length).take arrival.text.length := by
      rw [text_length]
      exact Slice.read_of_fits ⟨rfl, rfl⟩ fits
    rw [or_iff_right (Nat.not_lt.mpr fits)]
    exact whole_iff apart shown

theorem rewrites_whole_iff (conforms : proxy.balancer.sonic.Conforms)
    (reads : proxy.balancer.sonic.ReadsObjects) (marshals : proxy.MarshalsPayload)
    (mirrors : proxy.Mirrors arrival request chainId)
    (latest : request.method = ascii "getLatestBlock")
    (found : payloadID request.requestBody = .ok identifier)
    (marshalled : proxy.marshalPayload height identifier = some payload) :
    (let copy := arrival.body.read (arrival.body.refill arrival.arrays payload).2
     copy = arrival.text ∨ copy = payload) ↔
    (arrival.body.room arrival.arrays).length < rewrittenLength height identifier ∨
      arrival.text.length = rewrittenLength height identifier := by
  obtain ⟨object, decoded, named, body⟩ :=
    single_of_latest conforms mirrors.received mirrors.valid latest
  obtain ⟨order, permuted, rfl⟩ := marshals height identifier payload marshalled
  rw [body] at found
  have apart := payload_apart conforms reads decoded named found permuted height
  rw [← payloadText_length permuted height identifier]
  exact rewritten_whole_iff apart

end

/-- Every copy for the mirrors is the client's body or the body sent upstream, in full, exactly
when no rewrite fills the same buffer with a text of another length. -/
theorem copies_are_whole_iff (proxy : Proxy) (conforms : proxy.balancer.sonic.Conforms)
    (reads : proxy.balancer.sonic.ReadsObjects) (marshals : proxy.MarshalsPayload)
    (written : ∀ object, proxy.balancer.marshalResponse object ≠ []) (arrival : Arrival) :
    (∀ exchange copy, proxy.preprocess arrival = .ok (some exchange) →
      exchange.copied = some copy → copy = arrival.text ∨ copy = exchange.forwarded) ↔
    ∀ height id, proxy.Rewrites arrival height id →
      (arrival.body.room arrival.arrays).length < rewrittenLength height id ∨
        arrival.text.length = rewrittenLength height id := by
  constructor
  · intro whole height id rewrites
    obtain ⟨request, chainId, mirrors, latest, known, found⟩ := rewrites.mirrored
    obtain ⟨payload, marshalled⟩ := Option.isSome_iff_exists.mp rewrites.marshalled
    have rewritten : proxy.getLatestBlock arrival.heights (routed request chainId)
        (started arrival request) = .ok ((started arrival request).setBody payload) := by
      simp [getLatestBlock, routed, latest, known, found, marshalled]
    obtain ⟨exchange, ran, forwarded, copied⟩ := copied_of_mirrors mirrors rewritten rfl
    rw [Exchange.forwarded_setBody] at forwarded
    have copy := whole exchange _ ran copied
    rw [forwarded] at copy
    exact (rewrites_whole_iff conforms reads marshals mirrors latest found marshalled).mp copy
  · intro fitting exchange copy ran copied
    obtain ⟨request, chainId, rewritten, mirrors, rewrites, silent, forwarded, rfl⟩ :=
      mirrors_of_copied written ran copied
    rcases getLatestBlock_cases rewrites with
      ⟨-, rfl⟩ | ⟨status, object, rfl⟩ | ⟨height, id, payload, latest, known, found, marshalled, rfl⟩
    · exact .inl rfl
    · exact absurd silent (answer_body_ne_nil written _ _ _ _)
    · rw [forwarded, Exchange.forwarded_setBody]
      apply (rewrites_whole_iff conforms reads marshals mirrors latest found marshalled).mpr
      exact fitting height id
        ⟨⟨request, chainId, mirrors, latest, known, found⟩, by rw [marshalled]; rfl⟩

def latestBody : Bytes :=
  ascii "\x7b\"jsonrpc\":\"2.0\",\"method\":\"getLatestBlock\",\"params\":[\"latest\",false],\"id\":1\x7d"

def latestProxy : Proxy where
  balancer := ⟨scanningSonic, fun _ => none, fun _ => none, ResponseObject.text, fun _ => none⟩
  methodDenied := none
  mirrorEnable := true
  marshalPayload height id := some (payloadText requestKeys height id)

def latestArrival : Arrival :=
  { Arrival.sample latestBody with heights := AList.insert (ascii "1") (some 42) ∅ }

/-- The payload is shorter than the body it replaces, and the end of the body stays behind it. -/
theorem mirror_receives_mixed_body :
    ∃ exchange, latestProxy.preprocess latestArrival = .ok (some exchange) ∧
      exchange.forwarded = payloadText requestKeys 42 (ascii "1") ∧
      exchange.copied = some (exchange.forwarded ++ ascii "id\":1\x7d") ∧
      exchange.copied ≠ some latestArrival.text ∧ exchange.copied ≠ some exchange.forwarded := by
  exact ⟨_, rfl, by decide +kernel⟩

/-- The shortest request for the latest block, in a buffer no payload fits. -/
def snugArrival : Arrival :=
  { Arrival.sample (ascii
      "\x7b\"jsonrpc\":\"2.0\",\"method\":\"getLatestBlock\",\"params\":[],\"id\":1\x7d") with
    heights := AList.insert (ascii "1") (some 42) ∅ }

noncomputable def strictProxy : Proxy :=
  { latestProxy with balancer := { latestProxy.balancer with sonic := strictSonic } }

theorem copies_are_whole_in_snug_buffer :
    (snugArrival.body.room snugArrival.arrays).length = 62 ∧
    ∀ exchange copy, strictProxy.preprocess snugArrival = .ok (some exchange) →
      exchange.copied = some copy → copy = snugArrival.text ∨ copy = exchange.forwarded := by
  have marshals : strictProxy.MarshalsPayload := by
    intro height id payload marshalled
    cases marshalled
    exact ⟨requestKeys, .refl _, rfl⟩
  have room : (snugArrival.body.room snugArrival.arrays).length = 62 := by decide
  refine ⟨room, (copies_are_whole_iff strictProxy strictSonic_conforms
    strictSonic_readsObjects marshals ResponseObject.text_ne_nil snugArrival).mpr ?_⟩
  intro height id _
  unfold rewrittenLength
  omega

end Proxy

end NodexProxy.Lb
