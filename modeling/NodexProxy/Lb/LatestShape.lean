import NodexProxy.Lb.MirrorCopies

/-! What the rewrite of `getLatestBlock` keeps of the client's body. A lone request counts as
single however it was sent, so one sent in an array goes on as an object. -/

namespace NodexProxy.Lb

open NodexProxy.Foundation NodexProxy.Foundation.Json NodexProxy.Jsonrpc

/-- The body is a JSON array. -/
def ArrayBody (body : Bytes) : Prop :=
  ∃ value elements, Document body value ∧ IsArray loose value elements

/-- The request for the block at a height, with the client's id, or 1 if there was none. -/
def AsksForHeight (height : Int) (request rewritten : Option RequestObject) : Prop :=
  ∃ object params, request = some object ∧
    rewritten = some ⟨ascii "2.0", ascii "getBlockByHeight", some params,
      some (object.id.getD (ascii "1"))⟩ ∧
    IsArray rfc8259 params [quoted (encodeBig height)]

/-- The forwarded body has the form of the client's, and asks request by request for the block at
the height. -/
structure KeepsShape (sonic : Sonic) (height : Int) (client forwarded : Bytes)
    (requests : List (Option RequestObject)) : Prop where
  array : ArrayBody forwarded ↔ ArrayBody client
  requests : ∃ rewritten, parseRequest sonic (some forwarded) = .ok (.ok rewritten) ∧
    List.Forall₂ (AsksForHeight height) requests rewritten

theorem isBatch_of_arrayBody (array : ArrayBody body) : isBatch body = true := by
  obtain ⟨value, elements, document, ⟨blank, items, rfl, _⟩⟩ := array
  exact isBatch_of_document document rfl rfl

theorem arrayBody_of_isBatch {sonic : Sonic} (reads : sonic.ReadsArrays)
    (decoded : parseRequestDecoded sonic body = .ok requests) (batch : isBatch body = true) :
    ArrayBody body := by
  rw [parseRequestDecoded, if_pos batch] at decoded
  cases found : sonic.unmarshalBatch body with
  | none =>
    rw [found] at decoded
    cases decoded
  | some items =>
    obtain ⟨value, elements, document, array, _⟩ := reads body items batch found
    exact ⟨value, elements, document, array⟩

theorem payload_not_arrayBody (order : List Field) (height : Int) (id : Bytes) :
    ¬ArrayBody (payloadText order height id) := by
  intro array
  cases isBatch_of_arrayBody array

/-- The payload, read again, is one request. -/
theorem payload_parsed {sonic : Sonic} {skips : Bytes → Prop} (conforms : sonic.Conforms)
    (skipping : sonic.Skips skips) (permuted : order.Perm requestKeys) (height : Int)
    {id : Bytes} (valid : Value loose id) (skipped : skips id) :
    parseRequest sonic (some (payloadText order height id)) =
      .ok (.ok [some ⟨ascii "2.0", ascii "getBlockByHeight", some (payloadValue height id .params),
        some id⟩]) := by
  have single : isBatch (payloadText order height id) = false := rfl
  have all : ∀ member ∈ payloadMembers order height id, skips member.2 := by
    intro member listed
    obtain ⟨field, -, rfl⟩ := List.mem_map.mp listed
    by_cases own : field = .id
    · subst field
      exact skipped
    · exact skipping.valid _ (payloadValue_valid height id own)
  have whole : payloadRequest order height id .zero =
      ⟨ascii "2.0", ascii "getBlockByHeight", some (payloadValue height id .params), some id⟩ := by
    simp [payloadRequest, permuted.mem_iff, requestKeys]
  have decoded := skipping.decodes _ _ _ (.self _) (payload_isObject order height valid) all
  rw [decodeMembers, payload_decodes conforms, whole] at decoded
  rw [parseRequest_eq_decoded conforms, parseRequestDecoded, single, decoded]
  rfl

namespace Proxy

variable {proxy : Proxy} {arrival : Arrival}

theorem requestMirror_forwarded {mirroring : Mirroring} {context : RoutedContext}
    {exchange after : Exchange}
    (returned : requestMirror mirroring tokens context exchange = .ok after) :
    after.forwarded = exchange.forwarded := by
  rcases requestMirror_cases returned with rfl | ⟨-, mirrored, rfl⟩
  · rfl
  · rfl

/-- A request for the latest block that is not answered is forwarded as a payload. -/
theorem forwarded_payload (written : ∀ object, proxy.balancer.marshalResponse object ≠ [])
    (received : generateRequestContext proxy.balancer.sonic arrival.nodeType arrival.received =
      .ok request) (latest : request.method = ascii "getLatestBlock")
    (chain : effectiveChainID arrival.overrides arrival.chainID = some chainId)
    (known : arrival.heights.getHeight chainId = some height)
    (ran : proxy.preprocess arrival = .ok (some exchange)) (silent : exchange.response.body = []) :
    ∃ id, payloadID request.requestBody = .ok id ∧
      proxy.marshalPayload height id = some exchange.forwarded := by
  obtain ⟨same, chainId', received', -, chain', rfl | ⟨-, rewritten, rewrites, ended⟩⟩ :=
    preprocess_cases written ran
  · exact absurd silent (answer_body_ne_nil written _ _ _ _)
  cases received.symm.trans received'
  cases chain.symm.trans chain'
  have forwarded : exchange.forwarded = rewritten.forwarded ∧ rewritten.response.body = [] := by
    rcases ended with rfl | ⟨quiet, -, mirrored⟩
    · exact ⟨rfl, silent⟩
    · exact ⟨requestMirror_forwarded mirrored, quiet⟩
  rcases getLatestBlock_cases rewrites with
    ⟨other, -⟩ | ⟨status, object, rfl⟩ | ⟨height', id, payload, -, known', found, marshalled, rfl⟩
  · exact absurd latest other
  · exact absurd forwarded.2 (answer_body_ne_nil written _ _ _ _)
  · cases known.symm.trans known'
    rw [forwarded.1, Exchange.forwarded_setBody]
    exact ⟨id, found, marshalled⟩

def latestMembers : List (Bytes × Bytes) :=
  [(ascii "jsonrpc", quoted (ascii "2.0")), (ascii "method", quoted (ascii "getLatestBlock")),
    (ascii "params", ascii "[]"), (ascii "id", ascii "1")]

theorem latestMembers_isObject :
    IsObject rfc8259 (objectText [] (latestMembers.map Member.compact)) latestMembers := by
  have none : IsArray rfc8259 (ascii "[]") [] := ⟨[], [], rfl, blank_nil, by simp, by simp, rfl⟩
  refine isObject_compact fun member listed => ?_
  simp only [latestMembers, List.mem_cons, List.not_mem_nil, or_false] at listed
  rcases listed with rfl | rfl | rfl | rfl
  all_goals refine ⟨chars_of_plain _ (List.all_iff_forall_prop.mp (by decide)), ?_⟩
  · exact .string (chars_of_plain _ (List.all_iff_forall_prop.mp (by decide)))
  · exact .string (chars_of_plain _ (List.all_iff_forall_prop.mp (by decide)))
  · exact none.isValue
  · exact value_one

/-- A lone request for the latest block in an array. -/
def arrayArrival : Arrival :=
  { Arrival.sample (arrayText []
      [Element.compact (objectText [] (latestMembers.map Member.compact))]) with
    heights := AList.insert (ascii "1") (some 42) ∅ }

/-- The context of the request in `snugArrival`. -/
def snugContext : RequestContext where
  archive := false
  method := ascii "getLatestBlock"
  isBatch := false
  requestBody := [some ⟨ascii "2.0", ascii "getLatestBlock", some (ascii "[]"), some (ascii "1")⟩]
  error := none
  responseBody := none

theorem snugArrival_received :
    generateRequestContext strictProxy.balancer.sonic snugArrival.nodeType snugArrival.received =
      .ok snugContext := by
  have decoded : strictSonic.unmarshalRequest snugArrival.text = _ :=
    strictSonic_skips.decodes snugArrival.text _ latestMembers (.self _)
      latestMembers_isObject.loose fun member listed => (latestMembers_isObject.loose.mem listed).1
  have single : isBatch snugArrival.text = false := by decide
  refine (generateRequestContext_some strictSonic_conforms _ snugArrival.text).trans ?_
  rw [parseRequestDecoded, single, decoded]
  rfl

/-- The forwarded body keeps the shape of the client's exactly when that was no array. -/
theorem rewrite_keeps_shape_iff (proxy : Proxy) (conforms : proxy.balancer.sonic.Conforms)
    (reads : proxy.balancer.sonic.ReadsArrays) (skips : Bytes → Prop)
    (skipping : proxy.balancer.sonic.Skips skips) (marshals : proxy.MarshalsPayload)
    (written : ∀ object, proxy.balancer.marshalResponse object ≠ []) (arrival : Arrival)
    (request : RequestContext) (chainId : Bytes) (height : Int) (exchange : Exchange)
    (received : generateRequestContext proxy.balancer.sonic arrival.nodeType arrival.received =
      .ok request)
    (valid : request.error = none) (latest : request.method = ascii "getLatestBlock")
    (chain : effectiveChainID arrival.overrides arrival.chainID = some chainId)
    (known : arrival.heights.getHeight chainId = some height)
    (ran : proxy.preprocess arrival = .ok (some exchange)) (silent : exchange.response.body = []) :
    KeepsShape proxy.balancer.sonic height arrival.text exchange.forwarded request.requestBody ↔
      ¬ArrayBody arrival.text := by
  obtain ⟨object, decoded, named, body⟩ := single_of_latest conforms received valid latest
  obtain ⟨id, found, marshalled⟩ :=
    forwarded_payload written received latest chain known ran silent
  obtain ⟨order, permuted, forwarded⟩ := marshals height id _ marshalled
  rw [body] at found
  rw [forwarded, body]
  have notArray := payload_not_arrayBody order height id
  constructor
  · intro keeps array
    exact notArray (keeps.array.mpr array)
  · intro single
    have notBatch : ¬isBatch arrival.text = true := fun batch =>
      single (arrayBody_of_isBatch reads decoded batch)
    rw [parseRequestDecoded, if_neg notBatch] at decoded
    cases unmarshalled : proxy.balancer.sonic.unmarshalRequest arrival.text with
    | none => simp [unmarshalled] at decoded
    | some same =>
      obtain rfl : same = object := by simpa [unmarshalled] using decoded
      rcases skipping.reads _ _ unmarshalled with rfl | ⟨value, members, -, object, all, assigned⟩
      · cases named
      have idValid := payloadID_holds (fun member listed => (object.mem listed).1)
        value_one.loose assigned found
      have idSkipped := payloadID_holds all (skipping.valid _ value_one) assigned found
      have own : id = same.id.getD (ascii "1") := by
        simpa [payloadID, deref] using found.symm
      refine ⟨iff_of_false notArray single, _,
        payload_parsed conforms skipping permuted height idValid idSkipped, .cons ?_ .nil⟩
      exact ⟨same, _, rfl, by rw [own], payloadParams_isArray height _⟩

/-- The array is dropped, and the upstream is sent an object. -/
theorem rewrite_drops_array :
    ∃ exchange, latestProxy.preprocess arrayArrival = .ok (some exchange) ∧
      exchange.response.body = [] ∧
      exchange.forwarded = payloadText requestKeys 42 (ascii "1") ∧
      ArrayBody arrayArrival.text ∧ ¬ArrayBody exchange.forwarded := by
  have array : IsArray loose
      (arrayText [] ([objectText [] (latestMembers.map Member.compact)].map Element.compact))
      [objectText [] (latestMembers.map Member.compact)] := by
    refine isArray_compact fun value listed => ?_
    rw [List.mem_singleton.mp listed]
    exact latestMembers_isObject.isValue.loose
  obtain ⟨exchange, ran, silent, forwarded⟩ :
      ∃ exchange, latestProxy.preprocess arrayArrival = .ok (some exchange) ∧
        exchange.response.body = [] ∧
        exchange.forwarded = payloadText requestKeys 42 (ascii "1") :=
    ⟨_, rfl, by decide +kernel⟩
  refine ⟨exchange, ran, silent, forwarded, ⟨_, _, .self _, array⟩, ?_⟩
  rw [forwarded]
  exact payload_not_arrayBody requestKeys 42 (ascii "1")

theorem rewrite_keeps_object :
    ∃ exchange, strictProxy.preprocess snugArrival = .ok (some exchange) ∧
      KeepsShape strictProxy.balancer.sonic 42 snugArrival.text exchange.forwarded
        snugContext.requestBody := by
  have marshals : strictProxy.MarshalsPayload := by
    intro height id payload marshalled
    cases marshalled
    exact ⟨requestKeys, .refl _, rfl⟩
  have object : ¬ArrayBody snugArrival.text := by
    intro array
    have batch := isBatch_of_arrayBody array
    revert batch
    decide
  have ran : strictProxy.preprocess snugArrival = .ok (some _) := preprocess_eq_some_iff.mpr
    ⟨snugContext, ascii "1", snugArrival_received, rfl, by decide, rfl⟩
  exact ⟨_, ran, (rewrite_keeps_shape_iff strictProxy strictSonic_conforms strictSonic_readsArrays
    _ strictSonic_skips marshals (fun _ => List.cons_ne_nil _ _) snugArrival snugContext (ascii "1")
    42 _ snugArrival_received rfl rfl (by decide) (by decide) ran rfl).mpr object⟩

end Proxy

end NodexProxy.Lb
