import NodexProxy.Lb.Preprocess

/-! A request with a denied method goes nowhere. -/

namespace NodexProxy.Lb

open NodexProxy.Foundation NodexProxy.Foundation.Json NodexProxy.Discovery NodexProxy.Jsonrpc

/-- Where every request is there, the loop gets to the denied one. -/
theorem anyDenied_eq_true {denied : List Bytes} {requests : List (Option RequestObject)}
    (present : ∀ request ∈ requests, request.isSome) (listed : some object ∈ requests)
    (forbidden : object.method ∈ denied) : anyDenied denied requests = .ok true := by
  induction requests with
  | nil => cases listed
  | cons request requests inductionHypothesis =>
    obtain ⟨first, rfl⟩ := Option.isSome_iff_exists.mp (present request (by simp))
    unfold anyDenied
    by_cases hit : first.method ∈ denied
    · simp [deref, hit]
    · have later : some object ∈ requests := by
        rcases List.mem_cons.mp listed with same | later
        · cases same
          exact absurd forbidden hit
        · exact later
      have rest := inductionHypothesis (fun request member => present request (by simp [member])) later
      simpa [deref, hit] using rest

namespace Balancer

variable {balancer : Balancer}

/-- An error response the proxy makes for a request it does not serve. -/
def Refuses (balancer : Balancer) (response : Response) : Prop :=
  ∃ object : ResponseObject, (object.error.code = -32700 ∨ object.error = methodNotAllowed) ∧
    response.body = balancer.marshalResponse object

theorem refuses_writeError {object : ResponseObject}
    (refusal : object.error.code = -32700 ∨ object.error = methodNotAllowed)
    (requestBody : List (Option RequestObject)) (status : Int) :
    balancer.Refuses (balancer.writeError [] requestBody status object) := by
  obtain ⟨id, written⟩ := balancer.writeError_body [] requestBody status object
  exact ⟨{ object with id := id }, refusal, written⟩

end Balancer

namespace Proxy

/-- The body reads as a request or a batch with a denied method in it, by the grammar or by the
reference decoder itself. -/
def Denies (proxy : Proxy) (body : Bytes) : Prop :=
  ∃ requests object, (ReadsAs proxy.balancer.sonic.unquote body requests ∨
      parseRequestDecoded proxy.balancer.sonic body = .ok requests) ∧
    some object ∈ requests ∧ object.method ∈ proxy.methodDenied.getD []

/-- Nothing was sent to a node or a mirror, the cache is as before, and the answer is a refusal. -/
structure Stopped (proxy : Proxy) (cache : ArchiveHashCache)
    (handled : Checked (Option Exchange) × Visit) : Prop where
  attempts : handled.2.attempts = []
  cache : handled.2.cache = cache
  mirrors : ∃ preprocessed, handled.1 = .ok preprocessed ∧
    ∀ exchange ∈ preprocessed, exchange.copied = none ∧ exchange.mirrored = []
  answer : ∃ response, handled.2.response = .ok response ∧ proxy.balancer.Refuses response

section

variable {proxy : Proxy} {arrival : Arrival} {request : RequestContext}

/-- A request that intake rejects, or whose chain id is invalid, gets to no processor. -/
theorem stopped_of_rejected (cache : ArchiveHashCache)
    (received : generateRequestContext proxy.balancer.sonic arrival.nodeType arrival.received =
      .ok request)
    (rejected : request.error.isSome ∨
      effectiveChainID arrival.overrides arrival.chainID = none) :
    proxy.Stopped cache (proxy.handle cache arrival) := by
  have skipped : proxy.preprocess arrival = .ok none := by
    unfold preprocess
    rw [received, Checked.ok_bind]
    rcases rejected with failed | unknown
    · simp [failed]
    · simp [unknown]
  have handled : proxy.handle cache arrival =
      (.ok none, proxy.balancer.serveHTTP cache (arrival.encounter none)) := by
    simp only [handle, skipped]
  have visited : ∃ object : ResponseObject, object.error.code = -32700 ∧
      proxy.balancer.serveHTTP cache (arrival.encounter none) =
        ⟨false, [], .ok (proxy.balancer.writeError [] request.requestBody 200 object), cache⟩ := by
    simp only [Balancer.serveHTTP, Arrival.encounter, received]
    cases failed : request.error with
    | some error => exact ⟨_, rfl, rfl⟩
    | none =>
      have unknown := rejected.resolve_left (by simp [failed])
      rw [unknown]
      exact ⟨_, rfl, rfl⟩
  obtain ⟨object, code, visited⟩ := visited
  rw [handled, visited]
  exact ⟨rfl, rfl, ⟨none, rfl, by simp⟩, _, rfl, Balancer.refuses_writeError (.inl code) _ _⟩

/-- The first processor answers a request that intake accepts. -/
theorem stopped_of_accepted (written : ∀ object, proxy.balancer.marshalResponse object ≠ [])
    (cache : ArchiveHashCache)
    (received : generateRequestContext proxy.balancer.sonic arrival.nodeType arrival.received =
      .ok request)
    (valid : request.error = none) (accepted : request.Accepted)
    (chain : effectiveChainID arrival.overrides arrival.chainID = some chainId)
    (listed : some object ∈ request.requestBody)
    (forbidden : object.method ∈ proxy.methodDenied.getD []) :
    proxy.Stopped cache (proxy.handle cache arrival) := by
  let answered := proxy.answer (routed request chainId) arrival.exchange 400 methodNotAllowed
  have present (item : Option RequestObject) (member : item ∈ request.requestBody) : item.isSome := by
    obtain ⟨object, rfl, -⟩ := accepted.2 item member
    rfl
  have denies : proxy.jRPCMethodDenied (routed request chainId) arrival.exchange = .ok answered :=
    jRPCMethodDenied_eq (anyDenied_eq_true present listed forbidden) arrival.exchange
  have nonempty : answered.response.body ≠ [] := answer_body_ne_nil written _ _ _ _
  have reached : proxy.preprocess arrival = .ok (some answered) :=
    preprocess_eq_some_iff.mpr ⟨request, chainId, received, valid, chain,
      callProcessors_of_answer denies nonempty _⟩
  have handled : proxy.handle cache arrival =
      (.ok (some answered), ⟨false, [], .ok answered.response, cache⟩) := by
    simp only [handle, reached, if_pos nonempty, serveHTTP_of_valid received valid chain]
  rw [handled]
  refine ⟨rfl, rfl, ⟨_, rfl, ?_⟩, _, rfl, Balancer.refuses_writeError (.inr rfl) _ _⟩
  intro exchange same
  cases same
  exact ⟨rfl, rfl⟩

end

/-- A denied method stops the request, however the body spells it and whichever parser reads it:
nothing goes to a node or a mirror, nothing is cached, and the proxy answers with an error. -/
theorem denied_request_is_stopped (proxy : Proxy) (conforms : proxy.balancer.sonic.Conforms)
    (decodes : proxy.balancer.sonic.Decodes)
    (written : ∀ object, proxy.balancer.marshalResponse object ≠ []) (cache : ArchiveHashCache)
    (arrival : Arrival) (denies : proxy.Denies arrival.text) :
    proxy.Stopped cache (proxy.handle cache arrival) := by
  obtain ⟨requests, object, reads, listed, forbidden⟩ := denies
  have decoded : parseRequestDecoded proxy.balancer.sonic arrival.text = .ok requests :=
    reads.elim (parseRequestDecoded_of_readsAs decodes) id
  by_cases readable : arrival.readable = true
  · have present : 1 < requests.length ∨ ∃ only, requests = [some only] := by
      rcases requests with _ | ⟨only, _ | ⟨next, rest⟩⟩
      · cases listed
      · exact .inr ⟨object, by rw [List.mem_singleton.mp listed]⟩
      · exact .inl (by simp)
    obtain ⟨request, accepted, outcome⟩ :=
      RequestContext.accept_sound (beforeProcess arrival.nodeType) present
    have received : generateRequestContext proxy.balancer.sonic arrival.nodeType
        arrival.received = .ok request := by
      rw [Arrival.received, if_pos readable, generateRequestContext_some conforms, decoded, accepted]
    have body := RequestContext.accept_requestBody accepted
    cases failed : request.error with
    | some error => exact stopped_of_rejected cache received (.inl (by simp [failed]))
    | none =>
      have sound := outcome.resolve_left (by simp [failed])
      cases chain : effectiveChainID arrival.overrides arrival.chainID with
      | none => exact stopped_of_rejected cache received (.inr chain)
      | some chainId =>
        exact stopped_of_accepted written cache received failed sound chain (body ▸ listed) forbidden
  · have received : generateRequestContext proxy.balancer.sonic arrival.nodeType
        arrival.received =
          .ok { beforeProcess arrival.nodeType with error := some (.parse .readBody) } := by
      rw [Arrival.received, if_neg readable]
      rfl
    exact stopped_of_rejected cache received (.inl rfl)

/-- A request for the method m, under a key the decoder folds and after another method. -/
def deniedMembers : List (Bytes × Bytes) :=
  [(ascii "jsonrpc", quoted (ascii "2.0")), (ascii "method", quoted (ascii "a")),
    (ascii "METHOD", quoted (ascii "m"))]

def deniedBatch : List Bytes :=
  [deniedMembers.take 2, deniedMembers].map fun members =>
    objectText [] (members.map Member.compact)

noncomputable def sampleProxy : Proxy where
  balancer := ⟨plainSonic, fun _ => none, fun _ => none, ResponseObject.text, fun _ => none⟩
  methodDenied := some [ascii "m"]
  mirrorEnable := true
  marshalPayload _ _ := none

def deniedArrival : Arrival := .sample (arrayText [] (deniedBatch.map Element.compact))

theorem deniedMembers_valid : ∀ member ∈ deniedMembers,
    rfc8259.content member.1 ∧ Value rfc8259 member.2 := by
  have content (text : String) (plain : (ascii text).all fun byte =>
      decide (32 ≤ byte ∧ byte ≠ 34 ∧ byte ≠ 92)) : rfc8259.content (ascii text) :=
    chars_of_plain _ fun byte listed => by simpa using List.all_eq_true.mp plain byte listed
  intro member listed
  simp only [deniedMembers, List.mem_cons, List.not_mem_nil, or_false] at listed
  rcases listed with rfl | rfl | rfl
  all_goals exact ⟨content _ rfl, .string (content _ rfl)⟩

theorem denied_request_is_stopped_sample :
    sampleProxy.Denies deniedArrival.text ∧
      sampleProxy.Stopped .empty (sampleProxy.handle .empty deniedArrival) := by
  have denies : sampleProxy.Denies deniedArrival.text := by
    have first : IsObject rfc8259 _ (deniedMembers.take 2) :=
      isObject_compact fun member listed => deniedMembers_valid member (List.mem_of_mem_take listed)
    have second : IsObject rfc8259 _ deniedMembers := isObject_compact deniedMembers_valid
    have text : deniedArrival.text = arrayText [] (deniedBatch.map Element.compact) := List.take_length
    refine ⟨[some ⟨ascii "2.0", ascii "a", none, none⟩, some ⟨ascii "2.0", ascii "m", none, none⟩], _,
      .inl ⟨_, text ▸ Document.self _, .inr ⟨deniedBatch, isArray_compact ?_, ?_⟩⟩,
      List.mem_cons_of_mem _ List.mem_cons_self, List.mem_cons_self⟩
    · intro value listed
      simp only [deniedBatch, List.map_cons, List.map_nil, List.mem_cons, List.not_mem_nil,
        or_false] at listed
      rcases listed with rfl | rfl
      · exact first.isValue
      · exact second.isValue
    · exact .cons (.object first) (.cons (.object second) .nil)
  exact ⟨denies, denied_request_is_stopped sampleProxy plainSonic_conforms plainSonic_decodes
    ResponseObject.text_ne_nil .empty deniedArrival denies⟩

end Proxy

end NodexProxy.Lb
