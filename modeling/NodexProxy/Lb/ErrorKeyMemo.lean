import NodexProxy.Jsonrpc.ErrorKey
import NodexProxy.Lb.Serve

/-! The error key filter is asked at most once for a response: about the trimmed body where the
error codes are read, and about the whole body where the response is counted. -/

namespace NodexProxy.Lb.Balancer

open NodexProxy.Foundation NodexProxy.Jsonrpc

/-- What is remembered of the filter, if anything, is its answer for this body. -/
def Recalls (context : RoutedContext) (body : Bytes) : Prop :=
  ∀ known ∈ context.memo.responseErrorKey, known = containsErrorKey body

section Memo

variable (context : RoutedContext) (body : Bytes)

/-- The filter only writes the memo. -/
theorem cachedResponseContainsErrorKey_memo :
    { context with memo := (cachedResponseContainsErrorKey context body).2.memo } =
      (cachedResponseContainsErrorKey context body).2 := by
  unfold cachedResponseContainsErrorKey
  cases context.memo.responseErrorKey with
  | none => rfl
  | some known => rfl

/-- Reading the error codes only writes the memo. -/
theorem parseRPCErrorCodes_memo (balancer : Balancer) :
    { context with memo := (balancer.parseRPCErrorCodes context body).2.memo } =
      (balancer.parseRPCErrorCodes context body).2 := by
  unfold Balancer.parseRPCErrorCodes
  dsimp only
  split_ifs
  · rfl
  · exact cachedResponseContainsErrorKey_memo context (trimSpace body)
  · exact cachedResponseContainsErrorKey_memo context (trimSpace body)

end Memo

section Recalls

variable {context : RoutedContext} {body asked : Bytes}

theorem recalls_reset (context : RoutedContext) (body : Bytes) :
    Recalls (resetResponseErrorKey context) body := by
  intro known held
  cases held

/-- Asked about a body of the same answer, the memo gives it and goes on recalling it. -/
theorem Recalls.cached (recalls : Recalls context body)
    (same : containsErrorKey asked = containsErrorKey body) :
    (cachedResponseContainsErrorKey context asked).1 = containsErrorKey body ∧
      Recalls (cachedResponseContainsErrorKey context asked).2 body := by
  unfold cachedResponseContainsErrorKey
  cases memo : context.memo.responseErrorKey with
  | some known => exact ⟨recalls known memo, recalls⟩
  | none =>
    refine ⟨same, fun known held => ?_⟩
    cases held
    exact same

/-- Reading the error codes asks about the trimmed body only. -/
theorem Recalls.parseRPCErrorCodes (recalls : Recalls context body) (balancer : Balancer) :
    Recalls (balancer.parseRPCErrorCodes context body).2 body := by
  have asked := (recalls.cached (containsErrorKey_trimmed body)).2
  unfold Balancer.parseRPCErrorCodes
  dsimp only
  split_ifs
  · exact recalls
  · exact asked
  · exact asked

end Recalls

/-- The one-pass filter is a search for the two quoted keys, white space around the body does not
matter to it, and after the error codes were read the memo answers for the whole body. -/
theorem errorKeyFilter_exact (message : Bytes) :
    (containsErrorKey message = true ↔
      ascii "\"error\"" <:+: message ∨ ascii "\"Error\"" <:+: message) ∧
    containsErrorKey (trimSpace message) = containsErrorKey message ∧
    ∀ (balancer : Balancer) (context : RoutedContext),
      let read := (balancer.parseRPCErrorCodes (resetResponseErrorKey context) message).2
      (cachedResponseContainsErrorKey read message).1 = containsErrorKey message := by
  refine ⟨containsErrorKey_eq_true_iff message, containsErrorKey_trimmed message, ?_⟩
  intro balancer context
  have recalls := (recalls_reset context message).parseRPCErrorCodes balancer
  exact (recalls.cached rfl).1

end NodexProxy.Lb.Balancer
