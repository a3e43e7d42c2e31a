import NodexProxy.Lb.Accounting
import NodexProxy.Metrics.Transparency

/-! What `updatePostProcessorMetricsHertz` records for a request, and under which labels. -/

namespace NodexProxy.Metrics

open NodexProxy.Foundation NodexProxy.Lb

/-- The data of an error object, as `extractErrorDataString` tells its types apart. -/
inductive ErrorData where
  | nil
  | string (text : Bytes)
  | bytes (text : Bytes)
  | other
deriving DecidableEq, Repr

def extractErrorDataString : ErrorData → Bytes
  | .nil => []
  | .string text => text
  | .bytes text => text
  | .other => []

/-- The buckets of failed calls. -/
inductive FailureReason where
  | rateLimited
  | methodNotAllowed
  | invalidParams
  | invalidRequest
  | parseError
  | responseUnmarshalFailed
  | responseParseTimeout
  | invalidResponse
  | upstreamGatewayTimeout
  | noNativeBackendsAvailable
  | noBackendsAvailable
  | upstreamBadGateway
  | requestTransformFailed
  | serverErrorOther
  | internalErrorOther
  | timeoutOther
  | rpcErrorOther
deriving DecidableEq, Repr

def FailureReason.label : FailureReason → Bytes
  | .rateLimited => ascii "rate_limited"
  | .methodNotAllowed => ascii "method_not_allowed"
  | .invalidParams => ascii "invalid_params"
  | .invalidRequest => ascii "invalid_request"
  | .parseError => ascii "parse_error"
  | .responseUnmarshalFailed => ascii "response_unmarshal_failed"
  | .responseParseTimeout => ascii "response_parse_timeout"
  | .invalidResponse => ascii "invalid_response"
  | .upstreamGatewayTimeout => ascii "upstream_gateway_timeout"
  | .noNativeBackendsAvailable => ascii "no_native_backends_available"
  | .noBackendsAvailable => ascii "no_backends_available"
  | .upstreamBadGateway => ascii "upstream_bad_gateway"
  | .requestTransformFailed => ascii "request_transform_failed"
  | .serverErrorOther => ascii "server_error_other"
  | .internalErrorOther => ascii "internal_error_other"
  | .timeoutOther => ascii "timeout_other"
  | .rpcErrorOther => ascii "rpc_error_other"

/-- The error in a response. -/
structure ResponseError where
  code : Int
  message : Bytes
  data : ErrorData
deriving DecidableEq, Repr

def invalidResponseCode : Int := -32604

section Classify

variable (toLower : Bytes → Bytes)

/-- The bucket of an internal error, by its data and its message in lower case. -/
def classifyInternalError (rawData rawMsg : Bytes) : FailureReason :=
  if containsText rawData (ascii "no native backends available") then .noNativeBackendsAvailable
  else if containsText rawData (ascii "no backends available") then .noBackendsAvailable
  else if containsText rawData (ascii "reverse proxy bad gateway") then .upstreamBadGateway
  else if containsText rawData (ascii "reverse proxy gateway timeout") then .upstreamGatewayTimeout
  else if containsText rawData (ascii "marshal") then .requestTransformFailed
  else if containsText rawMsg (ascii "server error") then .serverErrorOther
  else .internalErrorOther

def classifyFailureReason (code : Int) (msg : Bytes) (data : ErrorData)
    (fallbackErr : Option Bytes) : FailureReason :=
  let rawData := toLower (extractErrorDataString data)
  let rawMsg := toLower msg
  let rawErr := (fallbackErr.map toLower).getD []
  if code = -41001 then .rateLimited
  else if code = -41003 then .methodNotAllowed
  else if code = -32602 then .invalidParams
  else if code = -32600 then .invalidRequest
  else if code = -32700 then .parseError
  else if code = invalidResponseCode then
    if containsText rawErr (ascii "unmarshal") then .responseUnmarshalFailed
    else if containsText rawErr (ascii "timeout") then .responseParseTimeout
    else .invalidResponse
  else if code = -41002 then .upstreamGatewayTimeout
  else if code = -32603 then classifyInternalError rawData rawMsg
  else if containsText rawErr (ascii "timeout") || containsText rawData (ascii "timeout") then
    .timeoutOther
  else .rpcErrorOther

end Classify

/-- The chain labels: the base chain, and the version a request names or was routed to. -/
def metricChainLabels (baseChainId chainUUID chainId : Bytes) : Bytes × Bytes :=
  let baseChainID :=
    if trimSpace baseChainId = [] then trimSpace chainId else trimSpace baseChainId
  let chainVersion :=
    if chainUUID ≠ [] then chainUUID
    else if baseChainID ≠ [] ∧ chainId ≠ [] ∧ chainId ≠ baseChainID ∧
        baseChainID ++ ascii "-" <+: chainId then
      chainId.drop (baseChainID ++ ascii "-").length
    else []
  (baseChainID, chainVersion)

/-- What the post-processor reads of a request that has been answered. The error is given by its
text. -/
structure Report where
  host : Bytes
  target : Bytes
  baseChainId : Bytes
  chainUUID : Bytes
  chainId : Bytes
  method : Bytes
  isBatch : Bool
  statusCode : Int
  duration : Int
  error : Option Bytes
  responseError : Option ResponseError
  upstreamRelated : Bool
  targetNodeAddr : Bytes
  requestBodySize : Nat
  responseBodySize : Nat
deriving DecidableEq, Repr

/-- One call to a metric. The labels of a failed call are given in declaration order. -/
inductive Recording where
  | bound (recorder : Recorder)
  | failed (labels : List Bytes)
deriving DecidableEq, Repr

def formatBool (value : Bool) : Bytes := if value then ascii "true" else ascii "false"

namespace Report

variable (report : Report) (toLower : Bytes → Bytes)

def key : MethodMetricKey :=
  let labels := metricChainLabels report.baseChainId report.chainUUID report.chainId
  ⟨report.host, report.target, labels.1, labels.2, if report.isBatch then [] else report.method⟩

def failureNodeAddr : Bytes :=
  if trimSpace report.targetNodeAddr = [] then ascii "unknown" else report.targetNodeAddr

/-- The labels of `IncrCallsFailed`. -/
def failedLabels (error : Bytes) : List Bytes :=
  let labels (code : Int) (reason : FailureReason) :=
    report.key.common ++ [report.method, itoa code, formatBool report.upstreamRelated, reason.label,
      report.failureNodeAddr]
  match report.responseError with
  | some response =>
    labels response.code
      (classifyFailureReason toLower response.code response.message response.data (some error))
  | none =>
    labels invalidResponseCode
      (classifyFailureReason toLower invalidResponseCode [] .nil (some error))

/-- The counter of a single call. -/
def outcome : Recording :=
  match report.error with
  | none => .bound .incrCallsFinished
  | some error => .failed (report.failedLabels toLower error)

def recordedStatus : Int := if report.statusCode = 0 then 200 else report.statusCode

def shouldRecordResponsePayloadSize : Bool :=
  report.error.isNone && decide (0 < report.responseBodySize) &&
    decide (200 ≤ report.recordedStatus ∧ report.recordedStatus < 300)

/-- The sizes recorded after a single call. -/
def sizes : List Recording :=
  (if 0 < report.requestBodySize then
    [.bound (.obRequestPayloadSizes report.requestBodySize)] else []) ++
  if report.shouldRecordResponsePayloadSize then
    [.bound (.obResponsePayloadSizes report.responseBodySize)] else []

/-- The calls `updatePostProcessorMetricsHertz` makes, in order. -/
def updatePostProcessorMetrics : List Recording :=
  .bound .incrTotalJRPCRequest :: .bound (.incrHTTPStatusCode report.recordedStatus) ::
    if report.isBatch then
      [.bound .incrBatchCallsFinished, .bound (.obBatchCallsTime report.duration)]
    else .bound (.obCallsTime report.duration) :: report.outcome toLower :: report.sizes

end Report

end NodexProxy.Metrics
