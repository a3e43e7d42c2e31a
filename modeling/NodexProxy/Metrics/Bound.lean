import NodexProxy.Foundation.Bytes
import NodexProxy.Foundation.Execution

/-! The cache of bound metric handles. `handlesFor` admits a label tuple under a lock,
and the recorders bind the handles of an admitted tuple on first use. -/

namespace NodexProxy.Metrics

open NodexProxy.Foundation

structure MethodMetricKey where
  host : Bytes
  target : Bytes
  chainID : Bytes
  chainVersion : Bytes
  method : Bytes
deriving DecidableEq, Repr

def maxMethodMetricLabelBytes : Nat := 1024

inductive Vector where
  | totalJRPCRequest
  | callsFinished
  | batchCallsFinished
  | callsTime
  | batchCallsTime
  | requestPayloadSizes
  | responsePayloadSizes
  | httpStatusCode
deriving DecidableEq, Repr

/-- One time series: a vector and its label values, in declaration order. -/
structure Series where
  vector : Vector
  labels : List Bytes
deriving DecidableEq, Repr

/-- The fields of `methodHandles` that hold one handle. -/
inductive Metric where
  | total
  | finished
  | batchFinished
  | callsDuration
  | batchDuration
  | requestSize
  | responseSize
deriving DecidableEq, Repr

def MethodMetricKey.common (key : MethodMetricKey) : List Bytes :=
  [key.host, key.target, key.chainID, key.chainVersion]

/-- The series each binding function of the key asks its vector for. -/
def MethodMetricKey.series (key : MethodMetricKey) : Metric → Series
  | .total => ⟨.totalJRPCRequest, key.common⟩
  | .finished => ⟨.callsFinished, key.common ++ [key.method]⟩
  | .batchFinished => ⟨.batchCallsFinished, key.common⟩
  | .callsDuration => ⟨.callsTime, key.common ++ [key.method]⟩
  | .batchDuration => ⟨.batchCallsTime, key.common⟩
  | .requestSize => ⟨.requestPayloadSizes, key.common ++ [key.method]⟩
  | .responseSize => ⟨.responsePayloadSizes, key.common ++ [key.method]⟩

def MethodMetricKey.httpStatus (key : MethodMetricKey) (statusCode : Int) : Series :=
  let method := if key.method = [] then ascii "batch" else key.method
  ⟨.httpStatusCode, key.common ++ [method, itoa statusCode]⟩

/-- `metricHandle`: a binding that panicked counts as done and leaves the nil metric. -/
inductive Handle where
  | unbound
  | bound (series : Series)
  | nil
deriving DecidableEq, Repr

structure MethodHandles where
  handle : Metric → Handle
  httpStatuses : Assoc Int Series

def MethodHandles.new : MethodHandles := ⟨fun _ => .unbound, ∅⟩

/-- The samples of every series that exists; a counter counts its increments. -/
abbrev Exposition := Assoc Series (List Int)

def observe (exposition : Exposition) (series : Series) (sample : Int) : Exposition :=
  exposition.insert series ((exposition.lookup series).getD [] ++ [sample])

inductive Recorder where
  | incrTotalJRPCRequest
  | incrCallsFinished
  | incrBatchCallsFinished
  | obCallsTime (duration : Int)
  | obBatchCallsTime (duration : Int)
  | obRequestPayloadSizes (size : Int)
  | obResponsePayloadSizes (size : Int)
  | incrHTTPStatusCode (statusCode : Int)
deriving DecidableEq, Repr

/-- The handle a recorder uses: a field, or the status it is stored under. -/
def Recorder.slot : Recorder → Metric ⊕ Int
  | .incrTotalJRPCRequest => .inl .total
  | .incrCallsFinished => .inl .finished
  | .incrBatchCallsFinished => .inl .batchFinished
  | .obCallsTime _ => .inl .callsDuration
  | .obBatchCallsTime _ => .inl .batchDuration
  | .obRequestPayloadSizes _ => .inl .requestSize
  | .obResponsePayloadSizes _ => .inl .responseSize
  | .incrHTTPStatusCode statusCode => .inr statusCode

/-- What is added to the series; durations are in nanoseconds and recorded in milliseconds. -/
def Recorder.sample : Recorder → Int
  | .incrTotalJRPCRequest | .incrCallsFinished | .incrBatchCallsFinished
  | .incrHTTPStatusCode _ => 1
  | .obCallsTime duration | .obBatchCallsTime duration => Int.tdiv duration 1000000
  | .obRequestPayloadSizes size | .obResponsePayloadSizes size => size

def MethodMetricKey.seriesOf (key : MethodMetricKey) (recorder : Recorder) : Series :=
  match recorder.slot with
  | .inl metric => key.series metric
  | .inr statusCode => key.httpStatus statusCode

section Record

-- whether prometheus accepts the label values; `WithLabelValues` panics if not
variable (valid : List Bytes → Bool)

/-- Record through the vector; `none` is a panic. -/
def recordDirect (exposition : Exposition) (key : MethodMetricKey) (recorder : Recorder) :
    Option Exposition :=
  let series := key.seriesOf recorder
  if valid series.labels then some (observe exposition series recorder.sample) else none

/-- `metricHandle.get` and the use of what it returns. -/
def recordHandle (exposition : Exposition) (handle : Handle) (series : Series) (sample : Int) :
    Handle × Option Exposition :=
  match handle with
  | .unbound =>
    if valid series.labels then (.bound series, some (observe exposition series sample))
    else (.nil, none)
  | .bound bound => (.bound bound, some (observe exposition bound sample))
  | .nil => (.nil, none)

/-- A recorder on a cached tuple: the handles it leaves and the exposition, unless it panics. -/
def MethodHandles.record (handles : MethodHandles) (exposition : Exposition)
    (key : MethodMetricKey) (recorder : Recorder) : MethodHandles × Option Exposition :=
  match recorder.slot with
  | .inl metric =>
    let (handle, result) :=
      recordHandle valid exposition (handles.handle metric) (key.series metric) recorder.sample
    ({ handles with handle := Function.update handles.handle metric handle }, result)
  | .inr statusCode =>
    match handles.httpStatuses.lookup statusCode with
    | some bound => (handles, some (observe exposition bound recorder.sample))
    | none =>
      let series := key.httpStatus statusCode
      if valid series.labels then
        ({ handles with httpStatuses := handles.httpStatuses.insert statusCode series },
          some (observe exposition series recorder.sample))
      else (handles, none)

end Record

def MethodMetricKey.oversized (key : MethodMetricKey) : Bool :=
  key.host.length + key.target.length + key.chainID.length + key.chainVersion.length +
    key.method.length > maxMethodMetricLabelBytes

/-- Where a `handlesFor` call stands. -/
inductive Stage where
  | looking
  | missed
  | locking
  | returned (handles : Option Nat)
deriving DecidableEq, Repr

structure Caller where
  key : MethodMetricKey
  stage : Stage
deriving DecidableEq, Repr

/-- The cache, the handle objects by address, the callers and what prometheus exposes. The
recording calls, and whether each panicked, are history. -/
structure Registry where
  entries : Assoc MethodMetricKey Nat
  size : Int
  full : Bool
  objects : List MethodHandles
  callers : List Caller
  exposition : Exposition
  calls : List (MethodMetricKey × Recorder)
  panics : List Bool

def Registry.new : Registry where
  entries := ∅
  size := 0
  full := false
  objects := []
  callers := []
  exposition := ∅
  calls := []
  panics := []

def Registry.setStage (registry : Registry) (index : Nat) (caller : Caller) (stage : Stage) :
    Registry :=
  { registry with callers := registry.callers.set index { caller with stage } }

/-- The locked section of `handlesFor`. -/
def Registry.enter (limit : Int) (registry : Registry) (key : MethodMetricKey) :
    Registry × Option Nat :=
  match registry.entries.lookup key with
  | some existing => (registry, some existing)
  | none =>
    if limit ≤ registry.size then ({ registry with full := true }, none)
    else
      let address := registry.objects.length
      ({ registry with
        entries := registry.entries.insert key address
        size := registry.size + 1
        objects := registry.objects ++ [.new] }, some address)

/-- A recording call on the `MethodMetrics` of a returned `handlesFor`. -/
def Registry.record (valid : List Bytes → Bool) (registry : Registry) (key : MethodMetricKey)
    (handles : Option Nat) (recorder : Recorder) : Registry :=
  let registry := { registry with calls := registry.calls ++ [(key, recorder)] }
  let finish (registry : Registry) (result : Option Exposition) : Registry :=
    { registry with
      exposition := result.getD registry.exposition
      panics := registry.panics ++ [result.isNone] }
  match handles with
  | none => finish registry (recordDirect valid registry.exposition key recorder)
  | some address =>
    match registry.objects[address]? with
    | none => registry
    | some object =>
      let (object, result) := object.record valid registry.exposition key recorder
      finish { registry with objects := registry.objects.set address object } result

inductive Action where
  | call (key : MethodMetricKey)
  | load (index : Nat)
  | readFull (index : Nat)
  | lock (index : Nat)
  | record (index : Nat) (recorder : Recorder)

def Registry.step (valid : List Bytes → Bool) (limit : Int) (registry : Registry) :
    Action → Option Registry
  | .call key =>
    let stage := if key.oversized then .returned none else .looking
    some { registry with callers := registry.callers ++ [⟨key, stage⟩] }
  | .load index => do
    let caller ← registry.callers[index]?
    match caller.stage with
    | .looking =>
      match registry.entries.lookup caller.key with
      | some existing => return registry.setStage index caller (.returned (some existing))
      | none => return registry.setStage index caller .missed
    | _ => none
  | .readFull index => do
    let caller ← registry.callers[index]?
    match caller.stage with
    | .missed =>
      return registry.setStage index caller (if registry.full then .returned none else .locking)
    | _ => none
  | .lock index => do
    let caller ← registry.callers[index]?
    match caller.stage with
    | .locking =>
      let (registry, result) := registry.enter limit caller.key
      return registry.setStage index caller (.returned result)
    | _ => none
  | .record index recorder => do
    let caller ← registry.callers[index]?
    match caller.stage with
    | .returned handles => return registry.record valid caller.key handles recorder
    | _ => none

end NodexProxy.Metrics
