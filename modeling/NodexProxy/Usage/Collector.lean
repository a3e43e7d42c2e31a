import NodexProxy.Foundation.Execution
import NodexProxy.Foundation.Tally

/-! The usage collector: `Record` calls, the flush loop and `Close` race on one map
of durations. Each action is one critical section, channel operation or call of the
producer; contexts do not expire. -/

namespace NodexProxy.Usage

open NodexProxy.Foundation

def unknownClientID : Bytes := ascii "unknown"
def serviceLeafage : Bytes := ascii "leafage"
def resourceTypeRead : Bytes := ascii "read"
def aggregationFlushThreshold : Int := 10000

/-- One aggregated usage message. -/
structure Record where
  id : Bytes
  clientID : Bytes
  service : Bytes
  resourceType : Bytes
  usage : Int
  timestamp : Int
  deriving DecidableEq, Repr

/-- A `Record` call that took the lock, with the `closed` flag it saw there. -/
structure Call where
  position : Nat
  clientID : Bytes
  duration : Int
  closed : Bool
  deriving DecidableEq, Repr

/-- What a list of calls charges to each client. -/
def charges (calls : List Call) : List (Bytes × Int) :=
  calls.map fun call => (call.clientID, call.duration)

/-- A map of durations swapped out of the collector. The window lists the calls that
went into it; the code does not keep it. -/
structure Snapshot where
  durations : Assoc Bytes Int
  window : List Call

/-- The records `writeSnapshot` builds, one for each key of the map. -/
def Snapshot.records (snapshot : Snapshot) (timestamp : Int) (newID : Bytes → Bytes) :
    List Record :=
  snapshot.durations.entries.map fun entry =>
    let usage := Int.tdiv entry.2 1000000
    { id := newID entry.1
      clientID := entry.1
      service := serviceLeafage
      resourceType := resourceTypeRead
      usage := if usage < 1 then 1 else usage
      timestamp }

/-- A snapshot handed to `producer.Write`. -/
structure Batch extends Snapshot where
  records : List Record

/-- Where the goroutine `run` stands. -/
inductive Loop where
  | selecting
  | flushing
  | swapped (snapshot : Snapshot)
  | writing (snapshot : Snapshot)
  | done

/-- Where the call of `Close` that entered `closeOnce` stands. -/
inductive Closing where
  | opened
  | marked
  | awaiting
  | final
  | swapped (snapshot : Snapshot)
  | writing (snapshot : Snapshot)
  | closingProducer (writeErr : Bool)
  | returned (closeErr : Bool)

structure Options where
  flushThreshold : Int

/-- `newCollector` replaces a threshold that is not positive. -/
def Options.normalize (options : Options) : Options :=
  if options.flushThreshold ≤ 0 then { flushThreshold := aggregationFlushThreshold } else options

/-- The collector and its goroutines. `senders` counts the `Record` calls that left
their critical section with a flush to request; `calls` and `handed` are history. -/
structure Collector where
  active : Assoc Bytes Int
  window : List Call
  closed : Bool
  stop : Bool
  flushNow : Bool
  senders : Nat
  aggregationKeys : Int
  loop : Loop
  closing : Closing
  calls : List Call
  handed : List Batch

def newCollector : Collector where
  active := ∅
  window := []
  closed := false
  stop := false
  flushNow := false
  senders := 0
  aggregationKeys := 0
  loop := .selecting
  closing := .opened
  calls := []
  handed := []

/-- The key a client id is accounted under. -/
def clientKey (clientID : Bytes) : Bytes :=
  let clientID := trimSpace clientID
  if clientID = [] then unknownClientID else clientID

/-- The locked section of `Record`. -/
def Collector.add (options : Options) (collector : Collector) (call : Call) : Collector :=
  let collector := { collector with calls := collector.calls ++ [call] }
  if collector.closed then collector
  else
    match collector.active.lookup call.clientID with
    | some accumulated =>
      { collector with
        active := collector.active.insert call.clientID (accumulated + call.duration)
        window := collector.window ++ [call] }
    | none =>
      let active := collector.active.insert call.clientID call.duration
      { collector with
        active
        window := collector.window ++ [call]
        aggregationKeys := collector.aggregationKeys + 1
        senders :=
          if options.flushThreshold ≤ active.keys.length then collector.senders + 1
          else collector.senders }

/-- `Record`, up to the flush it may request. -/
def Collector.record (options : Options) (collector : Collector) (clientID : Bytes)
    (duration : Int) : Collector :=
  if duration < 0 then collector
  else
    collector.add options
      { position := collector.calls.length
        clientID := clientKey clientID
        duration
        closed := collector.closed }

/-- The map `snapshot` returns, if it is not empty, and the collector it leaves. -/
def Collector.snapshot (collector : Collector) (closeCollector : Bool) :
    Option Snapshot × Collector :=
  let collector := { collector with closed := collector.closed || closeCollector }
  if collector.active.keys.length = 0 then (none, collector)
  else
    (some { durations := collector.active, window := collector.window },
      { collector with active := ∅, window := [] })

/-- `producer.Write` is called with the records of a snapshot. -/
def Collector.hand (collector : Collector) (snapshot : Snapshot) (timestamp : Int)
    (newID : Bytes → Bytes) : Collector :=
  { collector with
    handed := collector.handed ++ [{ snapshot with records := snapshot.records timestamp newID }] }

/-- The deferred update of the gauge when `writeSnapshot` returns. -/
def Collector.release (collector : Collector) (snapshot : Snapshot) : Collector :=
  { collector with
    aggregationKeys := collector.aggregationKeys - snapshot.durations.keys.length }

inductive Action where
  | record (clientID : Bytes) (duration : Int)
  | requestFlush
  | tick
  | receiveFlush
  | receiveStop
  | loopSnapshot
  | loopWrite (timestamp : Int) (newID : Bytes → Bytes)
  | loopWritten (failed : Bool)
  | close
  | closeStop
  | closeAwait
  | closeSnapshot
  | closeWrite (timestamp : Int) (newID : Bytes → Bytes)
  | closeWritten (failed : Bool)
  | closeProducer (failed : Bool)

/-- One step of `run`, taken when its `select` is ready or its flush goes on. -/
def Collector.stepLoop (collector : Collector) : Action → Option Collector
  | .tick =>
    match collector.loop with
    | .selecting => some { collector with loop := .flushing }
    | _ => none
  | .receiveFlush =>
    match collector.loop, collector.flushNow with
    | .selecting, true => some { collector with loop := .flushing, flushNow := false }
    | _, _ => none
  | .receiveStop =>
    match collector.loop, collector.stop with
    | .selecting, true => some { collector with loop := .done }
    | _, _ => none
  | .loopSnapshot =>
    match collector.loop, collector.snapshot false with
    | .flushing, (some snapshot, collector) => some { collector with loop := .swapped snapshot }
    | .flushing, (none, collector) => some { collector with loop := .selecting }
    | _, _ => none
  | .loopWrite timestamp newID =>
    match collector.loop with
    | .swapped snapshot =>
      some { collector.hand snapshot timestamp newID with loop := .writing snapshot }
    | _ => none
  | .loopWritten _ =>
    match collector.loop with
    | .writing snapshot => some { collector.release snapshot with loop := .selecting }
    | _ => none
  | _ => none

/-- One step of `Close`. A call that finds `closeOnce` used returns with the first one. -/
def Collector.stepClose (collector : Collector) : Action → Option Collector
  | .close =>
    match collector.closing with
    | .opened => some { collector with closed := true, closing := .marked }
    | .returned _ => some collector
    | _ => none
  | .closeStop =>
    match collector.closing with
    | .marked => some { collector with stop := true, closing := .awaiting }
    | _ => none
  | .closeAwait =>
    match collector.closing, collector.loop with
    | .awaiting, .done => some { collector with closing := .final }
    | _, _ => none
  | .closeSnapshot =>
    match collector.closing, collector.snapshot true with
    | .final, (some snapshot, collector) => some { collector with closing := .swapped snapshot }
    | .final, (none, collector) => some { collector with closing := .closingProducer false }
    | _, _ => none
  | .closeWrite timestamp newID =>
    match collector.closing with
    | .swapped snapshot =>
      some { collector.hand snapshot timestamp newID with closing := .writing snapshot }
    | _ => none
  | .closeWritten failed =>
    match collector.closing with
    | .writing snapshot =>
      some { collector.release snapshot with closing := .closingProducer failed }
    | _ => none
  | .closeProducer failed =>
    match collector.closing with
    | .closingProducer writeErr =>
      some { collector with closing := .returned (writeErr || failed) }
    | _ => none
  | _ => none

/-- One action of any goroutine. -/
def Collector.step (options : Options) (collector : Collector) : Action → Option Collector
  | .record clientID duration => some (collector.record options.normalize clientID duration)
  | .requestFlush =>
    if collector.senders = 0 then none
    else some { collector with senders := collector.senders - 1, flushNow := true }
  | action => (collector.stepLoop action).or (collector.stepClose action)

end NodexProxy.Usage
