import NodexProxy.Foundation.Execution
import NodexProxy.Discovery.Key
import NodexProxy.Discovery.Types

/-! The etcd side of `Discover`: what a key and a value are turned into, the snapshot and
watch loop, and the history of the store it follows. -/

namespace NodexProxy.Discovery

open NodexProxy.Foundation

/-- `json.Unmarshal` into each record: the record as it is left, and whether the error is
nil. A failed decode may have filled some fields. -/
structure Decoder where
  node : Bytes → NodeBody × Bool
  height : Bytes → Option Int × Bool
  gateway : Bytes → GatewayBody × Bool
  mirror : Bytes → MirrorBody × Bool
  versionObject : Bytes → Bytes × Bool
  versionText : Bytes → Bytes × Bool

inductive Event where
  | node (node : TargetNode)
  | height (height : ChainHeight)
  | gateway (gateway : Gateway)
  | mirror (mirror : MirrorTarget)
  | version (version : ChainVersion)

/-- The five channels of `Discover`. -/
inductive Channel where
  | node
  | height
  | gateway
  | mirror
  | version
deriving DecidableEq, Repr

def Event.channel : Event → Channel
  | .node _ => .node
  | .height _ => .height
  | .gateway _ => .gateway
  | .mirror _ => .mirror
  | .version _ => .version

def Event.changeType : Event → ChangeType
  | .node target => target.changeType
  | .height _ => .put
  | .gateway config => config.changeType
  | .mirror target => if target.deleted then .delete else .put
  | .version chain => chain.changeType

def NodeBody.zero : NodeBody := ⟨0, [], 0, 0, 0, []⟩

def MirrorBody.zero : MirrorBody := ⟨[], 0, none⟩

section Dispatch

variable (decoder : Decoder)

def parseVersionValue (value : Bytes) : Bytes :=
  let trimmed := trimSpace value
  let object := decoder.versionObject value
  let plain := decoder.versionText value
  if value = [] ∨ trimmed = [] then []
  else if object.2 ∧ trimSpace object.1 ≠ [] then trimSpace object.1
  else if plain.2 ∧ trimSpace plain.1 ≠ [] then trimSpace plain.1
  else trimByte 34 trimmed

/-- What `dispatchPut` sends for a key, if its value decodes. -/
def putEvent (key value : Bytes) : Option Event :=
  match parseKey key with
  | (.unknown, _, _) => none
  | (.node, chainId, sub) =>
    match decoder.node value with
    | (_, false) => none
    | (body, true) => some (.node ⟨body, chainId, sub, .put⟩)
  | (.nativeNode, chainId, sub) =>
    match decoder.node value with
    | (_, false) => none
    | (body, true) => some (.node ⟨{ body with source := ascii "native" }, chainId, sub, .put⟩)
  | (.height, chainId, _) =>
    match decoder.height value with
    | (_, false) => none
    | (number, true) => some (.height ⟨chainId, number⟩)
  | (.gateway, chainId, _) =>
    match decoder.gateway value with
    | (_, false) => none
    | (body, true) => some (.gateway ⟨body, chainId, .put⟩)
  | (.mirror, chainId, sub) =>
    match decoder.mirror value with
    | (_, false) => none
    | (body, true) => some (.mirror ⟨body, chainId, sub, false⟩)
  | (.version, chainId, _) => some (.version ⟨chainId, parseVersionValue decoder value, .put⟩)

/-- What `dispatchDelete` sends, from the previous value as far as it decodes. -/
def deleteEvent (key : Bytes) (prevValue : Option Bytes) : Option Event :=
  let node := (prevValue.map fun value => (decoder.node value).1).getD .zero
  match parseKey key with
  | (.unknown, _, _) => none
  | (.node, chainId, sub) => some (.node ⟨node, chainId, sub, .delete⟩)
  | (.nativeNode, chainId, sub) =>
    some (.node ⟨{ node with source := ascii "native" }, chainId, sub, .delete⟩)
  | (.height, _, _) => none
  | (.gateway, chainId, _) => some (.gateway ⟨⟨[], none⟩, chainId, .delete⟩)
  | (.mirror, chainId, sub) =>
    let body := (prevValue.map fun value => (decoder.mirror value).1).getD .zero
    some (.mirror ⟨body, chainId, sub, true⟩)
  | (.version, chainId, _) =>
    some (.version ⟨chainId, parseVersionValue decoder (prevValue.getD []), .delete⟩)

/-- An event on its channel. The key, and for a PUT the raw value, are history. -/
structure Dispatch where
  key : Bytes
  value : Option Bytes
  event : Event

structure Discover where
  knownKeys : Assoc Bytes Bytes
  watchRevision : Nat
  dispatched : List Dispatch

def Discover.new : Discover := ⟨∅, 0, []⟩

def Discover.send (discover : Discover) (dispatch : Dispatch) : Discover :=
  { discover with dispatched := discover.dispatched ++ [dispatch] }

def Discover.dispatchPut (discover : Discover) (key value : Bytes) : Discover :=
  match putEvent decoder key value with
  | none => discover
  -- heights have no DELETE semantics, so they are not tracked
  | some (.height height) => discover.send ⟨key, some value, .height height⟩
  | some event =>
    { discover with knownKeys := discover.knownKeys.insert key value }.send ⟨key, some value, event⟩

def Discover.dispatchDelete (discover : Discover) (key : Bytes) (prevValue : Option Bytes) :
    Discover :=
  let prevValue := prevValue <|> discover.knownKeys.lookup key
  let discover := { discover with knownKeys := discover.knownKeys.erase key }
  match deleteEvent decoder key prevValue with
  | none => discover
  | some event => discover.send ⟨key, none, event⟩

end Dispatch

/-! The store and its history. -/

/-- One write to etcd. A revision may hold several, of different keys. -/
inductive Change where
  | put (key value : Bytes)
  | delete (key : Bytes)
deriving DecidableEq, Repr

def Change.key : Change → Bytes
  | .put key _ => key
  | .delete key => key

def Change.value : Change → Option Bytes
  | .put _ value => some value
  | .delete _ => none

def Change.apply (store : Assoc Bytes Bytes) : Change → Assoc Bytes Bytes
  | .put key value => store.insert key value
  | .delete key => store.erase key

/-- Every write etcd ever sees, by revision. -/
abbrev History := Nat → List Change

/-- The writes of the revisions after `low`, up to and including `high`. -/
def History.between (history : History) (low high : Nat) : List Change :=
  (List.range' (low + 1) (high - low)).flatMap history

/-- The store at a revision. -/
def History.storeAt (history : History) (revision : Nat) : Assoc Bytes Bytes :=
  (history.between 0 revision).foldl Change.apply ∅

/-- A `Get` with `WithPrefix` at a revision. -/
def History.get (history : History) (keyPrefix : Bytes) (revision : Nat) : List (Bytes × Bytes) :=
  ((history.storeAt revision).entries.map fun entry => (entry.1, entry.2)).filter fun kv =>
    keyPrefix <+: kv.1

/-- A delivered write. A DELETE may come with the previous value. -/
inductive WatchEvent where
  | put (key value : Bytes)
  | delete (key : Bytes) (prevKv : Option Bytes)
deriving DecidableEq, Repr

def WatchEvent.change : WatchEvent → Change
  | .put key value => .put key value
  | .delete key _ => .delete key

section Loop

variable (decoder : Decoder)

def Discover.dispatch (discover : Discover) : WatchEvent → Discover
  | .put key value => discover.dispatchPut decoder key value
  | .delete key prevKv => discover.dispatchDelete decoder key prevKv

/-- The loop of `processWatchEvents` over one response. -/
def Discover.receive (discover : Discover) (revision : Nat) (events : List WatchEvent) : Discover :=
  { events.foldl (Discover.dispatch decoder) discover with watchRevision := revision }

/-- The loop of `Init` over the snapshot. -/
def Discover.load (discover : Discover) (revision : Nat) (kvs : List (Bytes × Bytes)) : Discover :=
  { kvs.foldl (fun state kv => state.dispatchPut decoder kv.1 kv.2) discover with
    watchRevision := revision }

/-- The first loop of `resync`. `known` lists the entries of `knownKeys` in the order the
iteration takes them. -/
def Discover.dropGone (discover : Discover) (known kvs : List (Bytes × Bytes)) : Discover :=
  known.foldl (fun state entry =>
    if entry.1 ∈ kvs.map Prod.fst then state
    else state.dispatchDelete decoder entry.1 (some entry.2)) discover

/-- The second loop of `resync`, which skips unchanged keys. -/
def Discover.putChanged (discover : Discover) (kvs : List (Bytes × Bytes)) : Discover :=
  kvs.foldl (fun state kv =>
    if state.knownKeys.lookup kv.1 = some kv.2 then state
    else state.dispatchPut decoder kv.1 kv.2) discover

def Discover.resync (discover : Discover) (revision : Nat) (known kvs : List (Bytes × Bytes)) :
    Discover :=
  { (discover.dropGone decoder known kvs).putChanged decoder kvs with watchRevision := revision }

/-- Where the watch goroutine stands. An open watch has a cursor at etcd: the revision from
which it still has to deliver. -/
inductive WatchPhase where
  | start
  | watching (next : Nat)
  | broken (compacted : Bool)
  | stopped
deriving DecidableEq, Repr

structure WatchLoop where
  discover : Discover
  phase : WatchPhase

def WatchLoop.new : WatchLoop := ⟨.new, .start⟩

/-- Open a watch right after the last processed revision. -/
def Discover.watch (discover : Discover) : WatchLoop :=
  ⟨discover, .watching (discover.watchRevision + 1)⟩

/-- What etcd and the environment choose. `fails` stands for a closed channel, a watch error
or a cancelled watch, and with the flag for a compaction error. -/
inductive WatchAction where
  | init (revision : Nat) (kvs : List (Bytes × Bytes))
  | initFails
  | response (revision : Nat) (events : List WatchEvent)
  | fails (compacted : Bool)
  | resync (revision : Nat) (known kvs : List (Bytes × Bytes))
  | resyncFails
  | reconnect
  | quit

variable (history : History) (keyPrefix : Bytes)

/-- One step of `Init` and `watchConfig` against a history. Snapshots may list their keys in
any order. A response delivers everything from the cursor to its own revision. -/
def WatchLoop.step (loop : WatchLoop) (action : WatchAction) : Option WatchLoop :=
  match loop.phase, action with
  | .start, .init revision kvs =>
    if kvs.Perm (history.get keyPrefix revision) then
      some (loop.discover.load decoder revision kvs).watch
    else none
  | .start, .initFails => some { loop with phase := .stopped }
  | .watching next, .response revision events =>
    if next ≤ revision + 1 ∧ events.map WatchEvent.change =
        (history.between (next - 1) revision).filter fun change => keyPrefix <+: change.key then
      some ⟨loop.discover.receive decoder revision events, .watching (revision + 1)⟩
    else none
  | .watching _, .fails compacted => some { loop with phase := .broken compacted }
  | .broken true, .resync revision known kvs =>
    if known.Perm (loop.discover.knownKeys.entries.map fun entry => (entry.1, entry.2)) ∧
        kvs.Perm (history.get keyPrefix revision) then
      some (loop.discover.resync decoder revision known kvs).watch
    else none
  | .broken true, .resyncFails => some loop.discover.watch
  | .broken false, .reconnect => some loop.discover.watch
  | .watching _, .quit => some { loop with phase := .stopped }
  | .broken _, .quit => some { loop with phase := .stopped }
  | _, _ => none

end Loop

end NodexProxy.Discovery
