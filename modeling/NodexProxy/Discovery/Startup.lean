import NodexProxy.Discovery.KeyRoundTrip
import NodexProxy.Discovery.Watch

/-! `Init` before anything reads the channels. `main` starts the consumer only after `Init`
has returned, so every event of the snapshot stays on its channel, and a channel holds at
most `channelCapacity` of them. -/

namespace NodexProxy.Discovery

open NodexProxy.Foundation NodexProxy.Admin

/-- The buffer of each of the five channels. -/
def channelCapacity : Nat := 1000

/-- The events on a channel nobody has read from. -/
def Discover.queued (discover : Discover) (channel : Channel) : Nat :=
  discover.dispatched.countP fun dispatch => dispatch.event.channel = channel

/-- The loop of `Init` over the snapshot, between two keys. -/
structure Startup where
  discover : Discover
  remaining : List (Bytes × Bytes)

section Startup

variable (decoder : Decoder)

def sendsOn (channel : Channel) (kv : Bytes × Bytes) : Bool :=
  (putEvent decoder kv.1 kv.2).any fun event => event.channel = channel

/-- The next key has to be sent on a full channel. -/
def Startup.Blocked (startup : Startup) : Prop :=
  ∃ kv rest channel, startup.remaining = kv :: rest ∧ sendsOn decoder channel kv ∧
    channelCapacity ≤ startup.discover.queued channel

/-- One turn of the loop. A send on a full channel does not return. -/
def Startup.step (startup : Startup) (_ : Unit) : Option Startup :=
  match startup.remaining with
  | [] => none
  | kv :: rest =>
    match putEvent decoder kv.1 kv.2 with
    | none => some ⟨startup.discover, rest⟩
    | some event =>
      if channelCapacity ≤ startup.discover.queued event.channel then none
      else some ⟨startup.discover.dispatchPut decoder kv.1 kv.2, rest⟩

def Startup.new (kvs : List (Bytes × Bytes)) : Startup := ⟨.new, kvs⟩

/-- `Init` comes to the end of the snapshot. -/
def InitReturns (kvs : List (Bytes × Bytes)) : Prop :=
  ∃ schedule discover, exec (Startup.step decoder) (.new kvs) schedule = some ⟨discover, []⟩

end Startup

section Accounting

variable {decoder : Decoder}

theorem Discover.queued_dispatchPut (discover : Discover) (kv : Bytes × Bytes) (channel : Channel) :
    (discover.dispatchPut decoder kv.1 kv.2).queued channel =
      discover.queued channel + if sendsOn decoder channel kv then 1 else 0 := by
  unfold Discover.dispatchPut sendsOn
  cases putEvent decoder kv.1 kv.2 with
  | none => simp
  | some event => cases event <;> simp [Discover.queued, Discover.send, List.countP_cons]

/-- Everything a turn of the loop can do. -/
theorem Startup.step_cases {startup next : Startup}
    (stepped : startup.step decoder () = some next) :
    ∃ kv rest, startup.remaining = kv :: rest ∧ next.remaining = rest ∧
      next.discover = startup.discover.dispatchPut decoder kv.1 kv.2 ∧
      ∀ channel, sendsOn decoder channel kv → startup.discover.queued channel < channelCapacity := by
  unfold Startup.step at stepped
  split at stepped
  · cases stepped
  · rename_i kv rest remaining
    refine ⟨kv, rest, remaining, ?_⟩
    split at stepped
    · rename_i nothing
      cases stepped
      exact ⟨rfl, by simp [Discover.dispatchPut, nothing], by simp [sendsOn, nothing]⟩
    · rename_i event found
      obtain ⟨room, same⟩ := Option.ite_none_left_eq_some.mp stepped
      cases same
      refine ⟨rfl, rfl, ?_⟩
      intro channel sends
      have own : event.channel = channel := by simpa [sendsOn, found] using sends
      subst own
      omega

/-- A turn that is not blocked is taken. -/
theorem Startup.step_isSome {startup : Startup} (pending : startup.remaining = kv :: rest)
    (free : ¬ startup.Blocked decoder) : ∃ next, startup.step decoder () = some next := by
  unfold Startup.step
  simp only [pending]
  cases found : putEvent decoder kv.1 kv.2 with
  | none => exact ⟨_, rfl⟩
  | some event =>
    have room : ¬ channelCapacity ≤ startup.discover.queued event.channel :=
      fun full => free ⟨kv, rest, event.channel, pending, by simp [sendsOn, found], full⟩
    exact ⟨_, if_neg room⟩

/-- Sent and pending events of a channel are those of the snapshot, and no channel holds
more than its capacity. -/
structure Startup.Accounted (decoder : Decoder) (kvs : List (Bytes × Bytes)) (startup : Startup) :
    Prop where
  total : ∀ channel, startup.discover.queued channel +
    startup.remaining.countP (sendsOn decoder channel) = kvs.countP (sendsOn decoder channel)
  bounded : ∀ channel, startup.discover.queued channel ≤ channelCapacity

theorem Startup.Accounted.new (kvs : List (Bytes × Bytes)) :
    (Startup.new kvs).Accounted decoder kvs :=
  ⟨fun _ => Nat.zero_add _, fun _ => Nat.zero_le _⟩

theorem Startup.Accounted.step {startup next : Startup} (accounted : startup.Accounted decoder kvs)
    (stepped : startup.step decoder () = some next) : next.Accounted decoder kvs := by
  obtain ⟨kv, rest, pending, behind, sent, room⟩ := Startup.step_cases stepped
  constructor
  · intro channel
    have before := accounted.total channel
    rw [pending, List.countP_cons] at before
    rw [sent, behind, startup.discover.queued_dispatchPut]
    omega
  · intro channel
    have before := accounted.bounded channel
    rw [sent, startup.discover.queued_dispatchPut]
    split
    · rename_i sends
      have := room channel sends
      omega
    · omega

theorem Startup.Accounted.of_run {startup : Startup}
    (run : exec (Startup.step decoder) (.new kvs) schedule = some startup) :
    startup.Accounted decoder kvs :=
  exec_invariant (Startup.Accounted.new kvs) (fun _ _ _ before stepped => before.step stepped) run

/-- What `Init` has dispatched when it returns is what the watch loop starts from. -/
theorem Startup.returned_eq_load {final : Discover}
    (run : exec (Startup.step decoder) (.new kvs) schedule = some ⟨final, []⟩) (revision : Nat) :
    { final with watchRevision := revision } = Discover.new.load decoder revision kvs := by
  have loaded := exec_invariant (motive := fun startup : Startup =>
      ∃ done, kvs = done ++ startup.remaining ∧ startup.discover =
        done.foldl (fun state kv => state.dispatchPut decoder kv.1 kv.2) .new)
    ⟨[], rfl, rfl⟩ (by
      rintro startup _ next ⟨done, split, same⟩ stepped
      obtain ⟨kv, rest, pending, behind, sent, _⟩ := Startup.step_cases stepped
      exact ⟨done ++ [kv], by simp [split, pending, behind], by simp [sent, same]⟩) run
  obtain ⟨done, split, same⟩ := loaded
  simp only [List.append_nil] at split same
  subst split
  rw [same]
  rfl

/-- Within the capacity no reached state is blocked. -/
theorem Startup.Accounted.free {startup : Startup} (accounted : startup.Accounted decoder kvs)
    (fits : ∀ channel, kvs.countP (sendsOn decoder channel) ≤ channelCapacity) :
    ¬ startup.Blocked decoder := by
  rintro ⟨kv, rest, channel, pending, sends, full⟩
  have total := accounted.total channel
  rw [pending, List.countP_cons, if_pos sends] at total
  have := fits channel
  omega

/-- The loop runs until the snapshot is used up or a channel is full. -/
theorem Startup.runs_to_end (decoder : Decoder) (remaining : List (Bytes × Bytes)) :
    ∀ startup : Startup, startup.remaining = remaining →
      ∃ schedule final, exec (Startup.step decoder) startup schedule = some final ∧
        (final.remaining = [] ∨ final.Blocked decoder) := by
  induction remaining with
  | nil => exact fun startup finished => ⟨[], startup, rfl, .inl finished⟩
  | cons kv rest ih =>
    intro startup pending
    by_cases blocked : startup.Blocked decoder
    · exact ⟨[], startup, rfl, .inr blocked⟩
    · obtain ⟨next, stepped⟩ := Startup.step_isSome pending blocked
      obtain ⟨kv', rest', pending', behind, _⟩ := Startup.step_cases stepped
      have same : next.remaining = rest := by
        rw [pending] at pending'
        cases pending'
        exact behind
      obtain ⟨schedule, final, run, ended⟩ := ih next same
      exact ⟨() :: schedule, final, by simp [exec, stepped, run], ended⟩

theorem Startup.Accounted.fits {startup : Startup} (accounted : startup.Accounted decoder kvs)
    (finished : startup.remaining = []) (channel : Channel) :
    kvs.countP (sendsOn decoder channel) ≤ channelCapacity := by
  have total := accounted.total channel
  rw [finished, List.countP_nil, Nat.add_zero] at total
  rw [← total]
  exact accounted.bounded channel

/-- Beyond the capacity a full channel is met. -/
theorem Startup.blocks_of_exceeds (exceeds : channelCapacity < kvs.countP (sendsOn decoder channel)) :
    ∃ schedule startup, exec (Startup.step decoder) (.new kvs) schedule = some startup ∧
      startup.Blocked decoder := by
  obtain ⟨schedule, final, run, ended⟩ := Startup.runs_to_end decoder kvs (.new kvs) rfl
  rcases ended with finished | blocked
  · have fits := (Startup.Accounted.of_run run).fits finished channel
    omega
  · exact ⟨schedule, final, run, blocked⟩

/-- `Init` gets through a snapshot, never having to send on a full channel, exactly when no
channel gets more events from it than it holds. -/
theorem init_never_blocks_iff (decoder : Decoder) (kvs : List (Bytes × Bytes)) :
    ((∀ schedule startup, exec (Startup.step decoder) (.new kvs) schedule = some startup →
        ¬ startup.Blocked decoder) ∧ InitReturns decoder kvs) ↔
      ∀ channel, kvs.countP (sendsOn decoder channel) ≤ channelCapacity := by
  constructor
  · rintro ⟨_, schedule, discover, run⟩
    exact (Startup.Accounted.of_run run).fits rfl
  · intro fits
    have free : ∀ schedule startup, exec (Startup.step decoder) (.new kvs) schedule = some startup →
        ¬ startup.Blocked decoder :=
      fun schedule startup run => (Startup.Accounted.of_run run).free fits
    refine ⟨free, ?_⟩
    obtain ⟨schedule, ⟨discover, remaining⟩, run, finished | blocked⟩ :=
      Startup.runs_to_end decoder kvs (.new kvs) rfl
    · simp only at finished
      subst remaining
      exact ⟨schedule, discover, run⟩
    · exact absurd blocked (free _ _ run)

end Accounting

/-- A node record as `AddNode` stores it. -/
def storedNode : Bytes := ascii ("\x7b\"stateType\":1,\"address\":\"10.0.0.1\",\"port\":8545," ++
  "\"nodeType\":1,\"weight\":100,\"source\":\"manual\"\x7d")

/-- `json.Unmarshal` on that record. -/
def storedNodeDecoder : Decoder where
  node value := if value = storedNode then
      (⟨1, ascii "10.0.0.1", 8545, 1, 100, ascii "manual"⟩, true)
    else (.zero, false)
  height _ := (none, false)
  gateway _ := (⟨[], none⟩, false)
  mirror _ := (.zero, false)
  versionObject _ := ([], false)
  versionText _ := ([], false)

/-- Nodes of one chain whose keys are told apart by their length. -/
def manyNodes (count : Nat) : List (Bytes × Bytes) :=
  (List.range count).map fun index =>
    (nodeEtcdKey [] (ascii "1") (List.replicate (index + 1) 110), storedNode)

theorem parseKey_manyNodes (index : Nat) :
    parseKey (nodeEtcdKey [] (ascii "1") (List.replicate index 110)) =
      (.node, ascii "1", List.replicate index 110) := by
  have safe : KeySafe [] (ascii "1") (List.replicate index 110) [] := {
    slashes := by simp
    chainPlain := by decide
    nodePlain := by
      intro member
      exact absurd (List.eq_of_mem_replicate member) (by decide)
    addressPlain := by decide
    unreserved := .inl rfl
    unmarked := ⟨fun occurs => absurd (occurs.sublist.count_le slash) (by decide),
      fun occurs => absurd (occurs.sublist.count_le slash) (by decide)⟩ }
  exact parseKey_nodeEtcdKey (by decide) (by decide) safe

theorem countP_manyNodes (count : Nat) :
    (manyNodes count).countP (sendsOn storedNodeDecoder .node) = count := by
  have all : ∀ kv ∈ manyNodes count, sendsOn storedNodeDecoder .node kv = true := by
    intro kv member
    obtain ⟨index, _, rfl⟩ := List.mem_map.mp member
    unfold sendsOn putEvent
    rw [parseKey_manyNodes]
    rfl
  rw [List.countP_eq_length.mpr all]
  simp [manyNodes]

/-- A snapshot of 1001 nodes keeps `Init` from returning. -/
theorem init_blocks_on_many_nodes :
    ((manyNodes 1001).map Prod.fst).Nodup ∧ ¬ InitReturns storedNodeDecoder (manyNodes 1001) ∧
      ∃ schedule startup, exec (Startup.step storedNodeDecoder) (.new (manyNodes 1001)) schedule =
        some startup ∧ startup.Blocked storedNodeDecoder := by
  have exceeds : channelCapacity <
      (manyNodes 1001).countP (sendsOn storedNodeDecoder .node) := by
    rw [countP_manyNodes]
    decide
  refine ⟨?_, ?_, Startup.blocks_of_exceeds exceeds⟩
  · unfold manyNodes
    rw [List.map_map]
    refine List.Nodup.map ?_ List.nodup_range
    intro first second same
    have lengths := congrArg List.length same
    simp [nodeEtcdKey] at lengths
    exact lengths
  · rintro ⟨schedule, discover, run⟩
    have fits := (Startup.Accounted.of_run run).fits rfl .node
    omega


end NodexProxy.Discovery
