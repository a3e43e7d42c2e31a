import NodexProxy.Usage.Collector

/-! Every accepted duration reaches the producer exactly once. -/

namespace NodexProxy.Usage

open NodexProxy.Foundation

/-- Snapshots taken out of the map and not yet handed to the producer. -/
def Loop.pending : Loop → List Snapshot
  | .swapped snapshot => [snapshot]
  | _ => []

/-- Snapshots whose `writeSnapshot` has not returned. -/
def Loop.inFlight : Loop → List Snapshot
  | .swapped snapshot | .writing snapshot => [snapshot]
  | _ => []

def Closing.pending : Closing → List Snapshot
  | .swapped snapshot => [snapshot]
  | _ => []

def Closing.inFlight : Closing → List Snapshot
  | .swapped snapshot | .writing snapshot => [snapshot]
  | _ => []

/-- `Close` is past its wait for the loop. -/
def Closing.awaited : Closing → Bool
  | .opened | .marked | .awaiting => false
  | _ => true

/-- `Close` is past its own snapshot. -/
def Closing.drained : Closing → Bool
  | .opened | .marked | .awaiting | .final => false
  | _ => true

def Collector.pending (collector : Collector) : List Snapshot :=
  collector.loop.pending ++ collector.closing.pending

def Collector.inFlight (collector : Collector) : List Snapshot :=
  collector.loop.inFlight ++ collector.closing.inFlight

def accepted (calls : List Call) : List Call := calls.filter fun call => !call.closed

theorem accepted_snoc (calls : List Call) (call : Call) :
    accepted (calls ++ [call]) = accepted calls ++ if call.closed then [] else [call] := by
  cases closed : call.closed <;> simp [accepted, closed]

/-- The books of a collector: what was called, what was handed over, what is on its
way there and what the map still holds. -/
structure Ledger (calls : List Call) (handed : List Batch) (pending inFlight : List Snapshot)
    (active : Assoc Bytes Int) (window : List Call) (gauge : Int) : Prop where
  numbered : calls.map Call.position = List.range calls.length
  partition : handed.flatMap (fun batch => batch.window) ++
    pending.flatMap (fun snapshot => snapshot.window) ++ window = accepted calls
  tallied : Tallies active (charges window)
  pendingTallied : ∀ snapshot ∈ pending, Tallies snapshot.durations (charges snapshot.window)
  handedTallied : ∀ batch ∈ handed, Tallies batch.durations (charges batch.window)
  listed : ∀ batch ∈ handed, batch.records.map Record.clientID = batch.durations.keys
  gauged : gauge = active.keys.length +
    (inFlight.map fun snapshot => (snapshot.durations.keys.length : Int)).sum

section Ledger

variable {calls : List Call} {handed : List Batch} {pending inFlight : List Snapshot}
  {active : Assoc Bytes Int} {window : List Call} {gauge : Int}

theorem Ledger.empty : Ledger [] [] [] [] ∅ [] 0 where
  numbered := rfl
  partition := rfl
  tallied := Tallies.empty
  pendingTallied := by simp
  handedTallied := by simp
  listed := by simp
  gauged := rfl

theorem numbered_snoc {call : Call} (numbered : calls.map Call.position = List.range calls.length)
    (next : call.position = calls.length) :
    (calls ++ [call]).map Call.position = List.range (calls ++ [call]).length := by
  simp [numbered, next, List.range_succ]

/-- A call that finds the collector closed is on the books and nowhere else. -/
theorem Ledger.refuse (ledger : Ledger calls handed pending inFlight active window gauge)
    {call : Call} (next : call.position = calls.length) (closed : call.closed = true) :
    Ledger (calls ++ [call]) handed pending inFlight active window gauge :=
  { ledger with
    numbered := numbered_snoc ledger.numbered next
    partition := by rw [accepted_snoc, closed, ledger.partition]; simp }

/-- An accepted call goes into the map; the gauge rises exactly if its key is new. -/
theorem Ledger.accept (ledger : Ledger calls handed pending inFlight active window gauge)
    {call : Call} (next : call.position = calls.length) (open_ : call.closed = false) :
    Ledger (calls ++ [call]) handed pending inFlight
      (active.insert call.clientID ((active.lookup call.clientID).getD 0 + call.duration))
      (window ++ [call])
      (if (active.lookup call.clientID).isSome then gauge else gauge + 1) where
  numbered := numbered_snoc ledger.numbered next
  partition := by
    rw [accepted_snoc, open_, ← List.append_assoc, ledger.partition]
    simp
  tallied := by
    have charged := ledger.tallied.charge call.clientID call.duration
    simpa [charges] using charged
  pendingTallied := ledger.pendingTallied
  handedTallied := ledger.handedTallied
  listed := ledger.listed
  gauged := by
    rw [Assoc.length_keys_insert, ledger.gauged]
    split <;> push_cast <;> omega

/-- The map is swapped for an empty one. -/
theorem Ledger.swap (ledger : Ledger calls handed [] [] active window gauge) :
    Ledger calls handed [⟨active, window⟩] [⟨active, window⟩] ∅ [] gauge :=
  { ledger with
    partition := by simpa using ledger.partition
    tallied := Tallies.empty
    pendingTallied := by simpa using ledger.tallied
    gauged := by simpa using ledger.gauged }

theorem Snapshot.clientIDs_records (snapshot : Snapshot) (timestamp : Int)
    (newID : Bytes → Bytes) :
    (snapshot.records timestamp newID).map Record.clientID = snapshot.durations.keys := by
  simp [Snapshot.records, AList.keys, List.keys]

theorem Ledger.hand {snapshot : Snapshot}
    (ledger : Ledger calls handed [snapshot] inFlight active window gauge)
    (timestamp : Int) (newID : Bytes → Bytes) :
    Ledger calls (handed ++ [⟨snapshot, snapshot.records timestamp newID⟩]) [] inFlight active
      window gauge :=
  { ledger with
    partition := by simpa using ledger.partition
    pendingTallied := by simp
    handedTallied := by
      intro batch member
      rcases List.mem_append.mp member with old | new
      · exact ledger.handedTallied batch old
      · rw [List.mem_singleton.mp new]
        exact ledger.pendingTallied snapshot (by simp)
    listed := by
      intro batch member
      rcases List.mem_append.mp member with old | new
      · exact ledger.listed batch old
      · rw [List.mem_singleton.mp new]
        exact snapshot.clientIDs_records timestamp newID }

theorem Ledger.release {snapshot : Snapshot}
    (ledger : Ledger calls handed pending [snapshot] active window gauge) :
    Ledger calls handed pending [] active window (gauge - snapshot.durations.keys.length) :=
  { ledger with
    gauged := by
      rw [ledger.gauged]
      simp }

/-- No call stands in the books twice. -/
theorem Ledger.nodup (ledger : Ledger calls handed pending inFlight active window gauge) :
    (accepted calls).Nodup := by
  have distinct : (calls.map Call.position).Nodup := ledger.numbered ▸ List.nodup_range
  exact distinct.of_map.filter _

end Ledger

/-- What holds of a collector between any two actions. -/
structure Conserved (collector : Collector) : Prop where
  ledger : Ledger collector.calls collector.handed collector.pending collector.inFlight
    collector.active collector.window collector.aggregationKeys
  marked : collector.closing ≠ .opened → collector.closed = true
  awaited : collector.closing.awaited = true → collector.loop = .done
  drained : collector.closing.drained = true → collector.window = []

theorem Closing.pending_of_not_awaited {closing : Closing} (early : closing.awaited = false) :
    closing.pending = [] ∧ closing.inFlight = [] := by
  cases closing <;> simp_all [Closing.awaited, Closing.pending, Closing.inFlight]

theorem Closing.awaited_of_drained {closing : Closing} (drained : closing.drained = true) :
    closing.awaited = true := by
  cases closing <;> simp_all [Closing.awaited, Closing.drained]

theorem Closing.ne_opened_of_awaited {closing : Closing} (awaited : closing.awaited = true) :
    closing ≠ .opened := by
  rintro rfl
  simp [Closing.awaited] at awaited

/-- While the loop runs, `Close` has not come to its own snapshot. -/
theorem Conserved.early {collector : Collector} (conserved : Conserved collector)
    (running : collector.loop ≠ .done) :
    collector.closing.awaited = false ∧ collector.closing.drained = false := by
  have early : collector.closing.awaited = false := by
    by_contra late
    exact running (conserved.awaited (by simpa using late))
  refine ⟨early, ?_⟩
  by_contra late
  have := Closing.awaited_of_drained (by simpa using late)
  simp [early] at this

/-- A step of the loop that moves the books along with its phase. -/
theorem Conserved.ofLoop {collector final : Collector} {loop : Loop}
    (conserved : Conserved collector) (phase : collector.loop = loop) (running : loop ≠ .done)
    (closing : final.closing = collector.closing) (closed : final.closed = collector.closed)
    (move : Ledger collector.calls collector.handed loop.pending loop.inFlight collector.active
        collector.window collector.aggregationKeys →
      Ledger final.calls final.handed final.loop.pending final.loop.inFlight final.active
        final.window final.aggregationKeys) :
    Conserved final := by
  obtain ⟨early, undrained⟩ := conserved.early (phase ▸ running)
  obtain ⟨noPending, noInFlight⟩ := Closing.pending_of_not_awaited early
  have books := conserved.ledger
  simp only [Collector.pending, Collector.inFlight, phase, noPending, noInFlight,
    List.append_nil] at books
  refine ⟨?_, ?_, ?_, ?_⟩
  · simpa [Collector.pending, Collector.inFlight, closing, noPending, noInFlight] using move books
  · simpa [closing, closed] using conserved.marked
  · simp [closing, early]
  · simp [closing, undrained]

/-- A step of `Close` that moves the books, after its wait for the loop. -/
theorem Conserved.ofClosing {collector final : Collector} {closing : Closing}
    (conserved : Conserved collector) (phase : collector.closing = closing)
    (late : closing.awaited = true) (loop : final.loop = collector.loop)
    (closed : final.closed = collector.closed) (drained : final.window = [])
    (move : Ledger collector.calls collector.handed closing.pending closing.inFlight
        collector.active collector.window collector.aggregationKeys →
      Ledger final.calls final.handed final.closing.pending final.closing.inFlight final.active
        final.window final.aggregationKeys) :
    Conserved final := by
  have done := conserved.awaited (phase ▸ late)
  have marked := conserved.marked (Closing.ne_opened_of_awaited (phase ▸ late))
  have books := conserved.ledger
  simp only [Collector.pending, Collector.inFlight, phase, done, Loop.pending, Loop.inFlight,
    List.nil_append] at books
  refine ⟨?_, fun _ => closed.trans marked, fun _ => loop.trans done, fun _ => drained⟩
  simpa [Collector.pending, Collector.inFlight, loop, done, Loop.pending, Loop.inFlight]
    using move books

theorem Conserved.newCollector : Conserved newCollector where
  ledger := Ledger.empty
  marked := by simp [Usage.newCollector]
  awaited := by simp [Usage.newCollector, Closing.awaited]
  drained := by simp [Usage.newCollector]

theorem Collector.add_closed {collector : Collector} (options : Options) (call : Call)
    (closed : collector.closed = true) :
    collector.add options call = { collector with calls := collector.calls ++ [call] } := by
  simp [Collector.add, closed]

/-- Both branches of an accepted `Record` in one form. -/
theorem Collector.add_opened {collector : Collector} (options : Options) (call : Call)
    (open_ : collector.closed = false) :
    ∃ senders, collector.add options call =
      { collector with
        calls := collector.calls ++ [call]
        active := collector.active.insert call.clientID
          ((collector.active.lookup call.clientID).getD 0 + call.duration)
        window := collector.window ++ [call]
        aggregationKeys :=
          if (collector.active.lookup call.clientID).isSome then collector.aggregationKeys
          else collector.aggregationKeys + 1
        senders } := by
  cases known : collector.active.lookup call.clientID with
  | some accumulated =>
    refine ⟨collector.senders, ?_⟩
    simp [Collector.add, open_, known]
  | none =>
    refine ⟨if options.flushThreshold ≤
      (collector.active.insert call.clientID call.duration).keys.length
      then collector.senders + 1 else collector.senders, ?_⟩
    simp [Collector.add, open_, known]

theorem Conserved.add {collector : Collector} (conserved : Conserved collector)
    (options : Options) {call : Call} (next : call.position = collector.calls.length)
    (seen : call.closed = collector.closed) : Conserved (collector.add options call) := by
  cases closed : collector.closed with
  | true =>
    rw [collector.add_closed options call closed]
    exact ⟨conserved.ledger.refuse next (seen.trans closed), conserved.marked, conserved.awaited,
      conserved.drained⟩
  | false =>
    obtain ⟨senders, same⟩ := collector.add_opened options call closed
    have opened : collector.closing = .opened := by
      by_contra late
      simp [conserved.marked late] at closed
    rw [same]
    exact ⟨conserved.ledger.accept next (seen.trans closed), conserved.marked, conserved.awaited,
      by simp [opened, Closing.drained]⟩

theorem Conserved.record {collector : Collector} (conserved : Conserved collector)
    (options : Options) (clientID : Bytes) (duration : Int) :
    Conserved (collector.record options clientID duration) := by
  unfold Collector.record
  split
  · exact conserved
  · exact conserved.add options rfl rfl

/-- `snapshot` hands out the books of the map, if there are any. -/
theorem Collector.snapshot_cases (collector : Collector) (closeCollector : Bool) :
    (collector.active.keys = [] ∧ collector.snapshot closeCollector =
      (none, { collector with closed := collector.closed || closeCollector })) ∨
    collector.snapshot closeCollector =
      (some ⟨collector.active, collector.window⟩,
        { collector with
          closed := collector.closed || closeCollector
          active := ∅
          window := [] }) := by
  unfold Collector.snapshot
  by_cases empty : collector.active.keys = [] <;> simp [empty]

theorem Conserved.stepLoop {collector final : Collector} {action : Action}
    (conserved : Conserved collector) (step : collector.stepLoop action = some final) :
    Conserved final := by
  cases action <;> simp only [Collector.stepLoop, reduceCtorEq] at step
  case tick =>
    cases phase : collector.loop <;> simp only [phase, reduceCtorEq, Option.some.injEq] at step
    subst final
    exact conserved.ofLoop phase nofun rfl rfl id
  case receiveFlush =>
    split at step <;> simp only [reduceCtorEq, Option.some.injEq] at step
    rename_i phase _
    subst final
    exact conserved.ofLoop phase nofun rfl rfl id
  case receiveStop =>
    split at step <;> simp only [reduceCtorEq, Option.some.injEq] at step
    rename_i phase _
    subst final
    exact conserved.ofLoop phase nofun rfl rfl id
  case loopSnapshot =>
    cases phase : collector.loop <;> simp only [phase, reduceCtorEq] at step
    rcases collector.snapshot_cases false with ⟨_, result⟩ | result <;>
      rw [result] at step <;> cases step
    · exact conserved.ofLoop phase nofun rfl (by simp) id
    · exact conserved.ofLoop phase nofun rfl (by simp) Ledger.swap
  case loopWrite timestamp newID =>
    cases phase : collector.loop <;> simp only [phase, reduceCtorEq, Option.some.injEq] at step
    subst final
    exact conserved.ofLoop phase nofun rfl rfl (fun books => books.hand timestamp newID)
  case loopWritten failed =>
    cases phase : collector.loop <;> simp only [phase, reduceCtorEq, Option.some.injEq] at step
    subst final
    exact conserved.ofLoop phase nofun rfl rfl Ledger.release

theorem Conserved.stepClose {collector final : Collector} {action : Action}
    (conserved : Conserved collector) (step : collector.stepClose action = some final) :
    Conserved final := by
  cases action <;> simp only [Collector.stepClose, reduceCtorEq] at step
  case close =>
    cases phase : collector.closing <;>
      simp only [phase, reduceCtorEq, Option.some.injEq] at step <;> subst final
    · have books := conserved.ledger
      rw [Collector.pending, Collector.inFlight, phase] at books
      exact ⟨books, fun _ => rfl, by simp [Closing.awaited], by simp [Closing.drained]⟩
    · exact conserved
  case closeStop =>
    cases phase : collector.closing <;> simp only [phase, reduceCtorEq, Option.some.injEq] at step
    subst final
    have books := conserved.ledger
    rw [Collector.pending, Collector.inFlight, phase] at books
    exact ⟨books, fun _ => conserved.marked (by simp [phase]), by simp [Closing.awaited],
      by simp [Closing.drained]⟩
  case closeAwait =>
    split at step <;> simp only [reduceCtorEq, Option.some.injEq] at step
    rename_i phase done
    subst final
    have books := conserved.ledger
    rw [Collector.pending, Collector.inFlight, phase] at books
    exact ⟨books, fun _ => conserved.marked (by simp [phase]), fun _ => done,
      by simp [Closing.drained]⟩
  case closeSnapshot =>
    cases phase : collector.closing <;> simp only [phase, reduceCtorEq] at step
    have marked := conserved.marked (by simp [phase])
    rcases collector.snapshot_cases true with ⟨empty, result⟩ | result <;>
      rw [result] at step <;> cases step
    · have nothing : collector.window = [] := by
        simpa [charges] using conserved.ledger.tallied.nil_of_empty empty
      exact conserved.ofClosing phase rfl rfl (by simp [marked]) nothing id
    · exact conserved.ofClosing phase rfl rfl (by simp [marked]) rfl Ledger.swap
  case closeWrite timestamp newID =>
    cases phase : collector.closing <;> simp only [phase, reduceCtorEq, Option.some.injEq] at step
    subst final
    exact conserved.ofClosing phase rfl rfl rfl (conserved.drained (by simp [phase, Closing.drained]))
      (fun books => books.hand timestamp newID)
  case closeWritten failed =>
    cases phase : collector.closing <;> simp only [phase, reduceCtorEq, Option.some.injEq] at step
    subst final
    exact conserved.ofClosing phase rfl rfl rfl (conserved.drained (by simp [phase, Closing.drained]))
      Ledger.release
  case closeProducer failed =>
    cases phase : collector.closing <;> simp only [phase, reduceCtorEq, Option.some.injEq] at step
    subst final
    exact conserved.ofClosing phase rfl rfl rfl (conserved.drained (by simp [phase, Closing.drained]))
      id

/-- What one action can do. -/
theorem Collector.step_cases {options : Options} {collector final : Collector} {action : Action}
    (step : collector.step options action = some final) :
    (∃ clientID duration, action = .record clientID duration ∧
      final = collector.record options.normalize clientID duration) ∨
    (∃ senders, action = .requestFlush ∧
      final = { collector with senders, flushNow := true }) ∨
    collector.stepLoop action = some final ∨ collector.stepClose action = some final := by
  cases action
  case record clientID duration => exact .inl ⟨clientID, duration, rfl, (Option.some.inj step).symm⟩
  case requestFlush =>
    simp only [Collector.step] at step
    split at step <;> cases step
    exact .inr (.inl ⟨_, rfl, rfl⟩)
  all_goals
    simp only [Collector.step, Option.or_eq_some_iff] at step
    exact .inr (.inr (step.imp_right And.right))

theorem Conserved.step {options : Options} {collector final : Collector} {action : Action}
    (conserved : Conserved collector) (step : collector.step options action = some final) :
    Conserved final := by
  rcases Collector.step_cases step with
    ⟨clientID, duration, _, rfl⟩ | ⟨senders, _, rfl⟩ | looped | closed
  · exact conserved.record _ clientID duration
  · exact ⟨conserved.ledger, conserved.marked, conserved.awaited, conserved.drained⟩
  · exact conserved.stepLoop looped
  · exact conserved.stepClose closed

/-- What one action asks to be accounted: a negative duration is ignored. -/
def Action.charge : Action → Option (Bytes × Int)
  | .record clientID duration => if duration < 0 then none else some (clientKey clientID, duration)
  | _ => none

def Action.isClose : Action → Bool
  | .close => true
  | _ => false

/-- The durations recorded by a schedule, under their normalised client ids. -/
def recorded (schedule : List Action) : List (Bytes × Int) := schedule.filterMap Action.charge

/-- The part of a schedule before the collector is marked closed. -/
def beforeClose (schedule : List Action) : List Action :=
  schedule.takeWhile fun action => !action.isClose

theorem beforeClose_snoc (schedule : List Action) (action : Action) :
    beforeClose (schedule ++ [action]) =
      if schedule.any Action.isClose || action.isClose then beforeClose schedule
      else schedule ++ [action] := by
  induction schedule with
  | nil => cases closes : action.isClose <;> simp [beforeClose, closes]
  | cons first rest inductionHypothesis =>
    unfold beforeClose at inductionHypothesis ⊢
    cases closes : first.isClose with
    | true => simp [closes]
    | false =>
      simp only [List.cons_append, List.takeWhile_cons, closes, Bool.not_false, if_true,
        List.any_cons, Bool.false_or, inductionHypothesis]
      split <;> rfl

theorem beforeClose_eq {schedule : List Action} (open_ : schedule.any Action.isClose = false) :
    beforeClose schedule = schedule := by
  apply List.takeWhile_eq_self_iff.mpr
  intro action member
  simpa using List.any_eq_false.mp open_ action member

/-- The log of calls agrees with the schedule that produced it. -/
structure Traced (schedule : List Action) (collector : Collector) : Prop where
  calls : charges collector.calls = recorded schedule
  accepted : charges (accepted collector.calls) = recorded (beforeClose schedule)
  closed : collector.closed = schedule.any Action.isClose

/-- The loop neither records nor closes. -/
theorem Collector.stepLoop_frame {collector final : Collector} {action : Action}
    (step : collector.stepLoop action = some final) :
    final.calls = collector.calls ∧ final.closed = collector.closed ∧ action.charge = none ∧
      action.isClose = false := by
  cases action <;> simp only [Collector.stepLoop, reduceCtorEq] at step
  case loopSnapshot =>
    cases phase : collector.loop <;> simp only [phase, reduceCtorEq] at step
    rcases collector.snapshot_cases false with ⟨_, result⟩ | result <;>
      rw [result] at step <;> cases step <;> simp [Action.charge, Action.isClose]
  all_goals
    split at step <;> cases step
    exact ⟨rfl, rfl, rfl, rfl⟩

/-- `Close` does not record, and marks the collector at its first action. -/
theorem Collector.stepClose_frame {collector final : Collector} {action : Action}
    (marked : collector.closing ≠ .opened → collector.closed = true)
    (step : collector.stepClose action = some final) :
    final.calls = collector.calls ∧ final.closed = (collector.closed || action.isClose) ∧
      action.charge = none := by
  cases action <;> simp only [Collector.stepClose, reduceCtorEq] at step
  case close =>
    cases phase : collector.closing <;>
      simp only [phase, reduceCtorEq, Option.some.injEq] at step <;> subst final
    · simp [Action.charge, Action.isClose]
    · simp [Action.charge, Action.isClose, marked (by simp [phase])]
  case closeSnapshot =>
    cases phase : collector.closing <;> simp only [phase, reduceCtorEq] at step
    have closed := marked (by simp [phase])
    rcases collector.snapshot_cases true with ⟨_, result⟩ | result <;>
      rw [result] at step <;> cases step <;> simp [Action.charge, closed]
  all_goals
    split at step <;> cases step
    exact ⟨rfl, (Bool.or_false _).symm, rfl⟩

theorem recorded_snoc (schedule : List Action) (action : Action) :
    recorded (schedule ++ [action]) = recorded schedule ++ action.charge.toList := by
  cases charge : action.charge <;> simp [recorded, charge]

/-- An action that records nothing extends the trace. -/
theorem Traced.quiet {schedule : List Action} {collector final : Collector} {action : Action}
    (traced : Traced schedule collector) (calls : final.calls = collector.calls)
    (closed : final.closed = (collector.closed || action.isClose)) (none : action.charge = none) :
    Traced (schedule ++ [action]) final where
  calls := by simp [calls, traced.calls, recorded_snoc, none]
  accepted := by
    rw [calls, traced.accepted, beforeClose_snoc]
    split
    · rfl
    · rename_i open_
      simp only [Bool.or_eq_true, not_or, Bool.not_eq_true] at open_
      simp [beforeClose_eq open_.1, recorded_snoc, none]
  closed := by simp [closed, traced.closed]

theorem Traced.add {schedule : List Action} {collector : Collector} {action : Action} {call : Call}
    (traced : Traced schedule collector) (options : Options)
    (charge : action.charge = some (call.clientID, call.duration))
    (seen : call.closed = collector.closed) (still : action.isClose = false) :
    Traced (schedule ++ [action]) (collector.add options call) := by
  have logged : (collector.add options call).calls = collector.calls ++ [call] ∧
      (collector.add options call).closed = collector.closed := by
    cases closed : collector.closed with
    | true => simp [collector.add_closed options call closed, closed]
    | false =>
      obtain ⟨senders, same⟩ := collector.add_opened options call closed
      simp [same, closed]
  refine ⟨?_, ?_, ?_⟩
  · have before := traced.calls
    simp only [charges] at before ⊢
    simp [logged.1, before, recorded_snoc, charge]
  · have before := traced.accepted
    rw [logged.1, accepted_snoc, beforeClose_snoc, still, Bool.or_false, seen, traced.closed]
    cases closed : schedule.any Action.isClose with
    | true => simpa using before
    | false =>
      rw [beforeClose_eq closed] at before
      simp only [charges] at before ⊢
      simp [before, recorded_snoc, charge]
  · rw [logged.2, traced.closed]
    simp [still]

theorem Traced.step {options : Options} {schedule : List Action} {collector final : Collector}
    {action : Action} (traced : Traced schedule collector) (conserved : Conserved collector)
    (step : collector.step options action = some final) : Traced (schedule ++ [action]) final := by
  rcases Collector.step_cases step with
    ⟨clientID, duration, rfl, rfl⟩ | ⟨senders, rfl, rfl⟩ | looped | closed
  · unfold Collector.record
    split
    · rename_i negative
      exact traced.quiet rfl (Bool.or_false _).symm (by simp [Action.charge, negative])
    · rename_i valid
      exact traced.add _ (by simp [Action.charge, valid]) rfl rfl
  · exact traced.quiet rfl (Bool.or_false _).symm rfl
  · obtain ⟨calls, closed, none, still⟩ := Collector.stepLoop_frame looped
    exact traced.quiet calls (by simp [closed, still]) none
  · obtain ⟨calls, closed, none⟩ := Collector.stepClose_frame conserved.marked closed
    exact traced.quiet calls closed none

/-- The books are in order, and agree with the schedule, in every state of every run. -/
theorem Collector.run_conserved {options : Options} {schedule : List Action}
    {collector : Collector}
    (run : exec (Collector.step options) newCollector schedule = some collector) :
    Conserved collector ∧ Traced schedule collector := by
  refine exec_induction (motive := fun schedule collector =>
    Conserved collector ∧ Traced schedule collector) ?_ ?_ run
  · exact ⟨Conserved.newCollector, ⟨rfl, rfl, rfl⟩⟩
  · intro schedule collector action final _ ⟨conserved, traced⟩ step
    exact ⟨conserved.step step, traced.step conserved step⟩

/-- Once `Close` has returned, the handed windows are the accepted calls. -/
theorem Conserved.handed_windows {collector : Collector} (conserved : Conserved collector)
    (returned : collector.closing = .returned closeErr) :
    collector.handed.flatMap (fun batch => batch.window) = accepted collector.calls := by
  have done := conserved.awaited (by simp [returned, Closing.awaited])
  have drained := conserved.drained (by simp [returned, Closing.drained])
  have partition := conserved.ledger.partition
  simpa [Collector.pending, returned, done, drained, Loop.pending, Closing.pending] using partition

/-- Usage conservation, over every interleaving of the collector's actions. -/
theorem Collector.usage_conserved {options : Options} {schedule : List Action}
    {collector : Collector}
    (run : exec (Collector.step options) newCollector schedule = some collector) :
    charges collector.calls = recorded schedule ∧
    charges (accepted collector.calls) = recorded (beforeClose schedule) ∧
    (∀ closeErr, collector.closing = .returned closeErr →
      (∀ call ∈ collector.calls,
        (call.closed = false → ∃! index : Nat, ∃ batch, collector.handed[index]? = some batch ∧
          call ∈ batch.window) ∧
        (call.closed = true → ∀ batch ∈ collector.handed, call ∉ batch.window)) ∧
      ∀ clientID,
        (collector.handed.map fun batch => (batch.durations.lookup clientID).getD 0).sum =
          total clientID (recorded (beforeClose schedule))) ∧
    (∀ batch ∈ collector.handed, Tallies batch.durations (charges batch.window) ∧
      batch.records.map Record.clientID = batch.durations.keys ∧
      (batch.records.map Record.clientID).Nodup) ∧
    collector.aggregationKeys = collector.active.keys.length +
      (collector.inFlight.map fun snapshot => (snapshot.durations.keys.length : Int)).sum := by
  obtain ⟨conserved, traced⟩ := Collector.run_conserved run
  refine ⟨traced.calls, traced.accepted, ?_, ?_, conserved.ledger.gauged⟩
  · intro closeErr returned
    have windows := conserved.handed_windows returned
    refine ⟨fun call member => ⟨fun open_ => ?_, fun closed batch handed inside => ?_⟩, ?_⟩
    · apply existsUnique_block
      · rw [windows]
        exact conserved.ledger.nodup
      · rw [windows]
        simpa [accepted, open_] using member
    · have taken : call ∈ accepted collector.calls :=
        windows ▸ List.mem_flatMap.mpr ⟨batch, handed, inside⟩
      simp [accepted, closed] at taken
    · intro clientID
      have sums : (collector.handed.map fun batch => (batch.durations.lookup clientID).getD 0) =
          collector.handed.map fun batch => total clientID (charges batch.window) :=
        List.map_congr_left fun batch member =>
          (conserved.ledger.handedTallied batch member).getD clientID
      rw [sums, ← total_flatMap clientID (fun batch : Batch => charges batch.window), ← traced.accepted,
        ← windows]
      simp only [charges, List.map_flatMap]
  · intro batch member
    refine ⟨conserved.ledger.handedTallied batch member, conserved.ledger.listed batch member, ?_⟩
    rw [conserved.ledger.listed batch member]
    exact batch.durations.nodupKeys

/-- A flush that fails while another duration is recorded, a call after the mark, and
the final snapshot. -/
def sampleSchedule : List Action :=
  [.record (ascii " a ") 5, .tick, .loopSnapshot, .loopWrite 0 id, .record (ascii "a") 7,
    .loopWritten true, .close, .record (ascii "a") 3, .closeStop, .receiveStop, .closeAwait,
    .closeSnapshot, .closeWrite 1 id, .closeWritten false, .closeProducer false]

theorem Collector.usage_conserved_sample :
    ∃ collector, exec (Collector.step ⟨2⟩) newCollector sampleSchedule = some collector ∧
      collector.closing = .returned false ∧
      (collector.handed.map fun batch => (batch.durations.lookup (ascii "a")).getD 0).sum = 12 := by
  obtain ⟨collector, run, returned⟩ : ∃ collector,
      exec (Collector.step ⟨2⟩) newCollector sampleSchedule = some collector ∧
        collector.closing = .returned false := ⟨_, rfl, rfl⟩
  refine ⟨collector, run, returned, ?_⟩
  rw [((Collector.usage_conserved run).2.2.1 false returned).2 (ascii "a")]
  decide +kernel

end NodexProxy.Usage
