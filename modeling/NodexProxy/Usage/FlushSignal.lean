import NodexProxy.Usage.Conservation

/-! The flush that `Record` asks for when the map has grown to the threshold is never lost: the
signal may be dropped, or be consumed for another flush, but then that flush takes the map. -/

namespace NodexProxy.Usage

open NodexProxy.Foundation

/-- The map holds as many keys as make `Record` ask for a flush. -/
def Collector.Crowded (options : Options) (collector : Collector) : Prop :=
  options.normalize.flushThreshold ≤ collector.active.keys.length

/-- A flush is on its way: its token is in the channel, a `Record` call is about to send one, or
the loop has taken an event and not yet the map. -/
inductive Collector.Signalled (collector : Collector) : Prop
  | token (held : collector.flushNow = true)
  | sending (left : 0 < collector.senders)
  | taking (flushing : collector.loop = .flushing)

/-- A threshold that `newCollector` accepts is positive, so an empty map is not crowded. -/
theorem Options.normalize_pos (options : Options) : 0 < options.normalize.flushThreshold := by
  unfold Options.normalize
  split
  · decide
  · omega

theorem Collector.not_crowded_of_empty {collector : Collector} (options : Options)
    (empty : collector.active.keys = []) : ¬collector.Crowded options := by
  have positive := options.normalize_pos
  simp only [Collector.Crowded, empty, List.length_nil, Nat.cast_zero]
  omega

/-- No threshold flush is lost in this state. -/
def Collector.Attended (options : Options) (collector : Collector) : Prop :=
  collector.Crowded options → collector.Signalled

/-- A step that leaves the map, the channel, the senders and the loop alone. -/
theorem Collector.Attended.frame {options : Options} {collector final : Collector}
    (attended : collector.Attended options) (active : final.active = collector.active)
    (flushNow : final.flushNow = collector.flushNow) (senders : final.senders = collector.senders)
    (loop : collector.loop = .flushing → final.loop = .flushing) : final.Attended options := by
  intro crowded
  rw [Collector.Crowded, active] at crowded
  cases attended crowded with
  | token held => exact .token (flushNow.trans held)
  | sending left => exact .sending (senders ▸ left)
  | taking flushing => exact .taking (loop flushing)

/-- A new key that fills the map to the threshold leaves its caller about to send. -/
theorem Collector.Attended.add {options : Options} {collector : Collector}
    (attended : collector.Attended options) (call : Call) :
    (collector.add options.normalize call).Attended options := by
  cases closed : collector.closed with
  | true =>
    rw [collector.add_closed _ call closed]
    exact attended.frame rfl rfl rfl id
  | false =>
    intro crowded
    cases known : collector.active.lookup call.clientID with
    | some accumulated =>
      simp only [Collector.add, closed, known, Bool.false_eq_true, if_false] at crowded ⊢
      -- the map has the keys it had, so the flush on its way is the one it had
      rw [Collector.Crowded, Assoc.length_keys_insert, known] at crowded
      cases attended crowded with
      | token held => exact .token held
      | sending left => exact .sending left
      | taking flushing => exact .taking flushing
    | none =>
      simp only [Collector.add, closed, known, Bool.false_eq_true, if_false] at crowded ⊢
      exact .sending (Nat.lt_of_lt_of_eq (Nat.succ_pos _) (if_pos crowded).symm)

theorem Collector.Attended.stepLoop {options : Options} {collector final : Collector}
    {action : Action} (attended : collector.Attended options)
    (step : collector.stepLoop action = some final) : final.Attended options := by
  cases action <;> simp only [Collector.stepLoop, reduceCtorEq] at step
  case tick =>
    split at step <;> cases step
    exact fun _ => .taking rfl
  case receiveFlush =>
    split at step <;> cases step
    exact fun _ => .taking rfl
  case receiveStop =>
    split at step <;> cases step
    rename_i phase _
    exact attended.frame rfl rfl rfl fun flushing => by rw [phase] at flushing; cases flushing
  case loopSnapshot =>
    -- the map is empty afterwards, whether it was swapped or had nothing to swap
    cases phase : collector.loop <;> simp only [phase, reduceCtorEq] at step
    rcases collector.snapshot_cases false with ⟨empty, result⟩ | result <;>
      rw [result] at step <;> cases step
    · exact fun crowded => absurd crowded (Collector.not_crowded_of_empty options empty)
    · exact fun crowded => absurd crowded (Collector.not_crowded_of_empty options rfl)
  case loopWrite timestamp newID =>
    split at step <;> cases step
    rename_i phase
    exact attended.frame rfl rfl rfl fun flushing => by rw [phase] at flushing; cases flushing
  case loopWritten failed =>
    split at step <;> cases step
    rename_i phase
    exact attended.frame rfl rfl rfl fun flushing => by rw [phase] at flushing; cases flushing

theorem Collector.Attended.stepClose {options : Options} {collector final : Collector}
    {action : Action} (attended : collector.Attended options)
    (step : collector.stepClose action = some final) : final.Attended options := by
  cases action <;> simp only [Collector.stepClose, reduceCtorEq] at step
  case close =>
    split at step <;> cases step
    · exact attended.frame rfl rfl rfl id
    · exact attended
  case closeSnapshot =>
    cases phase : collector.closing <;> simp only [phase, reduceCtorEq] at step
    rcases collector.snapshot_cases true with ⟨empty, result⟩ | result <;>
      rw [result] at step <;> cases step
    · exact fun crowded => absurd crowded (Collector.not_crowded_of_empty options empty)
    · exact fun crowded => absurd crowded (Collector.not_crowded_of_empty options rfl)
  all_goals
    split at step <;> cases step
    exact attended.frame rfl rfl rfl id

theorem Collector.Attended.step {options : Options} {collector final : Collector} {action : Action}
    (attended : collector.Attended options) (step : collector.step options action = some final) :
    final.Attended options := by
  rcases Collector.step_cases step with
    ⟨clientID, duration, -, rfl⟩ | ⟨senders, -, rfl⟩ | looped | closed
  · unfold Collector.record
    split
    · exact attended
    · exact attended.add _
  · exact fun _ => .token rfl
  · exact attended.stepLoop looped
  · exact attended.stepClose closed

/-- However calls, ticks, flushes, writes and `Close` interleave: where the map has reached the
threshold, a flush is on its way. -/
theorem Collector.threshold_flush_not_lost {options : Options} {schedule : List Action}
    {collector : Collector}
    (run : exec (Collector.step options) newCollector schedule = some collector)
    (crowded : options.normalize.flushThreshold ≤ collector.active.keys.length) :
    collector.flushNow = true ∨ 0 < collector.senders ∨ collector.loop = .flushing := by
  have attended : collector.Attended options :=
    exec_invariant (fun crowded => absurd crowded (Collector.not_crowded_of_empty options rfl))
      (fun _ _ _ attended step => attended.step step) run
  cases attended crowded with
  | token held => exact .inl held
  | sending left => exact .inr (.inl left)
  | taking flushing => exact .inr (.inr flushing)

/-- A signal sent after its keys were taken stays in the channel while the map fills again, and the
next one is dropped. -/
def refillSchedule : List Action :=
  [.record (ascii "a") 1, .tick, .record (ascii "b") 1, .loopSnapshot, .requestFlush,
    .loopWrite 0 id, .record (ascii "a") 1, .record (ascii "b") 1, .requestFlush]

theorem Collector.threshold_flush_not_lost_refill :
    ∃ collector, exec (Collector.step ⟨2⟩) newCollector refillSchedule = some collector ∧
      (collector.flushNow = true ∨ 0 < collector.senders ∨ collector.loop = .flushing) := by
  obtain ⟨collector, run, crowded⟩ : ∃ collector,
      exec (Collector.step ⟨2⟩) newCollector refillSchedule = some collector ∧
        (Options.normalize ⟨2⟩).flushThreshold ≤ collector.active.keys.length :=
    ⟨_, rfl, by decide⟩
  exact ⟨collector, run, Collector.threshold_flush_not_lost run crowded⟩

end NodexProxy.Usage
