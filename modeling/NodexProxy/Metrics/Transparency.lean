import NodexProxy.Foundation.Tally
import NodexProxy.Metrics.Bound

/-! The handle cache changes nothing that prometheus exposes, and stays within its limit. -/

namespace NodexProxy.Metrics

open NodexProxy.Foundation

variable {valid : List Bytes → Bool}

/-- The handles are unbound or stand for the series of the key. -/
structure MethodHandles.Bound (valid : List Bytes → Bool) (handles : MethodHandles)
    (key : MethodMetricKey) : Prop where
  bound : ∀ metric series, handles.handle metric = .bound series →
    series = key.series metric ∧ valid series.labels = true
  failed : ∀ metric, handles.handle metric = .nil → valid (key.series metric).labels = false
  status : ∀ statusCode series, handles.httpStatuses.lookup statusCode = some series →
    series = key.httpStatus statusCode ∧ valid series.labels = true

theorem MethodHandles.Bound.new (key : MethodMetricKey) : MethodHandles.new.Bound valid key where
  bound := by simp [MethodHandles.new]
  failed := by simp [MethodHandles.new]
  status := by simp [MethodHandles.new]

section Record

variable {handles : MethodHandles} {key : MethodMetricKey}

/-- A recorder on bound handles does what the recorder on the vector does. -/
theorem MethodHandles.Bound.record_result (bound : handles.Bound valid key)
    (exposition : Exposition) (recorder : Recorder) :
    (handles.record valid exposition key recorder).2 =
      recordDirect valid exposition key recorder := by
  unfold MethodHandles.record recordDirect MethodMetricKey.seriesOf
  cases recorder.slot with
  | inl metric =>
    cases state : handles.handle metric with
    | unbound =>
      by_cases accepted : valid (key.series metric).labels <;>
        simp [recordHandle, state, accepted]
    | bound series =>
      obtain ⟨rfl, accepted⟩ := bound.bound metric series state
      simp [recordHandle, state, accepted]
    | nil => simp [recordHandle, state, bound.failed metric state]
  | inr statusCode =>
    cases stored : handles.httpStatuses.lookup statusCode with
    | some series =>
      obtain ⟨rfl, accepted⟩ := bound.status statusCode series stored
      simp [stored, accepted]
    | none =>
      by_cases accepted : valid (key.httpStatus statusCode).labels <;> simp [stored, accepted]

theorem recordHandle_bound (bound : ∀ series, handle = .bound series →
      series = wanted ∧ valid series.labels = true)
    (exposition : Exposition) (sample : Int) :
    ∀ series, (recordHandle valid exposition handle wanted sample).1 = .bound series →
      series = wanted ∧ valid series.labels = true := by
  intro series after
  cases handle with
  | unbound =>
    by_cases accepted : valid wanted.labels <;> simp [recordHandle, accepted] at after
    subst series
    exact ⟨rfl, accepted⟩
  | bound old =>
    cases after
    exact bound series rfl
  | nil => cases after

theorem recordHandle_failed (failed : handle = .nil → valid wanted.labels = false)
    (exposition : Exposition) (sample : Int)
    (after : (recordHandle valid exposition handle wanted sample).1 = .nil) :
    valid wanted.labels = false := by
  cases handle with
  | unbound =>
    by_cases accepted : valid wanted.labels <;> simp [recordHandle, accepted] at after
    simpa using accepted
  | bound old => cases after
  | nil => exact failed rfl

/-- A recorder keeps the handles bound to their key. -/
theorem MethodHandles.Bound.record (bound : handles.Bound valid key) (exposition : Exposition)
    (recorder : Recorder) : (handles.record valid exposition key recorder).1.Bound valid key := by
  unfold MethodHandles.record
  cases recorder.slot with
  | inl metric =>
    refine ⟨fun other series after => ?_, fun other after => ?_, bound.status⟩
    · by_cases same : other = metric
      · subst other
        simp only [Function.update_self] at after
        exact recordHandle_bound (bound.bound metric) exposition recorder.sample series after
      · simp only [Function.update_of_ne same] at after
        exact bound.bound other series after
    · by_cases same : other = metric
      · subst other
        simp only [Function.update_self] at after
        exact recordHandle_failed (bound.failed metric) exposition recorder.sample after
      · simp only [Function.update_of_ne same] at after
        exact bound.failed other after
  | inr statusCode =>
    dsimp only
    split
    · exact bound
    · split
      · rename_i accepted
        refine ⟨bound.bound, bound.failed, fun other series after => ?_⟩
        rcases Assoc.lookup_insert_cases after with ⟨same, rfl⟩ | ⟨_, old⟩
        · exact ⟨by rw [same], accepted⟩
        · exact bound.status other series old
      · exact bound

end Record

/-- The exposition after recording calls directly through the vectors. -/
def directly (valid : List Bytes → Bool) (calls : List (MethodMetricKey × Recorder)) : Exposition :=
  calls.foldl (fun exposition call =>
    (recordDirect valid exposition call.1 call.2).getD exposition) ∅

theorem directly_snoc (calls : List (MethodMetricKey × Recorder)) (key : MethodMetricKey)
    (recorder : Recorder) :
    directly valid (calls ++ [(key, recorder)]) =
      (recordDirect valid (directly valid calls) key recorder).getD (directly valid calls) := by
  simp [directly]

/-- Recording creates only the series it records to. -/
theorem touched_of_directly {calls : List (MethodMetricKey × Recorder)} {series : Series}
    (exists_ : (directly valid calls).lookup series ≠ none) :
    ∃ call ∈ calls, call.1.seriesOf call.2 = series := by
  induction calls using List.reverseRecOn with
  | nil => simp [directly] at exists_
  | append_singleton calls call inductionHypothesis =>
    obtain ⟨key, recorder⟩ := call
    by_cases same : key.seriesOf recorder = series
    · exact ⟨(key, recorder), by simp, same⟩
    · have before : (directly valid calls).lookup series ≠ none := by
        rw [directly_snoc] at exists_
        unfold recordDirect at exists_
        dsimp only at exists_
        split at exists_
        · simpa [observe, Assoc.lookup_insert_eq, Ne.symm same] using exists_
        · exact exists_
      obtain ⟨touched, member, found⟩ := inductionHypothesis before
      exact ⟨touched, List.mem_append_left _ member, found⟩

/-- What holds of the registry between any two actions. -/
structure Registry.Sound (valid : List Bytes → Bool) (limit : Int) (registry : Registry) : Prop where
  counted : (registry.entries.keys.length : Int) = registry.size
  bounded : registry.size ≤ max limit 0
  saturated : registry.full = true → limit ≤ registry.size
  small : ∀ key address, registry.entries.lookup key = some address → key.oversized = false
  bound : ∀ key address, registry.entries.lookup key = some address →
    ∃ object, registry.objects[address]? = some object ∧ object.Bound valid key
  separate : ∀ key other address, registry.entries.lookup key = some address →
    registry.entries.lookup other = some address → key = other
  pending : ∀ caller ∈ registry.callers, (∀ result, caller.stage ≠ .returned result) →
    caller.key.oversized = false
  answered : ∀ caller ∈ registry.callers, ∀ address, caller.stage = .returned (some address) →
    registry.entries.lookup caller.key = some address
  exposed : registry.exposition = directly valid registry.calls
  logged : registry.panics =
    registry.calls.map fun call => !valid (call.1.seriesOf call.2).labels

section Step

variable {limit : Int} {registry : Registry}

theorem Registry.Sound.new : Registry.new.Sound valid limit where
  counted := rfl
  bounded := le_max_right _ _
  saturated := by simp [Registry.new]
  small := by simp [Registry.new]
  bound := by simp [Registry.new]
  separate := by simp [Registry.new]
  pending := by simp [Registry.new]
  answered := by simp [Registry.new]
  exposed := rfl
  logged := rfl

/-- A caller moves on; one that is given handles is given those of its key. -/
theorem Registry.Sound.setStage (sound : registry.Sound valid limit) {caller : Caller}
    (small : (∀ result, stage ≠ .returned result) → caller.key.oversized = false)
    (answer : ∀ address, stage = .returned (some address) →
      registry.entries.lookup caller.key = some address) (index : Nat) :
    (registry.setStage index caller stage).Sound valid limit :=
  { sound with
    pending := by
      intro other member unanswered
      rcases List.mem_or_eq_of_mem_set member with old | rfl
      · exact sound.pending other old unanswered
      · exact small unanswered
    answered := by
      intro other member address returned
      rcases List.mem_or_eq_of_mem_set member with old | rfl
      · exact sound.answered other old address returned
      · exact answer address returned }

/-- The locked section finds the key, finds the cache full, or admits the key. -/
theorem Registry.enter_cases (registry : Registry) (limit : Int) (key : MethodMetricKey) :
    (∃ existing, registry.entries.lookup key = some existing ∧
      registry.enter limit key = (registry, some existing)) ∨
    (limit ≤ registry.size ∧ registry.enter limit key = ({ registry with full := true }, none)) ∨
    (registry.entries.lookup key = none ∧ registry.size < limit ∧
      registry.enter limit key =
        ({ registry with
            entries := registry.entries.insert key registry.objects.length
            size := registry.size + 1
            objects := registry.objects ++ [.new] }, some registry.objects.length)) := by
  unfold Registry.enter
  cases found : registry.entries.lookup key with
  | some existing => exact .inl ⟨existing, rfl, rfl⟩
  | none =>
    by_cases room : limit ≤ registry.size
    · exact .inr (.inl ⟨room, by simp [room]⟩)
    · exact .inr (.inr ⟨rfl, by omega, by simp [room]⟩)

/-- The locked section keeps every admitted key. -/
theorem Registry.lookup_enter (registry : Registry) (limit : Int) (key : MethodMetricKey)
    (admitted : registry.entries.lookup other = some address) :
    (registry.enter limit key).1.entries.lookup other = some address := by
  rcases registry.enter_cases limit key with ⟨_, _, same⟩ | ⟨_, same⟩ | ⟨absent, _, same⟩ <;>
    rw [same]
  · exact admitted
  · exact admitted
  · have different : other ≠ key := by
      rintro rfl
      simp [absent] at admitted
    simpa [Assoc.lookup_insert_eq, different] using admitted

theorem Registry.lookup_enter_self (registry : Registry) (limit : Int) (key : MethodMetricKey)
    (given : (registry.enter limit key).2 = some address) :
    (registry.enter limit key).1.entries.lookup key = some address := by
  rcases registry.enter_cases limit key with ⟨existing, found, same⟩ | ⟨_, same⟩ | ⟨_, _, same⟩ <;>
    rw [same] at given ⊢ <;> cases given
  · exact found
  · simp

theorem Registry.Sound.lookup_lt (sound : registry.Sound valid limit)
    (admitted : registry.entries.lookup key = some address) : address < registry.objects.length := by
  obtain ⟨object, found, _⟩ := sound.bound key address admitted
  exact (List.getElem?_eq_some_iff.mp found).1

theorem Registry.Sound.enter (sound : registry.Sound valid limit) {key : MethodMetricKey}
    (small : key.oversized = false) : (registry.enter limit key).1.Sound valid limit := by
  rcases registry.enter_cases limit key with ⟨_, _, same⟩ | ⟨full, same⟩ | ⟨absent, room, same⟩ <;>
    rw [same]
  · exact sound
  · exact { sound with saturated := fun _ => full }
  · -- the new object stands at an address no admitted key has
    refine { sound with
      counted := ?_, bounded := ?_, saturated := ?_, small := ?_, bound := ?_, separate := ?_,
      answered := ?_ }
    · have grown := Assoc.length_keys_insert registry.entries key registry.objects.length
      rw [absent] at grown
      have counted := sound.counted
      simp only [Option.isSome_none, Bool.false_eq_true, if_false] at grown
      simp only [grown]
      push_cast
      omega
    · have bounded := sound.bounded
      simp only
      omega
    · intro full
      have saturated := sound.saturated full
      omega
    · intro other found stored
      rcases Assoc.lookup_insert_cases stored with ⟨rfl, _⟩ | ⟨_, old⟩
      · exact small
      · exact sound.small other found old
    · intro other found stored
      rcases Assoc.lookup_insert_cases stored with ⟨rfl, rfl⟩ | ⟨_, old⟩
      · exact ⟨.new, by simp, MethodHandles.Bound.new other⟩
      · obtain ⟨object, held, bound⟩ := sound.bound other found old
        exact ⟨object, by simp [List.getElem?_append_left (sound.lookup_lt old), held], bound⟩
    · intro first second found stored stored'
      rcases Assoc.lookup_insert_cases stored with ⟨rfl, rfl⟩ | ⟨_, old⟩ <;>
        rcases Assoc.lookup_insert_cases stored' with ⟨rfl, last⟩ | ⟨_, old'⟩
      · rfl
      · exact absurd (sound.lookup_lt old') (lt_irrefl _)
      · exact absurd (last ▸ sound.lookup_lt old) (lt_irrefl _)
      · exact sound.separate first second found old old'
    · intro caller member found returned
      have old := sound.answered caller member found returned
      have different : caller.key ≠ key := by
        intro equal
        rw [equal, absent] at old
        cases old
      simpa [Assoc.lookup_insert_eq, different] using old

/-- A recording call, cached or not, exposes what the direct one does. -/
theorem Registry.Sound.record (sound : registry.Sound valid limit) {caller : Caller}
    (member : caller ∈ registry.callers) (returned : caller.stage = .returned handles)
    (recorder : Recorder) :
    (registry.record valid caller.key handles recorder).Sound valid limit := by
  have exposed : ∀ result, result = recordDirect valid registry.exposition caller.key recorder →
      result.getD registry.exposition =
        directly valid (registry.calls ++ [(caller.key, recorder)]) := by
    rintro result rfl
    rw [directly_snoc, ← sound.exposed]
  have logged : ∀ result, result = recordDirect valid registry.exposition caller.key recorder →
      registry.panics ++ [result.isNone] = (registry.calls ++ [(caller.key, recorder)]).map
        fun call => !valid (call.1.seriesOf call.2).labels := by
    rintro result rfl
    rw [sound.logged, List.map_append]
    unfold recordDirect
    cases accepted : valid (caller.key.seriesOf recorder).labels <;> simp [accepted]
  cases handles with
  | none => exact { sound with exposed := exposed _ rfl, logged := logged _ rfl }
  | some address =>
    have admitted := sound.answered caller member address returned
    obtain ⟨object, held, bound⟩ := sound.bound caller.key address admitted
    have result := bound.record_result registry.exposition recorder
    simp only [Registry.record, held]
    refine { sound with exposed := exposed _ result, logged := logged _ result, bound := ?_ }
    intro key other stored
    obtain ⟨object', held', bound'⟩ := sound.bound key other stored
    by_cases same : other = address
    · subst other
      have sameKey := sound.separate key caller.key address stored admitted
      subst sameKey
      refine ⟨_, ?_, bound.record registry.exposition recorder⟩
      simp [(List.getElem?_eq_some_iff.mp held).1]
    · exact ⟨object', by simp [List.getElem?_set_ne (Ne.symm same), held'], bound'⟩

theorem Registry.Sound.call (sound : registry.Sound valid limit) (key : MethodMetricKey) :
    ({ registry with callers := registry.callers ++
      [⟨key, if key.oversized then .returned none else .looking⟩] } : Registry).Sound valid limit :=
  { sound with
    pending := by
      intro caller member unanswered
      rcases List.mem_append.mp member with old | new
      · exact sound.pending caller old unanswered
      · rw [List.mem_singleton.mp new] at unanswered ⊢
        by_contra large
        exact unanswered none (by simp_all)
    answered := by
      intro caller member address returned
      rcases List.mem_append.mp member with old | new
      · exact sound.answered caller old address returned
      · rw [List.mem_singleton.mp new] at returned
        simp only at returned
        split at returned <;> cases returned }

/-- What one action does. -/
theorem Registry.step_cases {final : Registry} {action : Action}
    (step : registry.step valid limit action = some final) :
    (∃ key, action = .call key ∧ final = { registry with callers := registry.callers ++
      [⟨key, if key.oversized then .returned none else .looking⟩] }) ∨
    ∃ index caller, registry.callers[index]? = some caller ∧
      ((caller.stage = .looking ∧ final = registry.setStage index caller
          (match registry.entries.lookup caller.key with
            | some existing => .returned (some existing)
            | none => .missed)) ∨
       (caller.stage = .missed ∧ final = registry.setStage index caller
          (if registry.full then .returned none else .locking)) ∨
       (caller.stage = .locking ∧ final = (registry.enter limit caller.key).1.setStage index caller
          (.returned (registry.enter limit caller.key).2)) ∨
       ∃ handles recorder, caller.stage = .returned handles ∧
         final = registry.record valid caller.key handles recorder) := by
  cases action with
  | call key => exact .inl ⟨key, rfl, (Option.some.inj step).symm⟩
  | load index =>
    obtain ⟨caller, found, step⟩ := Option.bind_eq_some_iff.mp step
    refine .inr ⟨index, caller, found, .inl ?_⟩
    cases stage : caller.stage <;> simp only [stage, reduceCtorEq] at step
    cases stored : registry.entries.lookup caller.key <;> simp only [stored] at step <;>
      cases step <;> exact ⟨rfl, rfl⟩
  | readFull index =>
    obtain ⟨caller, found, step⟩ := Option.bind_eq_some_iff.mp step
    refine .inr ⟨index, caller, found, .inr (.inl ?_)⟩
    cases stage : caller.stage <;> simp only [stage, reduceCtorEq] at step
    cases step
    exact ⟨rfl, rfl⟩
  | lock index =>
    obtain ⟨caller, found, step⟩ := Option.bind_eq_some_iff.mp step
    refine .inr ⟨index, caller, found, .inr (.inr (.inl ?_))⟩
    cases stage : caller.stage <;> simp only [stage, reduceCtorEq] at step
    cases step
    exact ⟨rfl, rfl⟩
  | record index recorder =>
    obtain ⟨caller, found, step⟩ := Option.bind_eq_some_iff.mp step
    refine .inr ⟨index, caller, found, .inr (.inr (.inr ?_))⟩
    cases stage : caller.stage <;> simp only [stage, reduceCtorEq] at step
    cases step
    exact ⟨_, recorder, rfl, rfl⟩

theorem Registry.Sound.step {final : Registry} {action : Action}
    (sound : registry.Sound valid limit) (step : registry.step valid limit action = some final) :
    final.Sound valid limit := by
  rcases Registry.step_cases step with ⟨key, _, rfl⟩ | ⟨index, caller, found, moves⟩
  · exact sound.call key
  have member := List.mem_of_getElem? found
  rcases moves with ⟨stage, rfl⟩ | ⟨stage, rfl⟩ | ⟨stage, rfl⟩ | ⟨handles, recorder, stage, rfl⟩
  · have small := sound.pending caller member (by simp [stage])
    refine sound.setStage (fun _ => small) (fun address returned => ?_) index
    cases stored : registry.entries.lookup caller.key <;> simp [stored] at returned
    exact congrArg some returned
  · have small := sound.pending caller member (by simp [stage])
    refine sound.setStage (fun _ => small) (fun address returned => ?_) index
    split at returned <;> cases returned
  · have small := sound.pending caller member (by simp [stage])
    refine (sound.enter small).setStage (fun _ => small) (fun address returned => ?_) index
    simp only [Stage.returned.injEq] at returned
    exact registry.lookup_enter_self limit caller.key returned
  · exact sound.record member stage recorder

theorem Registry.record_frame (registry : Registry) (key : MethodMetricKey)
    (handles : Option Nat) (recorder : Recorder) :
    (registry.record valid key handles recorder).entries = registry.entries ∧
      (registry.record valid key handles recorder).callers = registry.callers := by
  unfold Registry.record
  dsimp only
  split
  · exact ⟨rfl, rfl⟩
  · split <;> exact ⟨rfl, rfl⟩

theorem Registry.callers_enter (registry : Registry) (limit : Int) (key : MethodMetricKey) :
    (registry.enter limit key).1.callers = registry.callers := by
  rcases registry.enter_cases limit key with ⟨_, _, same⟩ | ⟨_, same⟩ | ⟨_, _, same⟩ <;> rw [same]

/-- The key is admitted, and callers from `start` on have not looked yet or got its handles. -/
structure Registry.Settled (registry : Registry) (start : Nat) (key : MethodMetricKey)
    (address : Nat) : Prop where
  admitted : registry.entries.lookup key = some address
  later : ∀ index caller, start ≤ index → registry.callers[index]? = some caller →
    caller.key = key → caller.stage = .looking ∨ caller.stage = .returned (some address)

theorem Registry.Settled.setStage (settled : registry.Settled start key address)
    {index : Nat} {caller : Caller}
    (next : start ≤ index → caller.key = key →
      stage = .looking ∨ stage = .returned (some address)) :
    (registry.setStage index caller stage).Settled start key address where
  admitted := settled.admitted
  later := by
    intro position other late at_ own
    simp only [Registry.setStage] at at_
    by_cases same : index = position
    · subst position
      rw [List.getElem?_set_self'] at at_
      obtain ⟨_, _, rfl⟩ := Option.map_eq_some_iff.mp at_
      exact next late own
    · rw [List.getElem?_set_ne same] at at_
      exact settled.later position other late at_ own

theorem Registry.Settled.step {final : Registry} {action : Action}
    (settled : registry.Settled start key address) (small : key.oversized = false)
    (step : registry.step valid limit action = some final) : final.Settled start key address := by
  rcases Registry.step_cases step with ⟨other, _, rfl⟩ | ⟨index, caller, found, moves⟩
  · refine ⟨settled.admitted, fun position caller late at_ own => ?_⟩
    rw [List.getElem?_append] at at_
    split at at_
    · exact settled.later position caller late at_ own
    · obtain ⟨_, same⟩ := List.getElem?_eq_some_iff.mp at_
      simp only [List.getElem_singleton] at same
      subst caller
      simp only at own
      subst other
      simp [small]
  have stays : start ≤ index → caller.key = key →
      caller.stage = .looking ∨ caller.stage = .returned (some address) :=
    fun late own => settled.later index caller late found own
  rcases moves with ⟨stage, rfl⟩ | ⟨stage, rfl⟩ | ⟨stage, rfl⟩ | ⟨handles, recorder, stage, rfl⟩
  · refine settled.setStage fun _ own => .inr ?_
    rw [own, settled.admitted]
  · refine settled.setStage fun late own => ?_
    have impossible := stays late own
    simp [stage] at impossible
  · have kept : (registry.enter limit caller.key).1.Settled start key address :=
      ⟨registry.lookup_enter limit caller.key settled.admitted, by
        rw [Registry.callers_enter]
        exact settled.later⟩
    refine kept.setStage fun late own => ?_
    have impossible := stays late own
    simp [stage] at impossible
  · obtain ⟨entries, callers⟩ := @Registry.record_frame valid registry caller.key handles recorder
    exact ⟨entries ▸ settled.admitted, callers ▸ settled.later⟩

end Step

theorem Registry.run_sound {limit : Int} {schedule : List Action} {final : Registry}
    (run : exec (Registry.step valid limit) .new schedule = some final) :
    final.Sound valid limit :=
  exec_invariant Registry.Sound.new (fun _ _ _ sound step => sound.step step) run

/-- An admitted key keeps its handles, and every call that begins later returns them. -/
theorem Registry.run_settled {limit : Int} {second : List Action} {middle final : Registry}
    (sound : middle.Sound valid limit)
    (run : exec (Registry.step valid limit) middle second = some final)
    (admitted : middle.entries.lookup key = some address) :
    final.Settled middle.callers.length key address := by
  refine exec_invariant (motive := fun registry =>
    registry.Settled middle.callers.length key address) ?_ (fun _ _ _ settled step =>
    settled.step (sound.small key address admitted) step) run
  refine ⟨admitted, fun index caller late at_ => ?_⟩
  rw [List.getElem?_eq_none late] at at_
  cases at_

/-- The cache is bounded, an admitted key keeps its handles, and what prometheus exposes is
what the same recording calls expose without it. -/
theorem Registry.bounded_and_transparent (valid : List Bytes → Bool) (limit : Int)
    {schedule : List Action} {final : Registry}
    (run : exec (Registry.step valid limit) .new schedule = some final) :
    ((final.entries.keys.length : Int) = final.size ∧ final.size ≤ max limit 0 ∧
      (final.full = true → limit ≤ final.size) ∧
      ∀ key address, final.entries.lookup key = some address → key.oversized = false) ∧
    (∀ first second middle key address, schedule = first ++ second →
      exec (Registry.step valid limit) .new first = some middle →
      middle.entries.lookup key = some address →
      final.entries.lookup key = some address ∧
      ∀ index caller result, middle.callers.length ≤ index → final.callers[index]? = some caller →
        caller.key = key → caller.stage = .returned result → result = some address) ∧
    final.exposition = directly valid final.calls ∧
    (final.panics = final.calls.map fun call => !valid (call.1.seriesOf call.2).labels) ∧
    ∀ series, final.exposition.lookup series ≠ none →
      ∃ call ∈ final.calls, call.1.seriesOf call.2 = series := by
  have sound := Registry.run_sound run
  refine ⟨⟨sound.counted, sound.bounded, sound.saturated, sound.small⟩, ?_, sound.exposed,
    sound.logged, fun series exists_ => ?_⟩
  · rintro first second middle key address rfl early admitted
    obtain ⟨state, early', rest⟩ := exec_append_some run
    cases early.symm.trans early'
    have settled := Registry.run_settled (Registry.run_sound early) rest admitted
    refine ⟨settled.admitted, fun index caller result late at_ own returned => ?_⟩
    rcases settled.later index caller late at_ own with looking | given
    · simp [looking] at returned
    · rw [given] at returned
      cases returned
      rfl
  · rw [sound.exposed] at exists_
    exact touched_of_directly exists_

/-! A cache of one entry: the empty method is admitted, a method named batch is not. -/

def sampleKey (method : String) : MethodMetricKey :=
  ⟨ascii "h", ascii "t", ascii "1", [], ascii method⟩

def sampleActions : List Action :=
  [.call (sampleKey ""), .call (sampleKey "batch"), .load 0, .load 1, .readFull 1, .readFull 0,
    .lock 0, .lock 1, .record 0 (.incrHTTPStatusCode 200), .record 1 (.incrHTTPStatusCode 200),
    .record 0 (.incrHTTPStatusCode 200), .record 1 .incrCallsFinished]

theorem Registry.bounded_and_transparent_sample :
    ∃ final : Registry, exec (Registry.step (fun _ => true) 1) .new sampleActions = some final ∧
      final.size ≤ 1 ∧
      final.exposition.lookup ((sampleKey "batch").httpStatus 200) = some [1, 1, 1] := by
  obtain ⟨final, run⟩ : ∃ final,
    exec (Registry.step (fun _ => true) 1) .new sampleActions = some final := ⟨_, rfl⟩
  obtain ⟨⟨_, bounded, _⟩, _, exposed, _⟩ :=
    Registry.bounded_and_transparent (fun _ => true) 1 run
  refine ⟨final, run, bounded, ?_⟩
  rw [exposed]
  cases run
  decide +kernel

end NodexProxy.Metrics
