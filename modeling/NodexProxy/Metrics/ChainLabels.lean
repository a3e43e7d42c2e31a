import NodexProxy.Lb.ControlPlane
import NodexProxy.Metrics.PostProcessor

/-! The chain labels of a request against the chain it is routed to. A version comes from the
request or from an override, and the labels are the same either way. -/

namespace NodexProxy.Metrics

open NodexProxy.Foundation NodexProxy.Discovery NodexProxy.Lb

/-! A base chain that was normalized once is left as it is. -/

theorem digitValue_digit {digit : Nat} (small : digit < 10) :
    digitValue (UInt8.ofNat (48 + digit)) = some digit := by
  interval_cases digit <;> decide

theorem parseDigits_digits {digits : List Nat} (small : ∀ digit ∈ digits, digit < 10) :
    parseDigits 10 (digits.reverse.map fun digit => UInt8.ofNat (48 + digit)) =
      some (Nat.ofDigits 10 digits) := by
  induction digits with
  | nil => rfl
  | cons digit rest inductionHypothesis =>
    obtain ⟨first, others⟩ := List.forall_mem_cons.mp small
    have earlier := inductionHypothesis others
    unfold parseDigits at earlier ⊢
    rw [List.reverse_cons, List.map_append, List.foldlM_append, earlier, Nat.ofDigits_cons]
    simp only [List.map_cons, List.map_nil, List.foldlM_cons, List.foldlM_nil,
      Option.bind_eq_bind, Option.bind_some, digitValue_digit first, if_pos first, Option.pure_def]
    rw [Nat.add_comm, Nat.mul_comm]

theorem parseDigits_decimal (number : Nat) : parseDigits 10 (decimal number) = some number := by
  unfold decimal
  split_ifs with zero
  · subst zero
    decide
  · rw [parseDigits_digits fun digit member => Nat.digits_lt_base (by omega) member,
      Nat.ofDigits_digits]

theorem digits_decimal (number : Nat) : Digits (decimal number) :=
  ⟨decimal_ne_nil number, fun _ member => decimal_digits number member⟩

/-- A sign or an `x` is no digit. -/
theorem not_mem_digits {text : Bytes} (digits : Digits text) (byte : UInt8)
    (other : ¬(48 ≤ byte ∧ byte ≤ 57)) : byte ∉ text :=
  fun member => other (digits.2 byte member)

/-- A text without a minus is read as digits, after a plus if there is one. -/
theorem parseInt_unsigned {text : Bytes} (absent : 45 ∉ text) (base : Nat) :
    ∃ digits, (text = digits ∨ text = 43 :: digits) ∧
      parseInt base text = if digits = [] then none else (parseDigits base digits).bind fun number =>
        if number < 2 ^ 63 then some (number : Int) else none := by
  unfold parseInt
  rcases text with _ | ⟨first, digits⟩
  · exact ⟨[], .inl rfl, rfl⟩
  · by_cases plus : first = 43
    · subst plus
      exact ⟨digits, .inr rfl, rfl⟩
    · have other : first ≠ 45 := fun minus => absent (by simp [minus])
      exact ⟨first :: digits, .inl rfl, by simp [plus, other]⟩

theorem parseInt_of_digits {text : Bytes} (digits : Digits text) {number : Nat}
    (parsed : parseDigits 10 text = some number) (small : number < 2 ^ 63) :
    parseInt 10 text = some (number : Int) := by
  have plus := not_mem_digits digits 43 (by decide)
  have minus := not_mem_digits digits 45 (by decide)
  obtain ⟨rest, rfl | rfl, read⟩ := parseInt_unsigned minus 10
  · rw [read, if_neg digits.1, parsed, Option.bind_some, if_pos small]
  · simp at plus

theorem parseNumber_decimal {number : Nat} (small : number < 2 ^ 63) :
    parseNumber (decimal number) = some (number : Int) := by
  have digits := digits_decimal number
  have lower := not_mem_digits digits 120 (by decide)
  have upper := not_mem_digits digits 88 (by decide)
  unfold parseNumber
  rw [digits.trimSpace_eq]
  split
  · rename_i shape
    simp [shape] at lower
  · rename_i shape
    simp [shape] at upper
  · exact parseInt_of_digits digits (parseDigits_decimal number) small

/-- Without a minus a number is read that is not negative and can be read again. -/
theorem parseInt_bounds {text : Bytes} {base : Nat} {number : Int} (absent : 45 ∉ text)
    (parsed : parseInt base text = some number) : ∃ value : Nat, number = value ∧ value < 2 ^ 63 := by
  obtain ⟨digits, -, read⟩ := parseInt_unsigned absent base
  rw [read] at parsed
  split_ifs at parsed with empty
  obtain ⟨value, -, bounded⟩ := Option.bind_eq_some_iff.mp parsed
  split_ifs at bounded with small
  exact ⟨value, (Option.some.inj bounded).symm, small⟩

theorem mem_of_mem_trimSpace {byte : UInt8} {text : Bytes} (member : byte ∈ trimSpace text) :
    byte ∈ text := by
  obtain ⟨front, back, split, -, -⟩ := trimSpace_split text
  rw [split]
  exact List.mem_append_right _ (List.mem_append_left _ member)

theorem parseNumber_bounds {text : Bytes} {number : Int} (absent : 45 ∉ text)
    (parsed : parseNumber text = some number) : ∃ value : Nat, number = value ∧ value < 2 ^ 63 := by
  have inner : 45 ∉ trimSpace text := fun member => absent (mem_of_mem_trimSpace member)
  unfold parseNumber at parsed
  split at parsed
  · rename_i shape
    exact parseInt_bounds (by simp_all) parsed
  · rename_i shape
    exact parseInt_bounds (by simp_all) parsed
  · exact parseInt_bounds inner parsed

/-- A base chain as `splitChainIdentifier` returns it. -/
structure NormalBase (base : Bytes) : Prop where
  dashless : 45 ∉ base
  trimmed : trimSpace base = base
  normal : normalizeChainID base = base

theorem normalBase_decimal {value : Nat} (small : value < 2 ^ 63) : NormalBase (decimal value) := by
  have digits := digits_decimal value
  refine ⟨not_mem_digits digits 45 (by decide), digits.trimSpace_eq, ?_⟩
  simp only [normalizeChainID, digits.trimSpace_eq, if_neg digits.1, parseNumber_decimal small]
  rfl

theorem normalBase_normalizeChainID {text : Bytes} (absent : 45 ∉ text) :
    NormalBase (normalizeChainID text) := by
  have inner : 45 ∉ trimSpace text := fun member => absent (mem_of_mem_trimSpace member)
  unfold normalizeChainID
  by_cases blank : trimSpace text = []
  · rw [if_pos blank]
    exact ⟨by simp, by decide, by decide⟩
  · rw [if_neg blank]
    cases parsed : parseNumber (trimSpace text) with
    | some number =>
      obtain ⟨value, rfl, small⟩ := parseNumber_bounds inner parsed
      exact normalBase_decimal small
    | none =>
      refine ⟨inner, trimSpace_trimSpace text, ?_⟩
      simp only [normalizeChainID, trimSpace_trimSpace, if_neg blank, parsed]

theorem normalBase_split (chainID : Bytes) : NormalBase (splitChainIdentifier chainID).1 := by
  simp only [splitChainIdentifier]
  split_ifs with blank
  · exact ⟨by simp, by decide, by decide⟩
  · refine normalBase_normalizeChainID fun member => ?_
    simpa using List.mem_takeWhile_imp member

/-! What an override leads to splits into the base chain and the version. -/

theorem prefix_of_prefix_dashed {token text : Bytes} (absent : 45 ∉ token)
    (occurs : token <+: dashed text) : token <+: text := by
  induction token generalizing text with
  | nil => exact List.nil_prefix
  | cons first token inductionHypothesis =>
    cases text with
    | nil => exact absurd (List.prefix_nil.mp occurs) (List.cons_ne_nil _ _)
    | cons byte text =>
      obtain ⟨other, later⟩ := not_or.mp (List.mem_cons.not.mp absent)
      obtain ⟨same, rest⟩ := List.cons_prefix_cons.mp occurs
      dsimp only at same
      split_ifs at same with slashed
      · exact absurd same.symm other
      · rw [same]
        exact (List.prefix_cons_inj byte).mpr (inductionHypothesis later rest)

theorem trimmed_dashed {text : Bytes} (trimmed : Trimmed text) : Trimmed (dashed text) := by
  have apart : ∀ token ∈ spaces, 45 ∉ token := not_mem_of_spacing (by decide)
  constructor
  · exact fun token member occurs =>
      trimmed.front token member (prefix_of_prefix_dashed (apart token member) occurs)
  · intro token member occurs
    obtain ⟨source, listed, rfl⟩ := List.mem_map.mp member
    rw [dashed, ← List.map_reverse] at occurs
    exact trimmed.back _ member
      (prefix_of_prefix_dashed (List.mem_reverse.not.mpr (apart source listed)) occurs)

/-- Where an override of a chain may lead. -/
def Overrides (chain target : Bytes) : Prop :=
  ∃ version, Trimmed version ∧ target = chain ++ ascii "-" ++ dashed version

theorem split_override {base version : Bytes} (normal : NormalBase base) (trimmed : Trimmed version) :
    (splitChainIdentifier (base ++ ascii "-" ++ dashed version)).1 = base ∧
      (splitChainIdentifier (base ++ ascii "-" ++ dashed version)).2.1 = dashed version := by
  have front : Trimmed base := normal.trimmed ▸ trimmed_trimSpace base
  have whole : base ++ ascii "-" ++ dashed version = base ++ 45 :: dashed version := by simp [ascii]
  have kept : trimSpace (base ++ ascii "-" ++ dashed version) = base ++ 45 :: dashed version := by
    rw [whole]
    exact trimSpace_of_trimmed (front.joined (trimmed_dashed trimmed) (by decide))
  rw [splitChainIdentifier_of_dash kept normal.dashless]
  exact ⟨normal.normal, trimSpace_of_trimmed (trimmed_dashed trimmed)⟩

theorem split_base {base : Bytes} (normal : NormalBase base) :
    (splitChainIdentifier base).1 = base ∧ (splitChainIdentifier base).2.1 = [] := by
  have dashless : 45 ∉ trimSpace base := by rw [normal.trimmed]; exact normal.dashless
  refine ⟨?_, splitChainIdentifier_of_no_dash dashless⟩
  simp only [splitChainIdentifier, normal.trimmed]
  split_ifs with blank
  · exact blank.symm
  · have all : ∀ byte ∈ base, (byte != 45) = true := by
      intro byte member
      simpa using ne_of_mem_of_not_mem member normal.dashless
    have whole : base.takeWhile (· != 45) = base := List.takeWhile_eq_self_iff.mpr all
    simpa only [whole] using normal.normal

theorem overrides_of_update (router : ChainVersionRouter) (update : Option ChainVersion)
    (kept : ∀ chain target, router.overrides.lookup chain = some target → Overrides chain target)
    (chain target : Bytes)
    (stored : (handleChainVersionUpdate router update).overrides.lookup chain = some target) :
    Overrides chain target := by
  have erased (name : Bytes) (left : (router.overrides.erase name).lookup chain = some target) :
      Overrides chain target := by
    rw [Assoc.lookup_erase_eq] at left
    split_ifs at left
    exact kept chain target left
  unfold handleChainVersionUpdate at stored
  split at stored
  · exact kept chain target stored
  · rename_i update
    split at stored
    · simp only [ChainVersionRouter.update, trimSpace_trimSpace] at stored
      split_ifs at stored with unnamed blank
      · exact kept chain target stored
      · exact erased _ stored
      · rw [Assoc.lookup_insert_eq] at stored
        split_ifs at stored with same
        · subst same
          exact ⟨trimSpace update.version, trimmed_trimSpace _, (Option.some.inj stored).symm⟩
        · exact kept chain target stored
    · simp only [ChainVersionRouter.remove] at stored
      split_ifs at stored
      · exact kept chain target stored
      · exact erased _ stored

theorem overrides_of_run {decoder : Decoder} {history : History} {keyPrefix : Bytes}
    {proxied : Bytes → Bool} {schedule : List ControlAction} {state : ControlPlane}
    (run : exec (ControlPlane.step decoder history keyPrefix proxied) .new schedule = some state) :
    ∀ chain target, state.background.chainVersionRouter.overrides.lookup chain = some target →
      Overrides chain target := by
  refine exec_invariant (motive := fun state => ∀ chain target,
    state.background.chainVersionRouter.overrides.lookup chain = some target →
      Overrides chain target) (fun _ _ stored => by cases stored) ?_ run
  intro state action final kept stepped
  rcases ControlPlane.step_cases stepped with ⟨_, _, -, -, rfl⟩ | ⟨_, event, _, -, -, -, rfl⟩ |
    ⟨_, _, -, -, -, rfl⟩ | ⟨_, -, -, rfl⟩ | ⟨_, -, rfl⟩ | ⟨_, -, rfl⟩
  case inr.inl =>
    cases event with
    | version update => exact overrides_of_update _ (some update) kept
    | _ => exact kept
  all_goals exact kept

/-! The labels. -/

theorem metricChainLabels_named {base version : Bytes} (normal : NormalBase base)
    (named : base ≠ []) (versioned : version ≠ []) (chain : Bytes) :
    metricChainLabels base version chain = (base, version) := by
  simp only [metricChainLabels, normal.trimmed, if_neg named, if_pos versioned]

theorem metricChainLabels_base {base : Bytes} (normal : NormalBase base) (named : base ≠ []) :
    metricChainLabels base [] base = (base, []) := by
  simp [metricChainLabels, normal.trimmed, named]

theorem metricChainLabels_override {base version : Bytes} (normal : NormalBase base)
    (named : base ≠ []) :
    metricChainLabels base [] (base ++ ascii "-" ++ version) = (base, version) := by
  have other : base ++ ascii "-" ++ version ≠ base := by simp [ascii]
  have filled : base ++ ascii "-" ++ version ≠ [] := by simp [named]
  have starts : base ++ ascii "-" <+: base ++ ascii "-" ++ version := List.prefix_append _ _
  simp only [metricChainLabels, normal.trimmed, if_neg named, ne_eq, not_true_eq_false, if_false]
  rw [if_pos ⟨named, filled, other, starts⟩, List.drop_left]

/-- A request is counted under the base and the version of the chain it is routed to, whether it
names the version or an override adds it. -/
theorem metric_labels_follow_route {decoder : Decoder} {history : History} {keyPrefix : Bytes}
    {proxied : Bytes → Bool} {schedule : List ControlAction} {state : ControlPlane}
    {chainID chain : Bytes}
    (run : exec (ControlPlane.step decoder history keyPrefix proxied) .new schedule = some state)
    (routed : effectiveChainID state.background.chainVersionRouter.overrides chainID =
      some chain) :
    metricChainLabels (splitChainIdentifier chainID).1 (splitChainIdentifier chainID).2.1 chain =
      ((splitChainIdentifier chain).1, (splitChainIdentifier chain).2.1) := by
  have normal := normalBase_split chainID
  by_cases versioned : Versioned chainID
  · rw [effectiveChainID_of_versioned versioned, Option.some_inj] at routed
    obtain ⟨named, suffixed⟩ := versioned_iff.mp versioned
    rw [metricChainLabels_named normal named suffixed, ← routed]
    simp only [splitChainIdentifier, trimSpace_trimSpace]
  · have unversioned := versioned_iff.not.mp versioned
    rw [effectiveChainID_of_not_versioned versioned] at routed
    split_ifs at routed with named
    have plain : (splitChainIdentifier chainID).2.1 = [] := by
      by_contra suffixed
      exact unversioned ⟨named, suffixed⟩
    rw [plain]
    generalize (splitChainIdentifier chainID).1 = base at routed normal named
    rw [Option.some_inj, resolve, normal.trimmed, if_neg named] at routed
    cases stored : state.background.chainVersionRouter.overrides.lookup base with
    | none =>
      rw [stored, Option.getD_none] at routed
      subst routed
      obtain ⟨first, second⟩ := split_base normal
      rw [metricChainLabels_base normal named, first, second]
    | some target =>
      rw [stored, Option.getD_some] at routed
      subst routed
      obtain ⟨version, trimmed, rfl⟩ := overrides_of_run run base target stored
      obtain ⟨first, second⟩ := split_override normal trimmed
      rw [metricChainLabels_override normal named, first, second]

theorem metric_labels_follow_route_override :
    ∃ state, exec (ControlPlane.step plainDecoder shortHistory [] fun _ => false) .new
        versionSchedule = some state ∧
      effectiveChainID state.background.chainVersionRouter.overrides (ascii "0x1") =
        some (ascii "1-v2") ∧
      metricChainLabels (splitChainIdentifier (ascii "0x1")).1
        (splitChainIdentifier (ascii "0x1")).2.1 (ascii "1-v2") = (ascii "1", ascii "v2") := by
  have routed : (exec (ControlPlane.step plainDecoder shortHistory [] fun _ => false) .new
      versionSchedule).map (fun state =>
        effectiveChainID state.background.chainVersionRouter.overrides (ascii "0x1")) =
      some (some (ascii "1-v2")) := by decide +kernel
  obtain ⟨state, run, same⟩ := Option.map_eq_some_iff.mp routed
  exact ⟨state, run, same, (metric_labels_follow_route run same).trans (by decide +kernel)⟩

end NodexProxy.Metrics
