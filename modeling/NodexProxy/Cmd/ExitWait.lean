import NodexProxy.Foundation.Bytes
import NodexProxy.Foundation.Machine

/-! How long a stopping proxy waits for the requests it still serves, against the time the
attempts of one request may take. Timeouts are configured in milliseconds and used in
nanoseconds, both as 64-bit words. -/

namespace NodexProxy.Cmd

open NodexProxy.Foundation

/-- The timeouts of `types.Config`. -/
structure Config where
  defaultRPCTimeout : Int64
  rpcMethodTimeoutConfig : Assoc Bytes Int64
  connMaxWaitTimeout : Int64
  connDialTimeout : Int64

def millisecond : Int64 := 1000000

def maxUpstreamAttempts : Int64 := 3

def shutdownRequestBuffer : Int64 := 5000000000

def maxExitWait : Int64 := 9223372036854775807

def maxPerAttemptMS : Int64 :=
  (maxExitWait - shutdownRequestBuffer) / millisecond / maxUpstreamAttempts

/-- The first loop of `gracefulExitWait`, over the method timeouts in the order the map is
iterated in. -/
def longestTimeout (start : Int64) (order : List (Sigma fun _ : Bytes => Int64)) : Int64 :=
  order.foldl (fun longest entry => if entry.2 > longest then entry.2 else longest) start

/-- The second loop of `gracefulExitWait`; `none` where it returns `maxExitWait`. -/
def addOverheads : List Int64 → Int64 → Overflowing (Option Int64)
  | [], perAttemptMS => pure (some perAttemptMS)
  | overheadMS :: rest, perAttemptMS =>
    if overheadMS ≤ 0 then addOverheads rest perAttemptMS
    else do
      let room ← Overflowing.sub maxPerAttemptMS perAttemptMS
      if overheadMS > room then pure none
      else do
        let perAttemptMS ← Overflowing.add perAttemptMS overheadMS
        addOverheads rest perAttemptMS

def gracefulExitWait (proxyConfig : Option Config)
    (order : List (Sigma fun _ : Bytes => Int64)) : Overflowing Int64 :=
  match proxyConfig with
  | none => pure shutdownRequestBuffer
  | some config =>
    let maxTimeoutMS := longestTimeout config.defaultRPCTimeout order
    if maxTimeoutMS ≤ 0 then pure shutdownRequestBuffer
    else do
      match ← addOverheads [config.connDialTimeout, config.connMaxWaitTimeout] maxTimeoutMS with
      | none => pure maxExitWait
      | some perAttemptMS =>
        if perAttemptMS > maxPerAttemptMS then pure maxExitWait
        else do
          let attempts ← Overflowing.mul maxUpstreamAttempts perAttemptMS
          let total ← Overflowing.mul attempts millisecond
          Overflowing.add total shutdownRequestBuffer

/-- `LoadBalancer.upstreamReadTimeout`, in nanoseconds. -/
def upstreamReadTimeout (config : Config) (method : Bytes) : Int64 :=
  match config.rpcMethodTimeoutConfig.lookup method with
  | some timeout =>
    if timeout > 0 then timeout * millisecond else config.defaultRPCTimeout * millisecond
  | none => config.defaultRPCTimeout * millisecond

/-- The longest one attempt may take: the read timeout, and the dial and pool-wait timeouts the
upstream client is made with. -/
def attemptTime (config : Config) (method : Bytes) : Int :=
  max 0 (upstreamReadTimeout config method).toInt +
    max 0 (config.connDialTimeout * millisecond).toInt +
    max 0 (config.connMaxWaitTimeout * millisecond).toInt

/-- Every timeout a request may be given, in milliseconds. -/
def Config.timeouts (config : Config) : Set Int :=
  {timeout | timeout = config.defaultRPCTimeout.toInt ∨
    ∃ method word, config.rpcMethodTimeoutConfig.lookup method = some word ∧ timeout = word.toInt}

/-- Three attempts at the longest timeout with both overheads, and the buffer. -/
def worstCase (config : Config) (longest : Int) : Int :=
  3 * (longest + max config.connDialTimeout.toInt 0 + max config.connMaxWaitTimeout.toInt 0) *
    10 ^ 6 + 5 * 10 ^ 9

@[simp] theorem toInt_millisecond : millisecond.toInt = 1000000 := rfl

@[simp] theorem toInt_maxUpstreamAttempts : maxUpstreamAttempts.toInt = 3 := rfl

@[simp] theorem toInt_shutdownRequestBuffer : shutdownRequestBuffer.toInt = 5000000000 := rfl

@[simp] theorem toInt_maxExitWait : maxExitWait.toInt = 9223372036854775807 := rfl

@[simp] theorem toInt_maxPerAttemptMS : maxPerAttemptMS.toInt = 3074457343951 := by decide +kernel

theorem longestTimeout_isGreatest (start : Int64)
    (order : List (Sigma fun _ : Bytes => Int64)) :
    IsGreatest {timeout : Int | timeout = start.toInt ∨ ∃ entry ∈ order, timeout = entry.2.toInt}
      (longestTimeout start order).toInt := by
  induction order generalizing start with
  | nil => simp [longestTimeout, IsGreatest, upperBounds]
  | cons entry rest inductionHypothesis =>
    change IsGreatest _ (longestTimeout (if entry.2 > start then entry.2 else start) rest).toInt
    generalize chosen : (if entry.2 > start then entry.2 else start) = next
    have kept : next = entry.2 ∨ next = start := by
      rw [← chosen]
      exact ite_eq_or_eq _ _ _
    have larger : start.toInt ≤ next.toInt ∧ entry.2.toInt ≤ next.toInt := by
      rw [← chosen]
      split_ifs with longer
      · exact ⟨(Int64.lt_iff_toInt_lt.mp longer).le, le_rfl⟩
      · exact ⟨le_rfl, not_lt.mp (Int64.lt_iff_toInt_lt.not.mp longer)⟩
    obtain ⟨found, above⟩ := inductionHypothesis next
    refine ⟨?_, ?_⟩
    · rcases found with same | ⟨later, member, same⟩
      · rcases kept with rfl | rfl
        · exact .inr ⟨entry, by simp, same⟩
        · exact .inl same
      · exact .inr ⟨later, List.mem_cons_of_mem _ member, same⟩
    · have reached := above (.inl rfl)
      rintro timeout (same | ⟨later, member, same⟩)
      · exact same.trans_le (larger.1.trans reached)
      · rcases List.mem_cons.mp member with rfl | behind
        · exact same.trans_le (larger.2.trans reached)
        · exact above (.inr ⟨later, behind, same⟩)

/-- In whatever order the map is iterated, the first loop finds the longest timeout. -/
theorem timeouts_isGreatest {config : Config} {order : List (Sigma fun _ : Bytes => Int64)}
    (iterates : order.Perm config.rpcMethodTimeoutConfig.entries) :
    IsGreatest config.timeouts (longestTimeout config.defaultRPCTimeout order).toInt := by
  have same : config.timeouts = {timeout : Int | timeout = config.defaultRPCTimeout.toInt ∨
      ∃ entry ∈ order, timeout = entry.2.toInt} := by
    ext timeout
    refine or_congr_right ⟨?_, ?_⟩
    · rintro ⟨method, word, found, same⟩
      exact ⟨⟨method, word⟩, iterates.mem_iff.mpr (AList.mem_lookup_iff.mp found), same⟩
    · rintro ⟨⟨method, word⟩, member, same⟩
      exact ⟨method, word, AList.mem_lookup_iff.mpr (iterates.mem_iff.mp member), same⟩
  rw [same]
  exact longestTimeout_isGreatest _ order

theorem isGreatest_of_longestTimeout {config : Config} {longest : Int}
    (found : (longestTimeout config.defaultRPCTimeout
      config.rpcMethodTimeoutConfig.entries).toInt = longest) :
    IsGreatest config.timeouts longest :=
  found ▸ timeouts_isGreatest (List.Perm.refl _)

/-- What the second loop returns for a total: the total, or nothing when it passes the most an
attempt may take. -/
def Totals (total : Int) : Option Int64 → Prop
  | none => maxPerAttemptMS.toInt < total
  | some word => word.toInt = total

/-- The second loop adds the positive overheads, and no operation of it overflows. -/
theorem addOverheads_ensures (overheads : List Int64) {perAttemptMS : Int64}
    (positive : 0 < perAttemptMS.toInt) :
    (addOverheads overheads perAttemptMS).Ensures
      (Totals (perAttemptMS.toInt + (overheads.map fun overhead => max overhead.toInt 0).sum)) := by
  induction overheads generalizing perAttemptMS with
  | nil => exact .ret (by simp [Totals])
  | cons overheadMS rest inductionHypothesis =>
    have rest_nonneg : 0 ≤ (rest.map fun overhead => max overhead.toInt 0).sum := by
      apply List.sum_nonneg
      simp
    have bounds := fits_toInt perAttemptMS
    simp only [addOverheads, List.map_cons, List.sum_cons]
    split_ifs with absent
    · have nothing : max overheadMS.toInt 0 = 0 := max_eq_right (Int64.le_iff_toInt_le.mp absent)
      rw [nothing, zero_add]
      exact inductionHypothesis positive
    · have present : 0 < overheadMS.toInt := not_le.mp (Int64.le_iff_toInt_le.not.mp absent)
      rw [max_eq_left present.le]
      -- the room may be negative, but neither operand is far enough out to wrap it
      refine .seq (Overflowing.sub_ensures ?_) fun room left => ?_
      · simp only [Fits, toInt_maxPerAttemptMS] at bounds ⊢
        omega
      rw [toInt_maxPerAttemptMS] at left
      split_ifs with exceeds
      · have exceeds := Int64.lt_iff_toInt_lt.mp exceeds
        refine .ret ?_
        rw [Totals, toInt_maxPerAttemptMS]
        omega
      · have within := not_lt.mp (Int64.lt_iff_toInt_lt.not.mp exceeds)
        refine .seq (Overflowing.add_ensures ?_) fun next sum => ?_
        · simp only [Fits]
          omega
        · have following := @inductionHypothesis next (by omega)
          rw [sum, add_assoc] at following
          exact following

/-- The wait is the worst case, cut at the largest duration, and no operation overflows. -/
theorem gracefulExitWait_ensures {config : Config}
    {order : List (Sigma fun _ : Bytes => Int64)}
    (iterates : order.Perm config.rpcMethodTimeoutConfig.entries) {longest : Int}
    (greatest : IsGreatest config.timeouts longest) :
    (gracefulExitWait (some config) order).Ensures fun wait => wait.toInt =
      if longest ≤ 0 then 5 * 10 ^ 9 else min (2 ^ 63 - 1) (worstCase config longest) := by
  have found := (timeouts_isGreatest iterates).unique greatest
  simp only [gracefulExitWait, Int64.le_iff_toInt_le, found, Int64.toInt_zero]
  split_ifs with none_positive
  · exact .ret rfl
  · have positive : 0 < (longestTimeout config.defaultRPCTimeout order).toInt := by omega
    refine .seq (addOverheads_ensures _ positive) fun total reached => ?_
    simp only [found, List.map_cons, List.map_nil, List.sum_cons, List.sum_nil] at reached
    have unfolded : worstCase config longest = 3 * (longest +
        (max config.connDialTimeout.toInt 0 + (max config.connMaxWaitTimeout.toInt 0 + 0))) *
          1000000 + 5000000000 := by
      simp only [worstCase]
      ring
    rw [unfolded]
    have some_time : 0 < longest + (max config.connDialTimeout.toInt 0 +
        (max config.connMaxWaitTimeout.toInt 0 + 0)) := by omega
    generalize longest + (max config.connDialTimeout.toInt 0 +
      (max config.connMaxWaitTimeout.toInt 0 + 0)) = whole at reached some_time
    cases total with
    | none =>
      refine .ret ?_
      rw [Totals, toInt_maxPerAttemptMS] at reached
      rw [toInt_maxExitWait]
      omega
    | some perAttemptMS =>
      have same : perAttemptMS.toInt = whole := reached
      dsimp only
      split_ifs with exceeds
      · have exceeds := Int64.lt_iff_toInt_lt.mp exceeds
        refine .ret ?_
        rw [toInt_maxPerAttemptMS] at exceeds
        rw [toInt_maxExitWait]
        omega
      · have within := not_lt.mp (Int64.lt_iff_toInt_lt.not.mp exceeds)
        rw [toInt_maxPerAttemptMS] at within
        refine .seq (Overflowing.mul_ensures ?_) fun attempts tripled => ?_
        · rw [toInt_maxUpstreamAttempts, Fits]
          omega
        rw [toInt_maxUpstreamAttempts] at tripled
        refine .seq (Overflowing.mul_ensures ?_) fun total scaled => ?_
        · rw [toInt_millisecond, Fits]
          omega
        rw [toInt_millisecond] at scaled
        obtain ⟨exactly, sum⟩ := @Overflowing.add_ensures total shutdownRequestBuffer (by
          rw [toInt_shutdownRequestBuffer, Fits]
          omega)
        refine ⟨exactly, ?_⟩
        rw [toInt_shutdownRequestBuffer] at sum
        omega

section Coverage

variable {config : Config} {longest : Int}

theorem toInt_milliseconds (word : Int64) :
    (word * millisecond).toInt = (word.toInt * 10 ^ 6).bmod (2 ^ 64) := Int64.toInt_mul word _

theorem toInt_milliseconds_of_le {word : Int64} (positive : 0 < word.toInt)
    (small : word.toInt * 10 ^ 6 < 2 ^ 63) : (word * millisecond).toInt = word.toInt * 10 ^ 6 := by
  rw [toInt_milliseconds]
  exact bmod_of_fits ⟨by omega, small⟩

theorem exists_default_method (config : Config) :
    ∃ method, upstreamReadTimeout config method = config.defaultRPCTimeout * millisecond := by
  obtain ⟨method, fresh⟩ :=
    Infinite.exists_notMem_finset config.rpcMethodTimeoutConfig.keys.toFinset
  have absent : config.rpcMethodTimeoutConfig.lookup method = none :=
    AList.lookup_eq_none.mpr fun member => fresh (List.mem_toFinset.mpr member)
  exact ⟨method, by rw [upstreamReadTimeout, absent]⟩

/-- The read timeout of a method is at most the longest configured or the default as it comes
out in nanoseconds. -/
theorem upstreamReadTimeout_le (greatest : IsGreatest config.timeouts longest)
    (small : longest * 10 ^ 6 < 2 ^ 63) (method : Bytes) :
    (upstreamReadTimeout config method).toInt ≤
      max (longest * 10 ^ 6) (config.defaultRPCTimeout * millisecond).toInt := by
  unfold upstreamReadTimeout
  cases found : config.rpcMethodTimeoutConfig.lookup method with
  | none => exact le_max_right _ _
  | some timeout =>
    dsimp only
    split_ifs with configured
    · have positive : 0 < timeout.toInt := Int64.lt_iff_toInt_lt.mp configured
      have below : timeout.toInt ≤ longest := greatest.2 (.inr ⟨method, timeout, found, rfl⟩)
      rw [toInt_milliseconds_of_le positive (by omega)]
      exact le_max_of_le_left (by omega)
    · exact le_max_right _ _

/-- Some method has that read timeout. -/
theorem upstreamReadTimeout_attains (greatest : IsGreatest config.timeouts longest)
    (positive : 0 < longest) (small : longest * 10 ^ 6 < 2 ^ 63) :
    ∃ method, (upstreamReadTimeout config method).toInt =
      max (longest * 10 ^ 6) (config.defaultRPCTimeout * millisecond).toInt := by
  obtain ⟨method, default⟩ := exists_default_method config
  rcases greatest.1 with atDefault | ⟨method', timeout, found, atMethod⟩
  · have exactly := @toInt_milliseconds_of_le config.defaultRPCTimeout (by omega) (by omega)
    refine ⟨method, ?_⟩
    rw [default, exactly, atDefault, max_self]
  · rcases le_total (longest * 10 ^ 6) (config.defaultRPCTimeout * millisecond).toInt with
      wrapped | below
    · exact ⟨method, by rw [default, max_eq_right wrapped]⟩
    · have configured : timeout > 0 := Int64.lt_iff_toInt_lt.mpr (atMethod ▸ positive)
      refine ⟨method', ?_⟩
      rw [max_eq_left below, upstreamReadTimeout, found]
      dsimp only
      rw [if_pos configured, toInt_milliseconds_of_le (by omega) (by omega), atMethod]

/-- No attempt takes longer than the longest timeout and the default in nanoseconds allow. -/
theorem attempts_le (greatest : IsGreatest config.timeouts longest) (positive : 0 < longest)
    (small : longest * 10 ^ 6 < 2 ^ 63) {bound : Int} :
    (∀ (method : Bytes) (attempts : Nat), attempts ≤ 3 →
        attempts * attemptTime config method ≤ bound) ↔
      3 * (max (longest * 10 ^ 6) (config.defaultRPCTimeout * millisecond).toInt +
        max 0 (config.connDialTimeout * millisecond).toInt +
        max 0 (config.connMaxWaitTimeout * millisecond).toInt) ≤ bound := by
  constructor
  · intro covered
    obtain ⟨method, attained⟩ := upstreamReadTimeout_attains greatest positive small
    have three := covered method 3 le_rfl
    have nonneg : 0 ≤ max (longest * 10 ^ 6) (config.defaultRPCTimeout * millisecond).toInt :=
      le_max_of_le_left (by omega)
    rwa [attemptTime, attained, max_eq_right nonneg] at three
  · intro covered method attempts few
    have below : max 0 (upstreamReadTimeout config method).toInt ≤
        max (longest * 10 ^ 6) (config.defaultRPCTimeout * millisecond).toInt :=
      max_le (le_max_of_le_left (by omega)) (upstreamReadTimeout_le greatest small method)
    have nonneg : 0 ≤ attemptTime config method :=
      add_nonneg (add_nonneg (le_max_left _ _) (le_max_left _ _)) (le_max_left _ _)
    refine le_trans ?_ covered
    calc (attempts : Int) * attemptTime config method
        ≤ 3 * attemptTime config method :=
          mul_le_mul_of_nonneg_right (by exact_mod_cast few) nonneg
      _ ≤ _ := by
          unfold attemptTime
          exact mul_le_mul_of_nonneg_left (by gcongr) (by decide)

/-- Below saturation the wait covers three attempts exactly when the timeouts still do once they are
turned into nanoseconds. -/
theorem covers_iff (iterates : order.Perm config.rpcMethodTimeoutConfig.entries)
    (greatest : IsGreatest config.timeouts longest) (positive : 0 < longest)
    (below : worstCase config longest < 2 ^ 63 - 1) :
    (∀ (method : Bytes) (attempts : Nat), attempts ≤ 3 →
        attempts * attemptTime config method ≤
          (gracefulExitWait (some config) order).value.toInt) ↔
      3 * (max (longest * 10 ^ 6) ((config.defaultRPCTimeout.toInt * 10 ^ 6).bmod (2 ^ 64)) +
        max 0 ((config.connDialTimeout.toInt * 10 ^ 6).bmod (2 ^ 64)) +
        max 0 ((config.connMaxWaitTimeout.toInt * 10 ^ 6).bmod (2 ^ 64))) ≤
          worstCase config longest := by
  obtain ⟨-, value⟩ := gracefulExitWait_ensures iterates greatest
  have small : longest * 10 ^ 6 < 2 ^ 63 := by
    unfold worstCase at below
    omega
  rw [value, if_neg (by omega), min_eq_right below.le, attempts_le greatest positive small,
    toInt_milliseconds, toInt_milliseconds, toInt_milliseconds]

/-- No timeout wraps around unless one lies below the least number of milliseconds that a duration
holds. -/
theorem gracefulExitWait_covers (iterates : order.Perm config.rpcMethodTimeoutConfig.entries)
    (greatest : IsGreatest config.timeouts longest)
    (default : -9223372036854 ≤ config.defaultRPCTimeout.toInt)
    (dial : -9223372036854 ≤ config.connDialTimeout.toInt)
    (wait : -9223372036854 ≤ config.connMaxWaitTimeout.toInt) (positive : 0 < longest)
    (below : worstCase config longest < 2 ^ 63 - 1) (method : Bytes) (attempts : Nat)
    (few : attempts ≤ 3) :
    attempts * attemptTime config method ≤
      (gracefulExitWait (some config) order).value.toInt := by
  refine (covers_iff iterates greatest positive below).mpr ?_ method attempts few
  have shorter : config.defaultRPCTimeout.toInt ≤ longest := greatest.2 (.inl rfl)
  have whole (timeout : Int) (low : -9223372036854 ≤ timeout) (high : timeout * 10 ^ 6 < 2 ^ 63) :
      (timeout * 10 ^ 6).bmod (2 ^ 64) = timeout * 10 ^ 6 := bmod_of_fits ⟨by omega, high⟩
  unfold worstCase at below ⊢
  rw [whole _ default (by omega), whole _ dial (by omega), whole _ wait (by omega)]
  omega

/-- The wait is the saturated worst case for every configuration. Below saturation it covers
three attempts of a request exactly when the default, dial and pool-wait timeouts still do once
they are turned into nanoseconds, where they may wrap around. -/
theorem gracefulExitWait_covers_iff (config : Config)
    (order : List (Sigma fun _ : Bytes => Int64)) (longest : Int)
    (iterates : order.Perm config.rpcMethodTimeoutConfig.entries)
    (greatest : IsGreatest config.timeouts longest) :
    (gracefulExitWait (some config) order).exact = true ∧
    (gracefulExitWait (some config) order).value.toInt =
      (if longest ≤ 0 then 5 * 10 ^ 9 else min (2 ^ 63 - 1) (worstCase config longest)) ∧
    ((0 < longest → worstCase config longest < 2 ^ 63 - 1 →
        ∀ (method : Bytes) (attempts : Nat), attempts ≤ 3 →
          attempts * attemptTime config method ≤
            (gracefulExitWait (some config) order).value.toInt) ↔
      (0 < longest → worstCase config longest < 2 ^ 63 - 1 →
        3 * (max (longest * 10 ^ 6) ((config.defaultRPCTimeout.toInt * 10 ^ 6).bmod (2 ^ 64)) +
          max 0 ((config.connDialTimeout.toInt * 10 ^ 6).bmod (2 ^ 64)) +
          max 0 ((config.connMaxWaitTimeout.toInt * 10 ^ 6).bmod (2 ^ 64))) ≤
            worstCase config longest)) := by
  obtain ⟨exactly, value⟩ := gracefulExitWait_ensures iterates greatest
  exact ⟨exactly, value, forall_congr' fun positive => forall_congr' fun below =>
    covers_iff iterates greatest positive below⟩

/-- Timeouts of seconds, far from wrapping. -/
def sampleConfig : Config :=
  ⟨5000, (∅ : Assoc Bytes Int64).insert (ascii "eth_call") 12000, 1000, 3000⟩

theorem gracefulExitWait_covers_sample :
    (gracefulExitWait (some sampleConfig) sampleConfig.rpcMethodTimeoutConfig.entries).value.toInt =
        53 * 10 ^ 9 ∧
      ∀ (method : Bytes) (attempts : Nat), attempts ≤ 3 →
        attempts * attemptTime sampleConfig method ≤ 53 * 10 ^ 9 := by
  obtain ⟨_, value, covers⟩ := gracefulExitWait_covers_iff sampleConfig
    sampleConfig.rpcMethodTimeoutConfig.entries 12000 (List.Perm.refl _)
    (isGreatest_of_longestTimeout (by decide +kernel))
  have wait : (if (12000 : Int) ≤ 0 then 5 * 10 ^ 9
      else min (2 ^ 63 - 1) (worstCase sampleConfig 12000)) = 53 * 10 ^ 9 := by decide +kernel
  rw [wait] at value
  rw [value] at covers
  exact ⟨value, covers.mpr (by decide +kernel) (by decide) (by decide +kernel)⟩

/-- A default so far below zero that it turns positive in nanoseconds. -/
def wrappingConfig : Config :=
  ⟨-9223372036855, (∅ : Assoc Bytes Int64).insert (ascii "eth_call") 1000, 1000, 3000⟩

/-- One attempt of a method without a timeout of its own outlasts the wait. -/
theorem gracefulExitWait_not_covers :
    IsGreatest wrappingConfig.timeouts 1000 ∧
      (gracefulExitWait (some wrappingConfig)
        wrappingConfig.rpcMethodTimeoutConfig.entries).value.toInt = 20 * 10 ^ 9 ∧
      worstCase wrappingConfig 1000 = 20 * 10 ^ 9 ∧
      attemptTime wrappingConfig (ascii "eth_blockNumber") = 9223372040854551616 :=
  ⟨isGreatest_of_longestTimeout (by decide +kernel), by decide +kernel⟩

end Coverage

end NodexProxy.Cmd
