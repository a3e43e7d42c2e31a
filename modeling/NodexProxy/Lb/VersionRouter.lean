import NodexProxy.Foundation.Trim
import NodexProxy.Discovery.Key
import NodexProxy.Lb.Chain

/-! The version router and the nodes it routes to. The router and discovery each turn a
version into the tail of a chain id, and have to come to the same one. -/

namespace NodexProxy.Lb

open NodexProxy.Foundation NodexProxy.Discovery

structure ChainVersionRouter where
  overrides : Assoc Bytes Bytes

def ChainVersionRouter.new : ChainVersionRouter := ⟨∅⟩

/-- `strings.ReplaceAll(text, "/", "-")`. -/
def dashed (text : Bytes) : Bytes := text.map fun byte => if byte = slash then 45 else byte

def ChainVersionRouter.update (router : ChainVersionRouter) (chain version : Bytes) :
    ChainVersionRouter :=
  let chain := trimSpace chain
  let version := trimSpace version
  if chain = [] then router
  else if version = [] then ⟨router.overrides.erase chain⟩
  else ⟨router.overrides.insert chain (chain ++ ascii "-" ++ dashed version)⟩

def ChainVersionRouter.remove (router : ChainVersionRouter) (chain : Bytes) : ChainVersionRouter :=
  let chain := trimSpace chain
  if chain = [] then router else ⟨router.overrides.erase chain⟩

def ChainVersionRouter.resolve (router : ChainVersionRouter) (chain : Bytes) : Bytes :=
  Lb.resolve router.overrides chain

def handleChainVersionUpdate (router : ChainVersionRouter) (update : Option ChainVersion) :
    ChainVersionRouter :=
  match update with
  | none => router
  | some update =>
    match update.changeType with
    | .put => router.update update.chainId (trimSpace update.version)
    | .delete => router.remove update.chainId

/-- The etcd key of a node of one version of a chain. -/
def versionedNodeKey (chain version nodeKey : Bytes) : Bytes :=
  chain ++ slash :: version ++ nodesPattern.marker ++ nodeKey

/-- What discovery needs of a trimmed version and a node key. -/
structure VersionSafe (version nodeKey : Bytes) : Prop where
  versionPlain : Plain version
  keyPlain : Plain nodeKey
  bareEnd : ¬ [slash] <:+ version
  unmarked : ¬ ascii "/nodes/" <:+: slash :: version ++ ascii "/nodes"

/-- Decimal text. -/
def Digits (text : Bytes) : Prop := text ≠ [] ∧ ∀ byte ∈ text, 48 ≤ byte ∧ byte ≤ 57

section Digits

variable {chain : Bytes}

theorem digit_solid {byte : UInt8} (digit : 48 ≤ byte ∧ byte ≤ 57) :
    spacing byte = false ∧ byte ≠ slash ∧ byte ≠ newline := by
  obtain ⟨low, high⟩ := digit
  have small : byte.toNat - 48 < 10 := by
    have := UInt8.le_iff_toNat_le.mp high
    simp at this
    omega
  have same : byte = UInt8.ofNat (48 + (byte.toNat - 48)) := by
    have := UInt8.le_iff_toNat_le.mp low
    simp at this
    rw [Nat.add_sub_cancel' this, UInt8.ofNat_toNat]
  rw [same]
  generalize byte.toNat - 48 = digit at small
  interval_cases digit <;> decide

theorem Digits.trimSpace_eq (digits : Digits chain) : trimSpace chain = chain :=
  trimSpace_of_trimmed (trimmed_of_solid fun byte member => (digit_solid (digits.2 byte member)).1)

theorem Digits.noSlash (digits : Digits chain) : slash ∉ chain :=
  fun member => (digit_solid (digits.2 slash member)).2.1 rfl

theorem Digits.plain (digits : Digits chain) : Plain chain :=
  fun member => (digit_solid (digits.2 newline member)).2.2 rfl

end Digits

/-- After its version event a chain resolves to its name and the dashed version. -/
theorem resolve_after_update (router : ChainVersionRouter) {chain version : Bytes}
    (digits : Digits chain) (present : trimSpace version ≠ []) :
    (handleChainVersionUpdate router (some ⟨chain, version, .put⟩)).resolve chain =
      chain ++ 45 :: dashed (trimSpace version) := by
  simp only [handleChainVersionUpdate, ChainVersionRouter.update, trimSpace_trimSpace,
    digits.trimSpace_eq, digits.1, present, if_false, ChainVersionRouter.resolve, Lb.resolve]
  rw [Assoc.lookup_insert_eq, if_pos digits.trimSpace_eq]
  simp [ascii]

theorem dashed_of_noSlash {text : Bytes} (noSlash : slash ∉ text) : dashed text = text :=
  map_replace_of_absent noSlash 45

theorem length_dashed (text : Bytes) : (dashed text).length = text.length := List.length_map _

theorem normalizeMultiVersionChainID_eq (raw : Bytes) :
    normalizeMultiVersionChainID raw =
      dashed ((raw.dropWhile (· == slash)).rdropWhile (· == slash)) := rfl

theorem length_normalize_le (raw : Bytes) :
    (normalizeMultiVersionChainID raw).length ≤ raw.length := by
  rw [normalizeMultiVersionChainID_eq, length_dashed]
  exact ((List.rdropWhile_prefix _ _).length_le).trans (List.dropWhile_suffix _).length_le

/-- A matched key holds no newline. -/
theorem plain_key_of_find {pattern : KeyPattern} (markerPlain : Plain pattern.marker)
    (found : pattern.findStringSubmatch text = some (raw, sub)) : Plain text := by
  obtain ⟨rfl, rawPlain, tail, _⟩ := KeyPattern.findStringSubmatch_some found
  have subPlain : Plain sub := by
    split at tail
    · exact tail
    · simp [tail, Plain]
  intro member
  rcases List.mem_append.mp member with (early | behind)
  · rcases List.mem_append.mp early with inRaw | inMarker
    · exact rawPlain inRaw
    · exact markerPlain inMarker
  · exact subPlain behind

theorem classify_of_not_plain {key : Bytes} (broken : ¬ Plain key) {patterns : List KeyPattern}
    (markersPlain : ∀ pattern ∈ patterns, Plain pattern.marker) :
    classify key patterns = (.unknown, [], []) := by
  induction patterns with
  | nil => rfl
  | cons pattern rest inductionHypothesis =>
    have failed : pattern.findStringSubmatch key = none := by
      cases found : pattern.findStringSubmatch key with
      | none => rfl
      | some groups => exact absurd (plain_key_of_find (markersPlain pattern (by simp)) found) broken
    rw [classify, failed]
    exact inductionHypothesis fun later member => markersPlain later (List.mem_cons_of_mem _ member)

section Match

variable {chain version nodeKey : Bytes}

/-- A node marker before the one of the key lies within the version and its marker. -/
theorem marker_in_version (noSlash : slash ∉ chain)
    (parts : chain ++ slash :: version = first ++ second) (nonempty : second ≠ [])
    (occurs : nodesPattern.marker <+: second ++ nodesPattern.marker ++ nodeKey) :
    ascii "/nodes/" <:+: slash :: version ++ ascii "/nodes" := by
  -- the marker ends before the last slash of the key's own marker
  have short : ascii "/nodes/" <+: second ++ ascii "/nodes" := by
    have positive := List.length_pos_of_ne_nil nonempty
    have whole : second ++ nodesPattern.marker ++ nodeKey =
        (second ++ ascii "/nodes") ++ (slash :: nodeKey) := by
      simp [nodesPattern, ascii, slash]
    rw [whole] at occurs
    refine List.prefix_of_prefix_length_le occurs (List.prefix_append _ _) ?_
    simp [ascii]
    omega
  rcases List.append_eq_append_iff.mp parts with ⟨middle, _, inside⟩ | ⟨middle, inside, tail⟩
  · obtain ⟨rest, same⟩ := short
    exact ⟨middle, rest, by rw [inside, List.append_assoc, List.append_assoc, same]⟩
  · subst second
    cases middle with
    | nil => exact short.isInfix
    | cons byte middle =>
      obtain ⟨same, _⟩ := List.cons_prefix_cons.mp (by simpa [ascii] using short)
      have member : slash ∈ chain := by
        rw [inside, ← same]
        simp [slash]
      exact absurd member noSlash

/-- A safe version is split off where the key puts it. -/
theorem find_versionedNodeKey (digits : Digits chain) (safe : VersionSafe version nodeKey) :
    nodesPattern.findStringSubmatch (versionedNodeKey chain version nodeKey) =
      some (chain ++ slash :: version, nodeKey) := by
  apply KeyPattern.findStringSubmatch_eq
  · have chainPlain := digits.plain
    have versionPlain := safe.versionPlain
    simp only [Plain, List.mem_append, List.mem_cons, not_or] at chainPlain versionPlain ⊢
    exact ⟨chainPlain, by decide, versionPlain⟩
  · exact safe.keyPlain
  · intro first second parts nonempty occurs
    exact safe.unmarked (marker_in_version digits.noSlash parts nonempty occurs)

/-- Trimming takes nothing before the chain. -/
theorem dropWhile_versioned (digits : Digits chain) (version : Bytes) :
    (chain ++ slash :: version).dropWhile (· == slash) = chain ++ slash :: version :=
  dropWhile_append_of_absent digits.1 digits.noSlash _

/-- Trimming slashes leaves the chain and, with a bare end, all of the version. -/
theorem normalize_versioned (digits : Digits chain) (bareEnd : ¬ [slash] <:+ version)
    (present : version ≠ []) :
    normalizeMultiVersionChainID (chain ++ slash :: version) = chain ++ 45 :: dashed version := by
  have stop : (chain ++ slash :: version).rdropWhile (· == slash) = chain ++ slash :: version := by
    simpa using rdropWhile_append_of_bare (chain ++ [slash]) present bareEnd
  rw [normalizeMultiVersionChainID_eq, dropWhile_versioned digits, stop]
  have parts : dashed (chain ++ slash :: version) = dashed chain ++ 45 :: dashed version := by
    simp [dashed]
  rw [parts, dashed_of_noSlash digits.noSlash]

/-- A trailing slash of the version is lost. -/
theorem length_normalize_of_slash (digits : Digits chain) (trailing : [slash] <:+ version) :
    (normalizeMultiVersionChainID (chain ++ slash :: version)).length <
      (chain ++ slash :: version).length := by
  obtain ⟨initial, rfl⟩ := trailing
  have whole : chain ++ slash :: (initial ++ [slash]) = (chain ++ slash :: initial) ++ [slash] := by
    simp
  rw [normalizeMultiVersionChainID_eq, length_dashed, dropWhile_versioned digits, whole,
    List.rdropWhile_concat_pos _ _ _ (by simp), List.length_append, List.length_singleton]
  exact Nat.lt_succ_of_le (List.rdropWhile_prefix _ _).length_le

/-- Where the chain id read from the key is long enough, the key was split at its marker. -/
theorem find_of_length (found : nodesPattern.findStringSubmatch
      (versionedNodeKey chain version nodeKey) = some (raw, sub))
    (long : (chain ++ slash :: version).length ≤ raw.length) :
    raw = chain ++ slash :: version ∧ sub = nodeKey := by
  obtain ⟨same, rawPlain, tail, shortest⟩ := KeyPattern.findStringSubmatch_some found
  have subPlain : Plain sub := tail
  unfold versionedNodeKey at same
  have early : chain ++ slash :: version <+: raw :=
    List.prefix_of_prefix_length_le ⟨nodesPattern.marker ++ nodeKey, by simpa using same⟩
      ⟨nodesPattern.marker ++ sub, by simp⟩ long
  obtain ⟨rest, rfl⟩ := early
  cases rest with
  | nil =>
    rw [List.append_nil] at same
    exact ⟨by simp, (List.append_cancel_left same).symm⟩
  | cons byte rest =>
    -- a longer chain group would have stopped at the key's own marker
    exfalso
    have behind : nodesPattern.marker ++ nodeKey =
        byte :: rest ++ nodesPattern.marker ++ sub := by
      simpa using same
    have keyPlain : Plain nodeKey := by
      have whole := plain_key_of_find (by decide) found
      exact fun member => whole (by simp [versionedNodeKey, member])
    have here := (nodesPattern.remainder_eq_some (nodesPattern.marker ++ nodeKey) nodeKey).mpr
      ⟨rfl, keyPlain⟩
    rw [behind, shortest _ (byte :: rest) rfl (by simp)] at here
    cases here

/-- A split at the key's own marker leaves no room for an earlier one. -/
theorem unmarked_of_find (found : nodesPattern.findStringSubmatch
      (versionedNodeKey chain version nodeKey) = some (chain ++ slash :: version, nodeKey)) :
    ¬ ascii "/nodes/" <:+: slash :: version ++ ascii "/nodes" := by
  obtain ⟨_, rawPlain, keyPlain, shortest⟩ := KeyPattern.findStringSubmatch_some found
  rintro ⟨before, after, same⟩
  have shorter : before.length < (slash :: version).length := by
    have lengths := congrArg List.length same
    simp [ascii] at lengths ⊢
    omega
  have start : before <+: slash :: version :=
    List.prefix_of_prefix_length_le ⟨ascii "/nodes/" ++ after, by simpa using same⟩
      ⟨ascii "/nodes", rfl⟩ shorter.le
  obtain ⟨second, parts⟩ := start
  have nonempty : second ≠ [] := by
    rintro rfl
    simp [← parts] at shorter
  have rest : second ++ ascii "/nodes" = ascii "/nodes/" ++ after := by
    rw [← parts] at same
    simpa using same.symm
  have here := (nodesPattern.remainder_eq_some (second ++ nodesPattern.marker ++ nodeKey)
    (after ++ slash :: nodeKey)).mpr ⟨?_, ?_⟩
  · rw [shortest (chain ++ before) second (by simp [parts]) nonempty] at here
    cases here
  · calc second ++ nodesPattern.marker ++ nodeKey
        = (second ++ ascii "/nodes") ++ slash :: nodeKey := by
          simp [nodesPattern, ascii, slash]
      _ = nodesPattern.marker ++ (after ++ slash :: nodeKey) := by
          rw [rest]
          simp [nodesPattern]
  · have afterPlain : Plain after := by
      intro member
      have inside : newline ∈ second ++ ascii "/nodes" := rest ▸ by simp [member]
      rcases List.mem_append.mp inside with early | late
      · exact rawPlain (by simp [← parts, early])
      · exact absurd late (by decide)
    have plain : Plain (after ++ slash :: nodeKey) := by
      have keyPlain : Plain nodeKey := keyPlain
      simp only [Plain, List.mem_append, List.mem_cons, not_or] at afterPlain keyPlain ⊢
      exact ⟨afterPlain, by decide, keyPlain⟩
    exact plain

end Match

/-- The split at the key's own marker fails only on a newline, which fails every pattern. -/
theorem parseKey_of_find_none
    (failed : nodesPattern.findStringSubmatch (versionedNodeKey chain version nodeKey) = none) :
    parseKey (versionedNodeKey chain version nodeKey) = (.unknown, [], []) := by
  refine classify_of_not_plain (fun plain => ?_) (by decide)
  have found := nodesPattern.findStringSubmatch_isSome (chain ++ slash :: version) nodeKey
    (fun member => plain (by simp [versionedNodeKey] at member ⊢; tauto))
    (fun member => plain (by simp [versionedNodeKey, member]))
  rw [versionedNodeKey] at failed
  rw [failed] at found
  cases found

/-- A chain group that is normalised to the router's chain is all of chain and version. -/
theorem versionSafe_of_find (digits : Digits chain)
    (found : nodesPattern.findStringSubmatch (versionedNodeKey chain version nodeKey) =
      some (raw, sub))
    (meets : chain ++ 45 :: dashed version = normalizeMultiVersionChainID raw) :
    VersionSafe version nodeKey := by
  have length := congrArg List.length meets
  simp only [List.length_append, List.length_cons, length_dashed] at length
  have long : (chain ++ slash :: version).length ≤ raw.length := by
    have shorter := length_normalize_le raw
    simp only [List.length_append, List.length_cons]
    omega
  obtain ⟨rfl, rfl⟩ := find_of_length found long
  have plain := plain_key_of_find (by decide) found
  refine ⟨fun member => plain (by simp [versionedNodeKey, member]),
    fun member => plain (by simp [versionedNodeKey, member]), fun trailing => ?_,
    unmarked_of_find found⟩
  have lost := length_normalize_of_slash digits trailing
  simp only [List.length_append, List.length_cons] at lost
  omega

theorem chain_of_find
    (found : nodesPattern.findStringSubmatch (versionedNodeKey chain version nodeKey) =
      some (raw, sub)) :
    (parseKey (versionedNodeKey chain version nodeKey)).2.1 = normalizeMultiVersionChainID raw := by
  simp [parseKey, keyPatterns, classify, found]

/-- A base chain resolves to the chain id of its version's nodes exactly when version and
node key are safe. -/
theorem resolve_meets_nodes_iff (router : ChainVersionRouter) {chain version : Bytes}
    (nodeKey : Bytes) (digits : Digits chain) (present : trimSpace version ≠ []) :
    (handleChainVersionUpdate router (some ⟨chain, version, .put⟩)).resolve chain =
        (parseKey (versionedNodeKey chain (trimSpace version) nodeKey)).2.1 ↔
      VersionSafe (trimSpace version) nodeKey := by
  rw [resolve_after_update router digits present]
  generalize trimSpace version = version at present
  constructor
  · intro meets
    cases found : nodesPattern.findStringSubmatch (versionedNodeKey chain version nodeKey) with
    | none => simp [parseKey_of_find_none found] at meets
    | some groups => exact versionSafe_of_find digits found (meets.trans (chain_of_find found))
  · intro safe
    rw [chain_of_find (find_versionedNodeKey digits safe),
      normalize_versioned digits safe.bareEnd present]

theorem resolve_meets_nodes_of_v1 :
    (handleChainVersionUpdate .new (some ⟨ascii "56", ascii " v1/rc ", .put⟩)).resolve (ascii "56") =
      (parseKey (versionedNodeKey (ascii "56") (trimSpace (ascii " v1/rc ")) (ascii "a"))).2.1 := by
  have digits : Digits (ascii "56") := ⟨by decide, List.all_iff_forall_prop.mp (by decide)⟩
  refine (resolve_meets_nodes_iff .new (ascii "a") digits (by decide +kernel)).mpr ?_
  have trimmed : trimSpace (ascii " v1/rc ") = ascii "v1/rc" := by decide +kernel
  rw [trimmed]
  exact ⟨by decide, by decide, by decide, by decide +kernel⟩

/-- A version that ends in a slash: the router keeps a dash for it, discovery trims it. -/
theorem trailing_slash_parts_router_and_nodes :
    (handleChainVersionUpdate .new (some ⟨ascii "56", ascii "v1/", .put⟩)).resolve (ascii "56") =
        ascii "56-v1-" ∧
      parseKey (ascii "56/" ++ trimSpace (ascii "v1/") ++ ascii "/nodes/" ++ ascii "a") =
        (.node, ascii "56-v1", ascii "a") := by
  decide +kernel

end NodexProxy.Lb
