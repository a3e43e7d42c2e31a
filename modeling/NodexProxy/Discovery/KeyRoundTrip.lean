import NodexProxy.Discovery.Key
import NodexProxy.Admin.Request

/-! Whether discovery reads back the keys the admin API writes. The chain group of every
pattern swallows the configured prefix, and a marker may occur before its own place. -/

namespace NodexProxy.Discovery

open NodexProxy.Foundation NodexProxy.Admin

/-- Everything a key consists of, apart from markers, that discovery needs to be
well-behaved: a prefix of slashes only, text without newlines, a chain id that the
prefix does not turn into a marker, and an address without a node marker. -/
structure KeySafe (keyPrefix chainId nodeKey address : Bytes) : Prop where
  slashes : ∀ byte ∈ keyPrefix, byte = slash
  chainPlain : Plain chainId
  nodePlain : Plain nodeKey
  addressPlain : Plain address
  unreserved : keyPrefix = [] ∨
    (chainId ≠ ascii "nodes" ∧ chainId ≠ ascii "nativeNodes" ∧ chainId ≠ ascii "mirror")
  unmarked : ¬ ascii "/nodes/" <:+: slash :: address ∧ ¬ ascii "/nativeNodes/" <:+: slash :: address

/-- A pattern whose marker is one path segment between slashes. -/
structure KeyPattern.Segment (pattern : KeyPattern) (word : Bytes) : Prop where
  hasSub : pattern.hasSub = true
  marker : pattern.marker = slash :: word ++ [slash]
  named : word ≠ []
  bare : slash ∉ word

theorem nodesPattern_segment : nodesPattern.Segment (ascii "nodes") :=
  ⟨rfl, rfl, by decide, by decide⟩

theorem nativeNodesPattern_segment : nativeNodesPattern.Segment (ascii "nativeNodes") :=
  ⟨rfl, rfl, by decide, by decide⟩

theorem mirrorPattern_segment : mirrorPattern.Segment (ascii "mirror") :=
  ⟨rfl, rfl, by decide, by decide⟩

section Marker

variable {keyPrefix chainId rest word : Bytes} {pattern : KeyPattern}

/-- Within a prefix of slashes and one path segment, a marker can only start at the
last slash, and then the segment is the marker's word. -/
theorem marker_before_chain (segment : pattern.Segment word)
    (slashes : ∀ byte ∈ keyPrefix, byte = slash) (noSlash : slash ∉ chainId)
    (parts : keyPrefix ++ chainId = first ++ second) (nonempty : second ≠ [])
    (occurs : pattern.marker <+: second ++ slash :: rest) :
    keyPrefix ≠ [] ∧ chainId = word := by
  have bare := segment.bare
  rw [segment.marker] at occurs
  rcases List.append_eq_append_iff.mp parts with ⟨middle, _, tail⟩ | ⟨middle, initial, tail⟩
  · -- `second` lies inside the segment, which has no slash
    cases second with
    | nil => exact absurd rfl nonempty
    | cons byte second =>
      obtain ⟨same, _⟩ := List.cons_prefix_cons.mp (by simpa using occurs)
      subst byte
      exact absurd (tail ▸ (by simp)) noSlash
  · subst second
    cases middle with
    | nil =>
      cases chainId with
      | nil => exact absurd rfl nonempty
      | cons byte chainId =>
        obtain ⟨same, _⟩ := List.cons_prefix_cons.mp (by simpa using occurs)
        subst byte
        simp at noSlash
    | cons byte middle =>
      obtain ⟨_, occurs⟩ := List.cons_prefix_cons.mp (by simpa using occurs)
      cases middle with
      | nil => exact ⟨by simp [initial], (segment_unique bare noSlash (by simpa using occurs)).symm⟩
      | cons other middle =>
        have isSlash : other = slash := slashes other (by simp [initial])
        cases word with
        | nil => exact absurd rfl segment.named
        | cons letter word =>
          obtain ⟨same, _⟩ := List.cons_prefix_cons.mp (by simpa using occurs)
          simp [same, isSlash] at bare

theorem infix_after_chain (segment : pattern.Segment word)
    (slashes : ∀ byte ∈ keyPrefix, byte = slash) (noSlash : slash ∉ chainId)
    (free : keyPrefix = [] ∨ chainId ≠ word)
    (occurs : pattern.marker <:+: keyPrefix ++ chainId ++ slash :: rest) :
    pattern.marker <:+: slash :: rest := by
  obtain ⟨before, after, same⟩ := occurs
  rw [List.append_assoc] at same
  rcases List.append_eq_append_iff.mp same with ⟨middle, parts, found⟩ | ⟨middle, _, found⟩
  · by_cases empty : middle = []
    · subst middle
      exact ⟨[], after, by simpa using found⟩
    · obtain ⟨prefixed, reserved⟩ :=
        marker_before_chain segment slashes noSlash parts empty ⟨after, found⟩
      rcases free with bareKey | other
      · exact absurd bareKey prefixed
      · exact absurd reserved other
  · exact ⟨middle, after, by rw [found]; simp⟩

/-- Slashes in front of a chain bring no line break. -/
theorem plain_behind_slashes (slashes : ∀ byte ∈ keyPrefix, byte = slash)
    (chainPlain : Plain chainId) : Plain (keyPrefix ++ chainId) := by
  intro member
  rcases List.mem_append.mp member with front | behind
  · exact absurd (slashes newline front) (by decide)
  · exact chainPlain behind

/-- With a segment the prefix does not turn into the marker, the split is at the segment's end. -/
theorem find_after_chain (segment : pattern.Segment word)
    (slashes : ∀ byte ∈ keyPrefix, byte = slash) (noSlash : slash ∉ chainId)
    (free : keyPrefix = [] ∨ chainId ≠ word) (chainPlain : Plain chainId) (plain : Plain sub) :
    pattern.findStringSubmatch (keyPrefix ++ chainId ++ pattern.marker ++ sub) =
      some (keyPrefix ++ chainId, sub) := by
  apply KeyPattern.findStringSubmatch_eq
  · exact plain_behind_slashes slashes chainPlain
  · simpa [segment.hasSub] using plain
  · intro first second parts nonempty occurs
    have early : pattern.marker <+: second ++ slash :: (word ++ slash :: sub) := by
      simpa [segment.marker] using occurs
    obtain ⟨prefixed, reserved⟩ := marker_before_chain segment slashes noSlash parts nonempty early
    rcases free with bareKey | other
    · exact prefixed bareKey
    · exact other reserved

/-- The other way round: the split that is found is the shortest. -/
theorem reserved_of_find (segment : pattern.Segment word)
    (slashes : ∀ byte ∈ keyPrefix, byte = slash)
    (found : pattern.findStringSubmatch (keyPrefix ++ chainId ++ pattern.marker ++ sub) =
      some (keyPrefix ++ chainId, sub)) :
    keyPrefix = [] ∨ chainId ≠ word := by
  obtain ⟨_, chainPlain, tail, shortest⟩ := KeyPattern.findStringSubmatch_some found
  rcases List.eq_nil_or_concat keyPrefix with empty | ⟨initial, last, parts⟩
  · exact .inl empty
  · right
    rintro rfl
    have isSlash : last = slash := slashes last (by simp [parts])
    subst last
    have nothing := shortest initial (slash :: chainId) (by simp [parts]) (by simp)
    have here := (pattern.remainder_eq_some (slash :: chainId ++ pattern.marker ++ sub)
      (chainId ++ [slash] ++ sub)).mpr ⟨by simp [segment.marker], by
        simp only [segment.hasSub, if_true, Plain, List.mem_append, not_or] at tail chainPlain ⊢
        exact ⟨⟨chainPlain.2, by decide⟩, tail⟩⟩
    rw [nothing] at here
    cases here

/-- A prefix that ends in a slash turns the segment into a marker. -/
theorem find_isSome_of_reserved (segment : pattern.Segment chainId)
    (slashes : ∀ byte ∈ keyPrefix, byte = slash) (prefixed : keyPrefix ≠ []) (plain : Plain rest) :
    (pattern.findStringSubmatch (keyPrefix ++ chainId ++ slash :: rest)).isSome = true := by
  rcases List.eq_nil_or_concat keyPrefix with empty | ⟨initial, last, parts⟩
  · exact absurd empty prefixed
  · have isSlash : last = slash := slashes last (by simp [parts])
    have split : keyPrefix ++ chainId ++ slash :: rest = initial ++ pattern.marker ++ rest := by
      simp [parts, isSlash, segment.marker]
    rw [split]
    refine pattern.findStringSubmatch_isSome initial rest ?_ (by simpa [segment.hasSub] using plain)
    exact fun member => absurd (slashes newline (by simp [parts, member])) (by decide)

end Marker

/-- The chain id survives normalisation exactly behind a prefix of slashes. -/
theorem normalize_eq_iff {keyPrefix chainId : Bytes} (named : chainId ≠ [])
    (noSlash : slash ∉ chainId) :
    normalizeMultiVersionChainID (keyPrefix ++ chainId) = chainId ↔
      ∀ byte ∈ keyPrefix, byte = slash := by
  have bare : ¬ [slash] <:+ chainId := fun ending => noSlash (ending.subset (by simp))
  have ends := fun front => rdropWhile_append_of_bare front named bare
  have start : chainId.dropWhile (· == slash) = chainId := by
    simpa using dropWhile_append_of_absent named noSlash []
  constructor
  · intro same
    by_contra other
    have remains : keyPrefix.dropWhile (· == slash) ≠ [] := by
      intro empty
      exact other (by simpa using List.dropWhile_eq_nil_iff.mp empty)
    unfold normalizeMultiVersionChainID at same
    rw [List.dropWhile_append, if_neg (by simpa using remains), ends] at same
    have lengths := congrArg List.length same
    have positive := List.length_pos_of_ne_nil remains
    simp only [List.length_map, List.length_append] at lengths
    omega
  · intro slashes
    have empty : keyPrefix.dropWhile (· == slash) = [] :=
      List.dropWhile_eq_nil_iff.mpr (by simpa using slashes)
    unfold normalizeMultiVersionChainID
    rw [List.dropWhile_append, if_pos (by simp [empty]), start]
    have whole := ends []
    simp only [List.nil_append] at whole
    rw [whole, map_replace_of_absent noSlash]

/-! What each kind says about the patterns tried before it. -/

theorem parseKey_node (found : parseKey key = (.node, chain, sub)) :
    ∃ raw, nodesPattern.findStringSubmatch key = some (raw, sub) ∧
      normalizeMultiVersionChainID raw = chain := by
  simp only [parseKey, keyPatterns, classify] at found
  repeat' split at found
  all_goals cases found
  exact ⟨_, ‹_›, rfl⟩

theorem parseKey_gateway (found : parseKey key = (.gateway, chain, sub)) :
    nodesPattern.findStringSubmatch key = none ∧ nativeNodesPattern.findStringSubmatch key = none ∧
      ∃ raw, gateWayPattern.findStringSubmatch key = some (raw, sub) ∧
        normalizeMultiVersionChainID raw = chain := by
  simp only [parseKey, keyPatterns, classify] at found
  repeat' split at found
  all_goals cases found
  exact ⟨‹_›, ‹_›, _, ‹_›, rfl⟩

theorem parseKey_mirror (found : parseKey key = (.mirror, chain, sub)) :
    nodesPattern.findStringSubmatch key = none ∧ nativeNodesPattern.findStringSubmatch key = none ∧
      ∃ raw, mirrorPattern.findStringSubmatch key = some (raw, sub) ∧
        normalizeMultiVersionChainID raw = chain := by
  simp only [parseKey, keyPatterns, classify] at found
  repeat' split at found
  all_goals cases found
  exact ⟨‹_›, ‹_›, _, ‹_›, rfl⟩

/-- An accepted port is written with digits only. -/
theorem itoa_port {mirror : MirrorRequest} (accepted : mirror.validate = none) :
    itoa mirror.port = decimal mirror.port.natAbs := by
  have positive : ¬ mirror.port < 0 := by
    intro negative
    simp only [MirrorRequest.validate] at accepted
    split at accepted
    · cases accepted
    · rw [if_pos (by omega)] at accepted
      cases accepted
  exact if_neg positive

/-- The port part of a mirror key holds neither a slash nor a newline. -/
theorem port_bytes {mirror : MirrorRequest} (accepted : mirror.validate = none)
    (member : byte ∈ ascii ":" ++ itoa mirror.port) : byte ≠ slash ∧ byte ≠ newline := by
  rcases List.mem_append.mp member with colon | digits
  · have same : byte = 58 := by simpa [ascii] using colon
    subst byte
    decide
  · rw [itoa_port accepted] at digits
    obtain ⟨lower, _⟩ := decimal_digits _ digits
    constructor <;> (rintro rfl; exact absurd lower (by decide))

/-- In a mirror key, a node marker behind the chain lies in the address. -/
theorem marker_in_address {pattern : KeyPattern} (segment : pattern.Segment word)
    (other : ascii "mirror" ≠ word) (noSlash : slash ∉ port)
    (occurs : pattern.marker <:+: slash :: (ascii "mirror/" ++ (address ++ port))) :
    pattern.marker <:+: slash :: address := by
  have split : slash :: (ascii "mirror/" ++ (address ++ port)) =
      [slash] ++ ascii "mirror" ++ slash :: (address ++ port) := rfl
  rw [split] at occurs
  have behind := infix_after_chain segment (by simp) (by decide) (.inr other) occurs
  rw [segment.marker] at behind ⊢
  exact infix_of_infix_append (slash :: word) noSlash (by simpa using behind)

section RoundTrip

variable {keyPrefix chainId nodeKey : Bytes} {mirror : MirrorRequest}

theorem parseKey_nodeEtcdKey (named : chainId ≠ []) (noSlash : slash ∉ chainId)
    (safe : KeySafe keyPrefix chainId nodeKey address) :
    parseKey (nodeEtcdKey keyPrefix chainId nodeKey) = (.node, chainId, nodeKey) := by
  have found : nodesPattern.findStringSubmatch (nodeEtcdKey keyPrefix chainId nodeKey) =
      some (keyPrefix ++ chainId, nodeKey) :=
    find_after_chain nodesPattern_segment safe.slashes noSlash
      (safe.unreserved.imp_right And.left) safe.chainPlain safe.nodePlain
  simp only [parseKey, keyPatterns, classify, found]
  rw [(normalize_eq_iff named noSlash).mpr safe.slashes]
  rfl

/-- Neither node pattern matches a key whose chain is not reserved and whose rest holds
no node marker. -/
theorem node_patterns_none (rest : Bytes) (noSlash : slash ∉ chainId)
    (safe : KeySafe keyPrefix chainId nodeKey address)
    (nodes : ¬ nodesPattern.marker <:+: slash :: rest)
    (natives : ¬ nativeNodesPattern.marker <:+: slash :: rest) :
    nodesPattern.findStringSubmatch (keyPrefix ++ chainId ++ slash :: rest) = none ∧
      nativeNodesPattern.findStringSubmatch (keyPrefix ++ chainId ++ slash :: rest) = none := by
  constructor
  · apply KeyPattern.findStringSubmatch_none
    exact fun occurs => nodes (infix_after_chain nodesPattern_segment safe.slashes noSlash
      (safe.unreserved.imp_right And.left) occurs)
  · apply KeyPattern.findStringSubmatch_none
    exact fun occurs => natives (infix_after_chain nativeNodesPattern_segment safe.slashes noSlash
      (safe.unreserved.imp_right fun free => free.2.1) occurs)

theorem parseKey_gatewayKey (named : chainId ≠ []) (noSlash : slash ∉ chainId)
    (safe : KeySafe keyPrefix chainId nodeKey address) :
    parseKey (gatewayKey keyPrefix chainId) = (.gateway, chainId, []) := by
  have key : gatewayKey keyPrefix chainId = keyPrefix ++ chainId ++ slash :: ascii "gateway" := rfl
  -- a node marker has two slashes, the gateway suffix has one
  obtain ⟨nodes, natives⟩ := node_patterns_none (ascii "gateway") noSlash safe
    (fun occurs => absurd (occurs.sublist.count_le slash) (by decide))
    (fun occurs => absurd (occurs.sublist.count_le slash) (by decide))
  have height : lastBlockPattern.findStringSubmatch (gatewayKey keyPrefix chainId) = none := by
    apply KeyPattern.findStringSubmatch_none_of_suffix rfl
    intro suffix
    have last := List.IsSuffix.getLast suffix (by decide)
    simp [lastBlockPattern, gatewayKey, ascii] at last
  have plain := plain_behind_slashes safe.slashes safe.chainPlain
  have found : gateWayPattern.findStringSubmatch (gatewayKey keyPrefix chainId) =
      some (keyPrefix ++ chainId, []) :=
    KeyPattern.findStringSubmatch_bare gateWayPattern rfl plain
  rw [← key] at nodes natives
  simp only [parseKey, keyPatterns, classify, nodes, natives, height, found]
  rw [(normalize_eq_iff named noSlash).mpr safe.slashes]
  rfl

/-- The mirror key with its segments apart. -/
theorem mirrorEtcdKey_eq : mirrorEtcdKey keyPrefix chainId mirror.addrKey = keyPrefix ++ chainId ++
    slash :: (ascii "mirror/" ++ (mirror.address ++ (ascii ":" ++ itoa mirror.port))) := by
  simp [mirrorEtcdKey, MirrorRequest.addrKey, ascii, slash]

/-- Behind a mirror key stands a port, so a pattern that ends the key in a letter fails. -/
theorem bare_pattern_none_mirror (keyPrefix chainId : Bytes) (pattern : KeyPattern)
    (bare : pattern.hasSub = false) (nonempty : pattern.marker ≠ [])
    (letter : 57 < pattern.marker.getLast nonempty)
    (accepted : mirror.validate = none) :
    pattern.findStringSubmatch (mirrorEtcdKey keyPrefix chainId mirror.addrKey) = none := by
  apply KeyPattern.findStringSubmatch_none_of_suffix bare
  intro suffix
  have last := List.IsSuffix.getLast suffix nonempty
  simp only [mirrorEtcdKey, MirrorRequest.addrKey, itoa_port accepted, ← List.append_assoc] at last
  rw [List.getLast_append_of_ne_nil _ (decimal_ne_nil _)] at last
  obtain ⟨_, digit⟩ := decimal_digits _ (last ▸ List.getLast_mem (decimal_ne_nil _))
  exact absurd letter (by simpa using digit)

theorem parseKey_mirrorEtcdKey (named : chainId ≠ []) (noSlash : slash ∉ chainId)
    (accepted : mirror.validate = none)
    (safe : KeySafe keyPrefix chainId nodeKey mirror.address) :
    parseKey (mirrorEtcdKey keyPrefix chainId mirror.addrKey) =
      (.mirror, chainId, mirror.addrKey) := by
  have noPort : slash ∉ ascii ":" ++ itoa mirror.port :=
    fun member => (port_bytes accepted member).1 rfl
  obtain ⟨nodes, natives⟩ := node_patterns_none _ noSlash safe
    (fun occurs => safe.unmarked.1 (marker_in_address nodesPattern_segment (by decide) noPort occurs))
    (fun occurs => safe.unmarked.2 
      (marker_in_address nativeNodesPattern_segment (by decide) noPort occurs))
  rw [← mirrorEtcdKey_eq] at nodes natives
  have found : mirrorPattern.findStringSubmatch (mirrorEtcdKey keyPrefix chainId mirror.addrKey) =
      some (keyPrefix ++ chainId, mirror.addrKey) := by
    refine find_after_chain mirrorPattern_segment safe.slashes noSlash
      (safe.unreserved.imp_right fun free => free.2.2) safe.chainPlain ?_
    intro member
    rw [MirrorRequest.addrKey, List.append_assoc] at member
    rcases List.mem_append.mp member with inside | port
    · exact safe.addressPlain inside
    · exact (port_bytes accepted port).2 rfl
  have height := bare_pattern_none_mirror keyPrefix chainId lastBlockPattern rfl (by decide)
    (by decide) accepted
  have gateway := bare_pattern_none_mirror keyPrefix chainId gateWayPattern rfl (by decide)
    (by decide) accepted
  simp only [parseKey, keyPatterns, classify, nodes, natives, height, gateway, found]
  rw [(normalize_eq_iff named noSlash).mpr safe.slashes]
  rfl

/-- A split with the expected sub group has the expected chain group. -/
theorem plain_of_find {pattern : KeyPattern} (hasSub : pattern.hasSub = true)
    (found : pattern.findStringSubmatch (keyPrefix ++ chainId ++ pattern.marker ++ sub) =
      some (raw, sub)) : raw = keyPrefix ++ chainId ∧ Plain chainId ∧ Plain sub := by
  obtain ⟨split, plain, tail, _⟩ := KeyPattern.findStringSubmatch_some found
  have same := List.append_cancel_right (List.append_cancel_right split)
  subst same
  simp only [hasSub, if_true] at tail
  exact ⟨rfl, fun member => plain (List.mem_append_right _ member), tail⟩

/-- A node marker in the address would be found before the mirror marker. -/
theorem address_unmarked {pattern : KeyPattern} (hasSub : pattern.hasSub = true)
    (plainPrefix : Plain (keyPrefix ++ chainId)) (plain : Plain mirror.addrKey)
    (nothing : pattern.findStringSubmatch
      (mirrorEtcdKey keyPrefix chainId mirror.addrKey) = none) :
    ¬ pattern.marker <:+: slash :: mirror.address := by
  rintro ⟨before, after, same⟩
  have split : mirrorEtcdKey keyPrefix chainId mirror.addrKey = keyPrefix ++ chainId ++
      ascii "/mirror" ++ before ++ pattern.marker ++ (after ++ (ascii ":" ++ itoa mirror.port)) := by
    have key : mirrorEtcdKey keyPrefix chainId mirror.addrKey = keyPrefix ++ chainId ++
        ascii "/mirror" ++ (slash :: mirror.address) ++ (ascii ":" ++ itoa mirror.port) := by
      simp [mirrorEtcdKey, MirrorRequest.addrKey, ascii, slash]
    rw [key, ← same]
    simp
  have inside : ∀ byte ∈ before ++ pattern.marker ++ after, byte ≠ newline := by
    rw [same]
    intro byte member
    rcases List.mem_cons.mp member with rfl | member
    · decide
    · rintro rfl
      exact plain (by simp [MirrorRequest.addrKey, member])
  have found := pattern.findStringSubmatch_isSome
    (keyPrefix ++ chainId ++ ascii "/mirror" ++ before) (after ++ (ascii ":" ++ itoa mirror.port))
    (by
      intro member
      rcases List.mem_append.mp member with member | member
      · rcases List.mem_append.mp member with member | member
        · exact plainPrefix member
        · exact absurd member (by decide)
      · exact inside newline (by simp [member]) rfl)
    (by
      simp only [hasSub, if_true]
      intro member
      rcases List.mem_append.mp member with member | member
      · exact inside newline (by simp [member]) rfl
      · exact plain (by
          rw [MirrorRequest.addrKey, List.append_assoc]
          exact List.mem_append_right _ member))
  rw [← split, nothing] at found
  cases found

/-- What reading all three keys back says about their parts. -/
theorem keySafe_of_round_trip (named : chainId ≠ []) (noSlash : slash ∉ chainId)
    (node : parseKey (nodeEtcdKey keyPrefix chainId nodeKey) = (.node, chainId, nodeKey))
    (gateway : parseKey (gatewayKey keyPrefix chainId) = (.gateway, chainId, []))
    (mirrored : parseKey (mirrorEtcdKey keyPrefix chainId mirror.addrKey) =
      (.mirror, chainId, mirror.addrKey)) :
    KeySafe keyPrefix chainId nodeKey mirror.address := by
  obtain ⟨raw, foundNode, normal⟩ := parseKey_node node
  obtain ⟨same, chainPlain, nodePlain⟩ := plain_of_find nodesPattern_segment.hasSub foundNode
  subst same
  have slashes := (normalize_eq_iff named noSlash).mp normal
  have notNodes := reserved_of_find nodesPattern_segment slashes foundNode
  obtain ⟨noNodes, noNatives, raw, foundMirror, _⟩ := parseKey_mirror mirrored
  obtain ⟨same, _, addrPlain⟩ := plain_of_find mirrorPattern_segment.hasSub foundMirror
  subst same
  have notMirror := reserved_of_find mirrorPattern_segment slashes foundMirror
  obtain ⟨_, gatewayNatives, _⟩ := parseKey_gateway gateway
  have notNatives : keyPrefix = [] ∨ chainId ≠ ascii "nativeNodes" := by
    by_contra reserved
    obtain ⟨prefixed, same⟩ := not_or.mp reserved
    have reserves : nativeNodesPattern.Segment chainId := by
      rw [not_not.mp same]
      exact nativeNodesPattern_segment
    have found : (nativeNodesPattern.findStringSubmatch
        (keyPrefix ++ chainId ++ slash :: ascii "gateway")).isSome = true :=
      find_isSome_of_reserved reserves slashes prefixed (by decide)
    rw [show keyPrefix ++ chainId ++ slash :: ascii "gateway" = gatewayKey keyPrefix chainId from rfl,
      gatewayNatives] at found
    cases found
  have plainPrefix := plain_behind_slashes slashes chainPlain
  exact {
    slashes
    chainPlain
    nodePlain
    addressPlain := fun member => addrPlain (by simp [MirrorRequest.addrKey, member])
    unreserved := by tauto
    unmarked := ⟨address_unmarked nodesPattern_segment.hasSub plainPrefix addrPlain noNodes,
      address_unmarked nativeNodesPattern_segment.hasSub plainPrefix addrPlain noNatives⟩ }

/-- Discovery reads back what the admin API writes for a chain exactly when the configured
prefix is made of slashes and no part of a key poses as a marker. -/
theorem keys_round_trip_iff (keyPrefix chainId nodeKey : Bytes) (mirror : MirrorRequest)
    (named : chainId ≠ []) (noSlash : slash ∉ chainId)
    (accepted : mirror.validate = none) :
    (parseKey (nodeEtcdKey keyPrefix chainId nodeKey) = (.node, chainId, nodeKey) ∧
      parseKey (gatewayKey keyPrefix chainId) = (.gateway, chainId, []) ∧
      parseKey (mirrorEtcdKey keyPrefix chainId mirror.addrKey) =
        (.mirror, chainId, mirror.addrKey)) ↔
      KeySafe keyPrefix chainId nodeKey mirror.address := by
  constructor
  · rintro ⟨node, gateway, mirrored⟩
    exact keySafe_of_round_trip named noSlash node gateway mirrored
  · intro safe
    exact ⟨parseKey_nodeEtcdKey named noSlash safe, parseKey_gatewayKey named noSlash safe,
      parseKey_mirrorEtcdKey named noSlash accepted safe⟩

theorem keys_round_trip_bare_slash :
    parseKey (nodeEtcdKey (ascii "/") (ascii "1") (ascii "node1")) =
      (.node, ascii "1", ascii "node1") ∧
    parseKey (gatewayKey (ascii "/") (ascii "1")) = (.gateway, ascii "1", []) ∧
    parseKey (mirrorEtcdKey (ascii "/") (ascii "1") (MirrorRequest.addrKey ⟨ascii "m", 80, none⟩)) =
      (.mirror, ascii "1", MirrorRequest.addrKey ⟨ascii "m", 80, none⟩) :=
  (keys_round_trip_iff (ascii "/") (ascii "1") (ascii "node1") ⟨ascii "m", 80, none⟩ (by decide)
    (by decide) (by decide)).mpr {
      slashes := List.all_iff_forall_prop.mp (by decide)
      chainPlain := by decide
      nodePlain := by decide
      addressPlain := by decide
      unreserved := by decide
      unmarked := ⟨fun occurs => absurd (occurs.sublist.count_le slash) (by decide),
        fun occurs => absurd (occurs.sublist.count_le slash) (by decide)⟩ }

/-- The prefix of the deployment guide moves every record to another chain. -/
theorem prefixed_keys_change_chain :
    MirrorRequest.validate ⟨ascii "m", 80, none⟩ = none ∧
    parseKey (nodeEtcdKey (ascii "/myprefix/") (ascii "1") (ascii "node1")) =
      (.node, ascii "myprefix-1", ascii "node1") ∧
    parseKey (gatewayKey (ascii "/myprefix/") (ascii "1")) = (.gateway, ascii "myprefix-1", []) ∧
    (parseKey (mirrorEtcdKey (ascii "/myprefix/") (ascii "1")
      (MirrorRequest.addrKey ⟨ascii "m", 80, none⟩))).2.1 = ascii "myprefix-1" ∧
    ascii "myprefix-1" ≠ ascii "1" := by
  decide

end RoundTrip

end NodexProxy.Discovery
