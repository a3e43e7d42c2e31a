import NodexProxy.Discovery.Types
import Mathlib

/-! How discovery reads an etcd key. The six patterns all have the shape
`^(?P<chain>.*?)MARKER(?P<sub>.*?)$`, the second group being absent in three of them. -/

namespace NodexProxy.Discovery

open NodexProxy.Foundation

inductive KeyKind where
  | unknown
  | node
  | nativeNode
  | height
  | gateway
  | mirror
  | version
deriving DecidableEq, Repr

def newline : UInt8 := 10

def slash : UInt8 := 47

/-- Text the dot matches: anything but a newline. -/
def Plain (text : Bytes) : Prop := newline ∉ text

instance (text : Bytes) : Decidable (Plain text) := inferInstanceAs (Decidable (newline ∉ text))

structure KeyPattern where
  kind : KeyKind
  marker : Bytes
  hasSub : Bool

/-- The pattern after the chain group: the marker, then the sub group up to the end. -/
def KeyPattern.remainder (pattern : KeyPattern) (text : Bytes) : Option Bytes :=
  if pattern.marker <+: text then
    let sub := text.drop pattern.marker.length
    if (if pattern.hasSub then Plain sub else sub = []) then some sub else none
  else none

/-- `FindStringSubmatch`, giving the chain and the sub group. The chain group is not
greedy: it takes one more byte only where the remainder does not match. -/
def KeyPattern.findStringSubmatch (pattern : KeyPattern) (text : Bytes) : Option (Bytes × Bytes) :=
  match pattern.remainder text with
  | some sub => some ([], sub)
  | none =>
    match text with
    | [] => none
    | byte :: rest =>
      if byte = newline then none
      else (pattern.findStringSubmatch rest).map fun (chain, sub) => (byte :: chain, sub)

def nodesPattern : KeyPattern := ⟨.node, ascii "/nodes/", true⟩

def nativeNodesPattern : KeyPattern := ⟨.nativeNode, ascii "/nativeNodes/", true⟩

def lastBlockPattern : KeyPattern := ⟨.height, ascii "/lastBlockNumber", false⟩

def gateWayPattern : KeyPattern := ⟨.gateway, ascii "/gateway", false⟩

def mirrorPattern : KeyPattern := ⟨.mirror, ascii "/mirror/", true⟩

def versionPattern : KeyPattern := ⟨.version, ascii "/version", false⟩

def normalizeMultiVersionChainID (raw : Bytes) : Bytes :=
  let raw := (raw.dropWhile (· == slash)).rdropWhile (· == slash)
  raw.map fun byte => if byte = slash then 45 else byte

/-- Try the patterns in order. Without a sub group the third result is empty. -/
def classify (key : Bytes) : List KeyPattern → KeyKind × Bytes × Bytes
  | [] => (.unknown, [], [])
  | pattern :: rest =>
    match pattern.findStringSubmatch key with
    | none => classify key rest
    | some (chain, sub) => (pattern.kind, normalizeMultiVersionChainID chain, sub)

def keyPatterns : List KeyPattern :=
  [nodesPattern, nativeNodesPattern, lastBlockPattern, gateWayPattern, mirrorPattern, versionPattern]

def parseKey (key : Bytes) : KeyKind × Bytes × Bytes := classify key keyPatterns

theorem KeyPattern.remainder_eq_some (pattern : KeyPattern) (text sub : Bytes) :
    pattern.remainder text = some sub ↔
      text = pattern.marker ++ sub ∧ (if pattern.hasSub then Plain sub else sub = []) := by
  unfold KeyPattern.remainder
  constructor
  · intro found
    obtain ⟨⟨rest, same⟩, found⟩ := Option.ite_none_right_eq_some.mp found
    obtain ⟨tail, found⟩ := Option.ite_none_right_eq_some.mp found
    subst text
    simp only [List.drop_left, Option.some.injEq] at tail found
    subst sub
    exact ⟨rfl, tail⟩
  · rintro ⟨rfl, tail⟩
    simp only [List.prefix_append, if_true, List.drop_left]
    exact if_pos tail

theorem KeyPattern.findStringSubmatch_here {pattern : KeyPattern}
    (here : pattern.remainder text = some sub) :
    pattern.findStringSubmatch text = some ([], sub) := by
  rw [KeyPattern.findStringSubmatch.eq_def, here]

theorem KeyPattern.findStringSubmatch_later {pattern : KeyPattern}
    (nothing : pattern.remainder (byte :: rest) = none) (visible : byte ≠ newline) :
    pattern.findStringSubmatch (byte :: rest) =
      (pattern.findStringSubmatch rest).map fun (chain, sub) => (byte :: chain, sub) := by
  rw [KeyPattern.findStringSubmatch, nothing]
  exact if_neg visible

/-- A match splits the key at the first place where the remainder matches. -/
theorem KeyPattern.findStringSubmatch_some {pattern : KeyPattern}
    (found : pattern.findStringSubmatch text = some (chain, sub)) :
    text = chain ++ pattern.marker ++ sub ∧ Plain chain ∧
      (if pattern.hasSub then Plain sub else sub = []) ∧
      ∀ first second, chain = first ++ second → second ≠ [] →
        pattern.remainder (second ++ pattern.marker ++ sub) = none := by
  induction text generalizing chain with
  | nil =>
    rw [KeyPattern.findStringSubmatch] at found
    split at found
    · rename_i rest here
      cases found
      obtain ⟨same, tail⟩ := (pattern.remainder_eq_some _ _).mp here
      exact ⟨by simpa using same, by simp [Plain], tail, by simp⟩
    · cases found
  | cons byte rest ih =>
    rw [KeyPattern.findStringSubmatch] at found
    split at found
    · rename_i here
      cases found
      obtain ⟨same, tail⟩ := (pattern.remainder_eq_some _ _).mp here
      exact ⟨by simpa using same, by simp [Plain], tail, by simp⟩
    · rename_i nothing
      split at found
      · cases found
      · rename_i visible
        obtain ⟨⟨tailChain, tailSub⟩, tailFound, same⟩ := Option.map_eq_some_iff.mp found
        cases same
        obtain ⟨split, plain, tail, shortest⟩ := ih tailFound
        refine ⟨by simp [split], ?_, tail, ?_⟩
        · simpa [Plain, Ne.symm visible] using plain
        · intro first second parts nonempty
          cases first with
          | nil =>
            simp only [List.nil_append] at parts
            rw [← parts]
            simpa [split] using nothing
          | cons head first =>
            simp only [List.cons_append, List.cons.injEq] at parts
            exact shortest first second parts.2 nonempty

/-- Where the key splits around the marker, the pattern matches somewhere. -/
theorem KeyPattern.findStringSubmatch_isSome (pattern : KeyPattern) (chain sub : Bytes)
    (plain : Plain chain) (tail : if pattern.hasSub then Plain sub else sub = []) :
    (pattern.findStringSubmatch (chain ++ pattern.marker ++ sub)).isSome = true := by
  induction chain with
  | nil =>
    rw [List.nil_append,
      KeyPattern.findStringSubmatch_here ((pattern.remainder_eq_some _ _).mpr ⟨rfl, tail⟩)]
    rfl
  | cons byte rest ih =>
    simp only [Plain, List.mem_cons, not_or] at plain
    simp only [List.cons_append]
    cases here : pattern.remainder (byte :: (rest ++ pattern.marker ++ sub)) with
    | some found =>
      rw [KeyPattern.findStringSubmatch_here here]
      rfl
    | none =>
      rw [KeyPattern.findStringSubmatch_later here (Ne.symm plain.1), Option.isSome_map]
      exact ih plain.2

/-- The split is found as given when no earlier place matches. -/
theorem KeyPattern.findStringSubmatch_eq {pattern : KeyPattern} (chain sub : Bytes)
    (plain : Plain chain) (tail : if pattern.hasSub then Plain sub else sub = [])
    (shortest : ∀ first second, chain = first ++ second → second ≠ [] →
      ¬ pattern.marker <+: second ++ pattern.marker ++ sub) :
    pattern.findStringSubmatch (chain ++ pattern.marker ++ sub) = some (chain, sub) := by
  induction chain with
  | nil =>
    exact KeyPattern.findStringSubmatch_here ((pattern.remainder_eq_some _ _).mpr ⟨rfl, tail⟩)
  | cons byte rest ih =>
    simp only [Plain, List.mem_cons, not_or] at plain
    have nothing : pattern.remainder (byte :: rest ++ pattern.marker ++ sub) = none := by
      unfold KeyPattern.remainder
      exact if_neg (shortest [] (byte :: rest) rfl (by simp))
    have later := ih plain.2 fun first second parts nonempty =>
      shortest (byte :: first) second (by simp [parts]) nonempty
    simp only [List.cons_append] at nothing ⊢
    rw [KeyPattern.findStringSubmatch_later nothing (Ne.symm plain.1), later]
    rfl

/-- The pattern fails where the marker does not occur. -/
theorem KeyPattern.findStringSubmatch_none {pattern : KeyPattern}
    (absent : ¬ pattern.marker <:+: text) : pattern.findStringSubmatch text = none := by
  cases found : pattern.findStringSubmatch text with
  | none => rfl
  | some match' =>
    obtain ⟨split, _⟩ := KeyPattern.findStringSubmatch_some found
    exact absurd ⟨match'.1, match'.2, split.symm⟩ absent

/-- Without a sub group the marker has to end the key. -/
theorem KeyPattern.findStringSubmatch_none_of_suffix {pattern : KeyPattern}
    (bare : pattern.hasSub = false) (absent : ¬ pattern.marker <:+ text) :
    pattern.findStringSubmatch text = none := by
  cases found : pattern.findStringSubmatch text with
  | none => rfl
  | some match' =>
    obtain ⟨split, _, tail, _⟩ := KeyPattern.findStringSubmatch_some found
    simp only [bare, Bool.false_eq_true, if_false] at tail
    exact absurd ⟨match'.1, by simpa [tail] using split.symm⟩ absent

/-- A pattern without a sub group has one way to split a key. -/
theorem KeyPattern.findStringSubmatch_bare (pattern : KeyPattern) (bare : pattern.hasSub = false)
    (plain : Plain chain) :
    pattern.findStringSubmatch (chain ++ pattern.marker) = some (chain, []) := by
  have some := pattern.findStringSubmatch_isSome chain [] plain (by simp [bare])
  rw [List.append_nil] at some
  obtain ⟨⟨raw, sub⟩, found⟩ := Option.isSome_iff_exists.mp some
  obtain ⟨split, _, tail, _⟩ := KeyPattern.findStringSubmatch_some found
  simp only [bare, Bool.false_eq_true, if_false] at tail
  subst sub
  rw [List.append_nil] at split
  rw [found, List.append_cancel_right split]

end NodexProxy.Discovery
