import NodexProxy.Foundation.Bytes

/-! Chain identifiers: how the path parameter of a request names the chain whose pools serve it. -/

namespace NodexProxy.Lb

open NodexProxy.Foundation

def digitValue (byte : UInt8) : Option Nat :=
  if 48 ≤ byte ∧ byte ≤ 57 then some (byte.toNat - 48)
  else if 97 ≤ byte ∧ byte ≤ 122 then some (byte.toNat - 97 + 10)
  else if 65 ≤ byte ∧ byte ≤ 90 then some (byte.toNat - 65 + 10)
  else none

def parseDigits (base : Nat) (text : Bytes) : Option Nat :=
  text.foldlM (fun number byte => do
    let digit ← digitValue byte
    if digit < base then return number * base + digit else none) 0

/-- `strconv.ParseInt(text, base, 64)` for a base that is given. -/
def parseInt (base : Nat) (text : Bytes) : Option Int := do
  let (negative, digits) := match text with
    | 43 :: digits => (false, digits)
    | 45 :: digits => (true, digits)
    | digits => (false, digits)
  if digits = [] then none
  else
    let number ← parseDigits base digits
    if negative then
      if number ≤ 2 ^ 63 then return -(number : Int) else none
    else
      if number < 2 ^ 63 then return (number : Int) else none

def parseNumber (text : Bytes) : Option Int :=
  match trimSpace text with
  | 48 :: 120 :: digits => parseInt 16 digits
  | 48 :: 88 :: digits => parseInt 16 digits
  | digits => parseInt 10 digits

def normalizeChainID (chainID : Bytes) : Bytes :=
  let chainID := trimSpace chainID
  if chainID = [] then []
  else
    match parseNumber chainID with
    | some number => itoa number
    | none => chainID

/-- The base chain, the version after the first dash, and the identifier itself. -/
def splitChainIdentifier (chainID : Bytes) : Bytes × Bytes × Bytes :=
  let trimmed := trimSpace chainID
  if trimmed = [] then ([], [], [])
  else
    let base := trimmed.takeWhile (· != 45)
    let uuid := trimSpace (trimmed.dropWhile (· != 45)).tail
    (normalizeChainID base, uuid, trimmed)

/-- `ChainVersionRouter.Resolve` over its overrides. -/
def resolve (overrides : Assoc Bytes Bytes) (chain : Bytes) : Bytes :=
  let chain := trimSpace chain
  if chain = [] then [] else (overrides.lookup chain).getD chain

/-- The chain `ServeHTTP` routes by; `none` for an identifier it refuses. -/
def effectiveChainID (overrides : Assoc Bytes Bytes) (chainID : Bytes) : Option Bytes :=
  let (baseChainID, chainUUID, rawChainID) := splitChainIdentifier chainID
  if baseChainID = [] then none
  else if chainUUID = [] then some (resolve overrides baseChainID)
  else some rawChainID

/-- An identifier with a base and a version that are not blank. -/
def Versioned (chainID : Bytes) : Prop :=
  ∃ base version, trimSpace chainID = base ++ 45 :: version ∧ 45 ∉ base ∧
    trimSpace base ≠ [] ∧ trimSpace version ≠ []

theorem itoa_ne_nil (number : Int) : itoa number ≠ [] := by
  unfold itoa
  split_ifs
  · simp [ascii]
  · exact decimal_ne_nil _

theorem normalizeChainID_eq_nil {chainID : Bytes} :
    normalizeChainID chainID = [] ↔ trimSpace chainID = [] := by
  simp only [normalizeChainID]
  split_ifs with blank
  · exact iff_of_true rfl blank
  · refine iff_of_false ?_ blank
    cases parseNumber (trimSpace chainID) with
    | none => exact blank
    | some number => exact itoa_ne_nil number

/-- The first dash splits an identifier that has one. -/
theorem splitChainIdentifier_of_dash {base version : Bytes}
    (trimmed : trimSpace chainID = base ++ 45 :: version) (absent : 45 ∉ base) :
    splitChainIdentifier chainID =
      (normalizeChainID base, trimSpace version, trimSpace chainID) := by
  have present : trimSpace chainID ≠ [] := by simp [trimmed]
  have before : ∀ byte ∈ base, (byte != 45) = true := by
    intro byte member
    simpa using ne_of_mem_of_not_mem member absent
  simp only [splitChainIdentifier, present, if_false]
  rw [trimmed, List.takeWhile_append_of_pos before, List.dropWhile_append_of_pos before]
  simp

theorem splitChainIdentifier_of_no_dash (absent : 45 ∉ trimSpace chainID) :
    (splitChainIdentifier chainID).2.1 = [] := by
  simp only [splitChainIdentifier]
  split_ifs with blank
  · rfl
  · have all : ∀ byte ∈ trimSpace chainID, (byte != 45) = true := by
      intro byte member
      simpa using ne_of_mem_of_not_mem member absent
    have none_left : (trimSpace chainID).dropWhile (· != 45) = [] :=
      List.dropWhile_eq_nil_iff.mpr all
    rw [none_left]
    rfl

theorem versioned_iff {chainID : Bytes} :
    Versioned chainID ↔
      (splitChainIdentifier chainID).1 ≠ [] ∧ (splitChainIdentifier chainID).2.1 ≠ [] := by
  constructor
  · rintro ⟨base, version, trimmed, absent, named, suffixed⟩
    rw [splitChainIdentifier_of_dash trimmed absent]
    exact ⟨normalizeChainID_eq_nil.not.mpr named, suffixed⟩
  · rintro ⟨named, suffixed⟩
    have dash : 45 ∈ trimSpace chainID := by
      by_contra absent
      exact suffixed (splitChainIdentifier_of_no_dash absent)
    obtain ⟨base, version, trimmed, absent⟩ := List.eq_append_cons_of_mem dash
    rw [splitChainIdentifier_of_dash trimmed absent] at named suffixed
    exact ⟨base, version, trimmed, absent, normalizeChainID_eq_nil.not.mp named, suffixed⟩

theorem effectiveChainID_of_versioned (versioned : Versioned chainID)
    (overrides : Assoc Bytes Bytes) :
    effectiveChainID overrides chainID = some (trimSpace chainID) := by
  obtain ⟨base, version, trimmed, absent, named, suffixed⟩ := versioned
  simp only [effectiveChainID, splitChainIdentifier_of_dash trimmed absent,
    normalizeChainID_eq_nil, named, suffixed, if_false]

theorem effectiveChainID_of_not_versioned (plain : ¬ Versioned chainID)
    (overrides : Assoc Bytes Bytes) :
    effectiveChainID overrides chainID =
      if (splitChainIdentifier chainID).1 = [] then none
      else some (resolve overrides (splitChainIdentifier chainID).1) := by
  simp only [effectiveChainID]
  split_ifs with blank empty
  · rfl
  · rfl
  · exact absurd (versioned_iff.mpr ⟨blank, empty⟩) plain

/-- Two spellings of one base and one version name the same chain exactly when there is no
version or the spellings agree: a version keeps the base as the client spelled it. -/
theorem effectiveChainID_eq_iff (overrides : Assoc Bytes Bytes) (first second : Bytes)
    (sameBase : (splitChainIdentifier first).1 = (splitChainIdentifier second).1)
    (sameVersion : (splitChainIdentifier first).2.1 = (splitChainIdentifier second).2.1) :
    effectiveChainID overrides first = effectiveChainID overrides second ↔
      ¬ Versioned first ∨ trimSpace first = trimSpace second := by
  have together : Versioned first ↔ Versioned second := by
    rw [versioned_iff, versioned_iff, sameBase, sameVersion]
  by_cases versioned : Versioned first
  · rw [effectiveChainID_of_versioned versioned,
      effectiveChainID_of_versioned (together.mp versioned), Option.some_inj]
    exact ⟨.inr, fun either => either.resolve_left (not_not_intro versioned)⟩
  · rw [effectiveChainID_of_not_versioned versioned,
      effectiveChainID_of_not_versioned (together.not.mp versioned), sameBase]
    exact iff_of_true rfl (.inl versioned)

/-- A hexadecimal spelling without a version names the chain of its decimal spelling. -/
theorem effectiveChainID_hexadecimal_plain :
    effectiveChainID ∅ (ascii "0x38") = effectiveChainID ∅ (ascii "56") :=
  (effectiveChainID_eq_iff ∅ (ascii "0x38") (ascii "56") (by decide +kernel)
    (by decide +kernel)).mpr (.inl (by rw [versioned_iff]; decide +kernel))

/-- With a version the two spellings name different chains. -/
theorem effectiveChainID_hexadecimal_versioned :
    (splitChainIdentifier (ascii "0x38-v1")).1 = (splitChainIdentifier (ascii "56-v1")).1 ∧
      (splitChainIdentifier (ascii "0x38-v1")).2.1 = (splitChainIdentifier (ascii "56-v1")).2.1 ∧
      effectiveChainID ∅ (ascii "0x38-v1") ≠ effectiveChainID ∅ (ascii "56-v1") := by
  decide +kernel

end NodexProxy.Lb
