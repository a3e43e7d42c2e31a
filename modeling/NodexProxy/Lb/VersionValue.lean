import NodexProxy.Discovery.Watch
import NodexProxy.Lb.VersionRouter

/-! A stored version and the override it makes. `parseVersionValue` reads a JSON string or an
object, and falls back to the raw text also where either of them was read and is blank. -/

namespace NodexProxy.Lb

open NodexProxy.Foundation NodexProxy.Discovery

/-- A chain id as the router keeps it. -/
structure BaseChain (chain : Bytes) : Prop where
  named : chain ≠ []
  trimmed : trimSpace chain = chain

/-- The value is a JSON string with this content. -/
structure StringOf (decoder : Decoder) (value version : Bytes) : Prop where
  filled : trimSpace value ≠ []
  text : decoder.versionText value = (version, true)
  object : (decoder.versionObject value).2 = false

/-- The value is a JSON object with this version. -/
structure ObjectOf (decoder : Decoder) (value version : Bytes) : Prop where
  braces : ∃ body, trimSpace value = 123 :: (body ++ [125])
  object : decoder.versionObject value = (version, true)
  text : (decoder.versionText value).2 = false

/-- Where a chain goes that has this version, a blank one being none. -/
def versionTarget (chain version : Bytes) : Bytes :=
  if trimSpace version = [] then chain else chain ++ ascii "-" ++ dashed (trimSpace version)

theorem versionTarget_trimSpace (chain version : Bytes) :
    versionTarget chain (trimSpace version) = versionTarget chain version := by
  rw [versionTarget, trimSpace_trimSpace, versionTarget]

theorem versionTarget_eq_chain : versionTarget chain version = chain ↔ trimSpace version = [] := by
  unfold versionTarget
  split_ifs with blank
  · simp [blank]
  · simp [blank, ascii]

/-- An update decides where the chain goes, whatever was there before. -/
theorem BaseChain.resolve_put (base : BaseChain chain) (router : ChainVersionRouter)
    (version : Bytes) :
    (handleChainVersionUpdate router (some ⟨chain, version, .put⟩)).resolve chain =
      versionTarget chain version := by
  simp only [handleChainVersionUpdate, ChainVersionRouter.update, trimSpace_trimSpace, base.trimmed,
    if_neg base.named, ChainVersionRouter.resolve, Lb.resolve]
  unfold versionTarget
  split_ifs with blank
  · rw [Assoc.lookup_erase_eq, if_pos base.trimmed, Option.getD_none]
  · rw [Assoc.lookup_insert_eq, if_pos base.trimmed, Option.getD_some]

section Parse

variable {decoder : Decoder} {value version : Bytes}

/-- What is between the quotes of the raw text, if it has any. -/
def rawVersion (value : Bytes) : Bytes := trimByte 34 (trimSpace value)

theorem parseVersionValue_string (encoded : StringOf decoder value version) :
    parseVersionValue decoder value =
      if trimSpace version = [] then rawVersion value else trimSpace version := by
  have filled : ¬(value = [] ∨ trimSpace value = []) := by
    rintro (rfl | blank)
    · exact encoded.filled rfl
    · exact encoded.filled blank
  simp only [parseVersionValue, if_neg filled, encoded.text, encoded.object]
  by_cases blank : trimSpace version = [] <;> simp [blank, rawVersion]

theorem rawVersion_braces (braces : trimSpace value = 123 :: (body ++ [125])) :
    rawVersion value = trimSpace value := by
  rw [rawVersion, braces, trimByte, List.dropWhile_cons_of_neg (by decide), ← List.cons_append]
  exact List.rdropWhile_concat_neg _ _ _ (by decide)

theorem parseVersionValue_object (encoded : ObjectOf decoder value version) :
    parseVersionValue decoder value =
      if trimSpace version = [] then trimSpace value else trimSpace version := by
  obtain ⟨body, braces⟩ := encoded.braces
  have filled : ¬(value = [] ∨ trimSpace value = []) := by
    rintro (rfl | blank)
    · cases braces
    · rw [braces] at blank
      cases blank
  rw [← rawVersion_braces braces]
  simp only [parseVersionValue, if_neg filled, encoded.object, encoded.text]
  by_cases blank : trimSpace version = [] <;> simp [blank, rawVersion]

end Parse

/-- A version that is not blank is taken over from either encoding. A blank string clears the
override when what stands between its quotes is blank as well; an object with a blank version
becomes the version itself. -/
theorem version_put_resolves (decoder : Decoder) (router : ChainVersionRouter)
    (key chain sub value version : Bytes) (base : BaseChain chain)
    (stored : parseKey key = (.version, chain, sub)) :
    ∃ update, putEvent decoder key value = some (.version update) ∧
      (StringOf decoder value version →
        trimSpace version = [] ∧ trimSpace (rawVersion value) = [] ∨ trimSpace version ≠ [] →
        (handleChainVersionUpdate router (some update)).resolve chain =
          versionTarget chain version) ∧
      (ObjectOf decoder value version →
        (handleChainVersionUpdate router (some update)).resolve chain =
          if trimSpace version = [] then chain ++ ascii "-" ++ dashed (trimSpace value)
          else versionTarget chain version) := by
  refine ⟨⟨chain, parseVersionValue decoder value, .put⟩, by simp only [putEvent, stored], ?_, ?_⟩
  · intro encoded cases
    rw [base.resolve_put, parseVersionValue_string encoded]
    rcases cases with ⟨blank, raw⟩ | filled
    · rw [if_pos blank, versionTarget_eq_chain.mpr raw, versionTarget_eq_chain.mpr blank]
    · rw [if_neg filled, versionTarget_trimSpace]
  · intro encoded
    obtain ⟨body, braces⟩ := encoded.braces
    rw [base.resolve_put, parseVersionValue_object encoded]
    split_ifs with blank
    · have filled : trimSpace value ≠ [] := by
        rw [braces]
        exact List.cons_ne_nil _ _
      rw [versionTarget_trimSpace, versionTarget, if_neg filled]
    · exact versionTarget_trimSpace chain version

/-! Two stored versions of one chain, as `json.Unmarshal` reads them. -/

def emptyObject : Bytes := ascii "\x7b\"version\":\"\"\x7d"

def versionDecoder : Decoder where
  node := fun _ => (.zero, false)
  height := fun _ => (none, false)
  gateway := fun _ => (⟨[], none⟩, false)
  mirror := fun _ => (.zero, false)
  versionObject := fun value => ([], value == emptyObject)
  versionText := fun value =>
    if value = ascii "\" v1/rc \"" then (ascii " v1/rc ", true) else ([], false)

theorem baseChain_56 : BaseChain (ascii "56") := ⟨by decide, by decide +kernel⟩

theorem version_put_string :
    ∃ update, putEvent versionDecoder (ascii "56/version") (ascii "\" v1/rc \"") =
        some (.version update) ∧
      (handleChainVersionUpdate .new (some update)).resolve (ascii "56") =
        versionTarget (ascii "56") (ascii " v1/rc ") := by
  obtain ⟨update, sent, resolved, -⟩ := version_put_resolves versionDecoder .new
    (ascii "56/version") (ascii "56") [] (ascii "\" v1/rc \"") (ascii " v1/rc ") baseChain_56
    (by decide +kernel)
  exact ⟨update, sent, resolved ⟨by decide +kernel, by decide, by decide⟩
    (.inr (by decide +kernel))⟩

/-- An object with an empty version makes its own text the version. -/
theorem empty_version_object_overrides :
    ObjectOf versionDecoder emptyObject [] ∧ trimSpace [] = [] ∧
      parseKey (ascii "56/version") = (.version, ascii "56", []) ∧
      ∃ update, putEvent versionDecoder (ascii "56/version") emptyObject =
          some (.version update) ∧
        (handleChainVersionUpdate .new (some update)).resolve (ascii "56") =
          ascii "56-\x7b\"version\":\"\"\x7d" := by
  have parsed : parseKey (ascii "56/version") = (.version, ascii "56", []) := by decide +kernel
  have braces : trimSpace emptyObject = 123 :: (ascii "\"version\":\"\"" ++ [125]) := by
    decide +kernel
  refine ⟨⟨⟨_, braces⟩, by decide, by decide⟩, by decide +kernel, parsed,
    ⟨ascii "56", parseVersionValue versionDecoder emptyObject, .put⟩, ?_, by decide +kernel⟩
  simp only [putEvent, parsed]

end NodexProxy.Lb
