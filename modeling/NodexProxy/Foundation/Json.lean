import NodexProxy.Foundation.Bytes

/-! JSON text at the level of bytes. The nesting of values is fixed; what may stand between
the quotes of a string and what counts as any other scalar is left to a dialect. -/

namespace NodexProxy.Foundation.Json

/-- Insignificant white space. -/
def Blank (text : Bytes) : Prop := ∀ byte ∈ text, byte = 32 ∨ byte = 9 ∨ byte = 10 ∨ byte = 13

structure Dialect where
  content : Bytes → Prop
  scalar : Bytes → Prop

/-- An element with the white space around it. -/
structure Element where
  before : Bytes
  value : Bytes
  after : Bytes

/-- A member with the white space around its parts; `key` is what stands between the quotes. -/
structure Member where
  before : Bytes
  key : Bytes
  afterKey : Bytes
  beforeValue : Bytes
  value : Bytes
  after : Bytes

def quoted (content : Bytes) : Bytes := 34 :: content ++ [34]

def Element.text (element : Element) : Bytes := element.before ++ element.value ++ element.after

/-- A member from the opening quote of its key on. -/
def Member.core (member : Member) : Bytes :=
  quoted member.key ++
    (member.afterKey ++ 58 :: (member.beforeValue ++ (member.value ++ member.after)))

def Member.text (member : Member) : Bytes := member.before ++ member.core

structure Element.Spaced (element : Element) : Prop where
  before : Blank element.before
  after : Blank element.after

structure Member.Spaced (member : Member) : Prop where
  before : Blank member.before
  afterKey : Blank member.afterKey
  beforeValue : Blank member.beforeValue
  after : Blank member.after

/-- Texts with commas between them. An empty list leaves room for white space. -/
def separated (blank : Bytes) : List Bytes → Bytes
  | [] => blank
  | [text] => text
  | text :: next :: rest => text ++ 44 :: separated blank (next :: rest)

def arrayText (blank : Bytes) (elements : List Element) : Bytes :=
  91 :: separated blank (elements.map Element.text) ++ [93]

def objectText (blank : Bytes) (members : List Member) : Bytes :=
  123 :: separated blank (members.map Member.text) ++ [125]

/-- The texts of values. -/
inductive Value (dialect : Dialect) : Bytes → Prop where
  | scalar : dialect.scalar text → Value dialect text
  | string : dialect.content content → Value dialect (quoted content)
  | array (blank : Bytes) (elements : List Element) : Blank blank →
      (∀ element ∈ elements, element.Spaced) →
      (∀ element ∈ elements, Value dialect element.value) →
      Value dialect (arrayText blank elements)
  | object (blank : Bytes) (members : List Member) : Blank blank →
      (∀ member ∈ members, member.Spaced ∧ dialect.content member.key) →
      (∀ member ∈ members, Value dialect member.value) →
      Value dialect (objectText blank members)

/-- The text is an array of these elements. -/
def IsArray (dialect : Dialect) (text : Bytes) (elements : List Bytes) : Prop :=
  ∃ blank items, text = arrayText blank items ∧ Blank blank ∧ (∀ item ∈ items, item.Spaced) ∧
    (∀ item ∈ items, Value dialect item.value) ∧ items.map Element.value = elements

/-- The text is an object of these members, given by key content and value. -/
def IsObject (dialect : Dialect) (text : Bytes) (members : List (Bytes × Bytes)) : Prop :=
  ∃ blank items, text = objectText blank items ∧ Blank blank ∧
    (∀ item ∈ items, item.Spaced ∧ dialect.content item.key) ∧
    (∀ item ∈ items, Value dialect item.value) ∧
    items.map (fun item => (item.key, item.value)) = members

/-- White space, a value, white space. -/
def Document (text : Bytes) (value : Bytes) : Prop :=
  ∃ before after, Blank before ∧ Blank after ∧ text = before ++ value ++ after

/-! The dialect of RFC 8259, with bytes above ASCII taken as they are. -/

def Digits (text : Bytes) : Prop := text ≠ [] ∧ ∀ byte ∈ text, byte ∈ ascii "0123456789"

/-- A minus sign at most, an integer without leading zeros, a fraction and an exponent. -/
def Number (text : Bytes) : Prop :=
  ∃ sign whole fraction exponent,
    (sign = [] ∨ sign = ascii "-") ∧
    (whole = ascii "0" ∨ (Digits whole ∧ whole.head? ≠ some 48)) ∧
    (fraction = [] ∨ ∃ digits, Digits digits ∧ fraction = 46 :: digits) ∧
    (exponent = [] ∨ ∃ mark plus digits, (mark = 101 ∨ mark = 69) ∧
      (plus = [] ∨ plus = ascii "+" ∨ plus = ascii "-") ∧ Digits digits ∧
      exponent = mark :: plus ++ digits) ∧
    text = sign ++ whole ++ fraction ++ exponent

def Literal (text : Bytes) : Prop := text = ascii "true" ∨ text = ascii "false" ∨ text = ascii "null"

inductive Chars : Bytes → Prop where
  | nil : Chars []
  | plain : 32 ≤ byte → byte ≠ 34 → byte ≠ 92 → Chars rest → Chars (byte :: rest)
  | escape : byte ∈ ascii "\"\\/bfnrt" → Chars rest → Chars (92 :: byte :: rest)
  | unicode : digits.length = 4 → (∀ byte ∈ digits, byte ∈ ascii "0123456789abcdefABCDEF") →
      Chars rest → Chars (92 :: 117 :: digits ++ rest)

def rfc8259 : Dialect where
  content := Chars
  scalar text := Number text ∨ Literal text

/-! The dialect of a reader that only finds its way: a string ends at the first quote that
no backslash escapes, and any other scalar at the next delimiter. -/

inductive Skipped : Bytes → Prop where
  | nil : Skipped []
  | plain : byte ≠ 34 → byte ≠ 92 → Skipped rest → Skipped (byte :: rest)
  | escape : Skipped rest → Skipped (92 :: byte :: rest)

/-- Bytes that neither end a scalar nor open another kind of value. -/
def Loose (byte : UInt8) : Prop := byte ∉ ascii "\"\x7b\x7d[],: \t\n\r"

instance (byte : UInt8) : Decidable (Loose byte) := inferInstanceAs (Decidable (byte ∉ _))

def loose : Dialect where
  content := Skipped
  scalar text := text ≠ [] ∧ ∀ byte ∈ text, Loose byte

theorem Value.mono (content : ∀ text, first.content text → second.content text)
    (scalar : ∀ text, first.scalar text → second.scalar text) (value : Value first text) :
    Value second text := by
  induction value with
  | scalar found => exact .scalar (scalar _ found)
  | string found => exact .string (content _ found)
  | array blank elements blanks spaced _ ih => exact .array blank elements blanks spaced ih
  | object blank members blanks spaced _ ih =>
    exact .object blank members blanks
      (fun member inside => ⟨(spaced member inside).1, content _ (spaced member inside).2⟩) ih

theorem Skipped.append_plain (rest : Skipped text) :
    ∀ digits : Bytes, (∀ byte ∈ digits, byte ≠ 34 ∧ byte ≠ 92) → Skipped (digits ++ text)
  | [], _ => rest
  | byte :: digits, free =>
    .plain (free byte (by simp)).1 (free byte (by simp)).2
      (Skipped.append_plain rest digits fun byte member => free byte (by simp [member]))

theorem hex_plain : ∀ byte ∈ ascii "0123456789abcdefABCDEF", byte ≠ 34 ∧ byte ≠ 92 :=
  List.all_iff_forall_prop.mp (by decide)

theorem Chars.skipped (chars : Chars text) : Skipped text := by
  induction chars with
  | nil => exact .nil
  | plain _ quote backslash _ ih => exact .plain quote backslash ih
  | escape _ _ ih => exact .escape ih
  | unicode _ hex _ ih =>
    exact .escape (Skipped.append_plain ih _ fun byte member => hex_plain byte (hex byte member))

theorem Digits.loose (digits : Digits text) (member : byte ∈ text) : Loose byte := by
  have all : ∀ byte ∈ ascii "0123456789", Loose byte := List.all_iff_forall_prop.mp (by decide)
  exact all byte (digits.2 byte member)

theorem Number.loose (number : Number text) : loose.scalar text := by
  obtain ⟨sign, whole, fraction, exponent, signed, integral, fractional, scaled, rfl⟩ := number
  constructor
  · have nonempty : whole ≠ [] := by
      rcases integral with rfl | ⟨digits, _⟩
      · decide
      · exact digits.1
    simp [nonempty]
  · intro byte member
    simp only [List.mem_append] at member
    rcases member with ((inSign | inWhole) | inFraction) | inExponent
    · rcases signed with rfl | rfl
      · cases inSign
      · obtain rfl := List.mem_singleton.mp inSign
        decide
    · rcases integral with rfl | ⟨digits, _⟩
      · obtain rfl := List.mem_singleton.mp inWhole
        decide
      · exact digits.loose inWhole
    · rcases fractional with rfl | ⟨digits, isDigits, rfl⟩
      · cases inFraction
      · rcases List.mem_cons.mp inFraction with rfl | inDigits
        · decide
        · exact isDigits.loose inDigits
    · rcases scaled with rfl | ⟨mark, plus, digits, marked, added, isDigits, rfl⟩
      · cases inExponent
      · rcases List.mem_append.mp inExponent with inMark | inDigits
        · rcases List.mem_cons.mp inMark with rfl | inPlus
          · rcases marked with rfl | rfl <;> decide
          · rcases added with rfl | rfl | rfl
            · cases inPlus
            · obtain rfl := List.mem_singleton.mp inPlus
              decide
            · obtain rfl := List.mem_singleton.mp inPlus
              decide
        · exact isDigits.loose inDigits

theorem Literal.loose (literal : Literal text) : loose.scalar text := by
  rcases literal with rfl | rfl | rfl
  all_goals exact ⟨by decide, List.all_iff_forall_prop.mp (by decide)⟩

theorem Value.loose (value : Value rfc8259 text) : Value loose text :=
  value.mono (fun _ => Chars.skipped) fun _ scalar => Or.elim scalar Number.loose Literal.loose

theorem IsObject.loose (object : IsObject rfc8259 text members) : IsObject loose text members := by
  obtain ⟨blank, items, same, blanks, spaced, values, listed⟩ := object
  exact ⟨blank, items, same, blanks,
    fun item member => ⟨(spaced item member).1, (spaced item member).2.skipped⟩,
    fun item member => (values item member).loose, listed⟩

theorem IsArray.loose (array : IsArray rfc8259 text elements) : IsArray loose text elements := by
  obtain ⟨blank, items, same, blanks, spaced, values, listed⟩ := array
  exact ⟨blank, items, same, blanks, spaced, fun item member => (values item member).loose, listed⟩

theorem loose_scalar_head (scalar : loose.scalar text) (head : text.head? = some byte) :
    Loose byte := by
  obtain ⟨first, rest, rfl⟩ := List.exists_cons_of_ne_nil scalar.1
  cases head
  exact scalar.2 byte (by simp)

theorem Value.isObject (value : Value rfc8259 text) (head : text.head? = some 123) :
    ∃ members, IsObject rfc8259 text members := by
  cases value with
  | scalar scalar =>
    exact absurd (loose_scalar_head (Or.elim scalar Number.loose Literal.loose) head) (by decide)
  | string content => cases head
  | array blank elements => cases head
  | object blank members blanks spaced values =>
    exact ⟨_, blank, members, rfl, blanks, spaced, values, rfl⟩

theorem Value.isArray (value : Value rfc8259 text) (head : text.head? = some 91) :
    ∃ elements, IsArray rfc8259 text elements := by
  cases value with
  | scalar scalar =>
    exact absurd (loose_scalar_head (Or.elim scalar Number.loose Literal.loose) head) (by decide)
  | string content => cases head
  | array blank elements blanks spaced values =>
    exact ⟨_, blank, elements, rfl, blanks, spaced, values, rfl⟩
  | object blank members => cases head

theorem mem_separated (blank : Bytes) (texts : List Bytes) (listed : text ∈ texts)
    (member : byte ∈ text) : byte ∈ separated blank texts := by
  induction texts with
  | nil => cases listed
  | cons head texts ih =>
    cases texts with
    | nil =>
      rw [List.mem_singleton.mp listed] at member
      exact member
    | cons next texts =>
      rcases List.mem_cons.mp listed with rfl | later
      · exact List.mem_append_left _ member
      · exact List.mem_append_right _ (List.mem_cons_of_mem _ (ih later))

theorem length_separated (blank : Bytes) (texts : List Bytes) (nonempty : texts ≠ []) :
    (separated blank texts).length + 1 = (texts.map List.length).sum + texts.length := by
  induction texts with
  | nil => exact absurd rfl nonempty
  | cons text texts inductionHypothesis =>
    cases texts with
    | nil => simp [separated]
    | cons next texts =>
      have rest := inductionHypothesis (by simp)
      simp only [separated, List.length_append, List.length_cons, List.map_cons,
        List.sum_cons] at rest ⊢
      omega

theorem length_objectText (blank : Bytes) (members : List Member) (nonempty : members ≠ []) :
    (objectText blank members).length =
      (members.map fun member => member.text.length).sum + members.length + 1 := by
  have separate := length_separated blank (members.map Member.text) (by simpa using nonempty)
  simp only [List.map_map, List.length_map, Function.comp_def] at separate
  simp only [objectText, List.length_append, List.length_cons, List.length_nil]
  omega

theorem IsObject.isValue (object : IsObject dialect text members) : Value dialect text := by
  obtain ⟨blank, items, rfl, blanks, spaced, values, _⟩ := object
  exact .object blank items blanks spaced values

theorem IsArray.isValue (array : IsArray dialect text elements) : Value dialect text := by
  obtain ⟨blank, items, rfl, blanks, spaced, values, _⟩ := array
  exact .array blank items blanks spaced values

/-- A member without white space. -/
def Member.compact (member : Bytes × Bytes) : Member := ⟨[], member.1, [], [], member.2, []⟩

/-- An element without white space. -/
def Element.compact (value : Bytes) : Element := ⟨[], value, []⟩

theorem blank_nil : Blank [] := by simp [Blank]

theorem isObject_compact {members : List (Bytes × Bytes)}
    (valid : ∀ member ∈ members, dialect.content member.1 ∧ Value dialect member.2) :
    IsObject dialect (objectText [] (members.map Member.compact)) members := by
  refine ⟨[], _, rfl, blank_nil, ?_, ?_, by simp [Function.comp_def, Member.compact]⟩
  · intro item listed
    obtain ⟨member, source, rfl⟩ := List.mem_map.mp listed
    exact ⟨⟨blank_nil, blank_nil, blank_nil, blank_nil⟩, (valid member source).1⟩
  · intro item listed
    obtain ⟨member, source, rfl⟩ := List.mem_map.mp listed
    exact (valid member source).2

theorem isArray_compact {elements : List Bytes} (valid : ∀ value ∈ elements, Value dialect value) :
    IsArray dialect (arrayText [] (elements.map Element.compact)) elements := by
  refine ⟨[], _, rfl, blank_nil, ?_, ?_, by simp [Function.comp_def, Element.compact]⟩
  · intro item listed
    obtain ⟨value, source, rfl⟩ := List.mem_map.mp listed
    exact ⟨blank_nil, blank_nil⟩
  · intro item listed
    obtain ⟨value, source, rfl⟩ := List.mem_map.mp listed
    exact valid value source

theorem value_one : Value rfc8259 (ascii "1") :=
  .scalar (.inl ⟨[], ascii "1", [], [], .inl rfl,
    .inr ⟨⟨by decide, List.all_iff_forall_prop.mp (by decide)⟩, by decide⟩, .inl rfl, .inl rfl, rfl⟩)

theorem Document.self (text : Bytes) : Document text text :=
  ⟨[], [], by simp [Blank], by simp [Blank], by simp⟩

theorem IsObject.mem (object : IsObject dialect text members) (listed : (key, value) ∈ members) :
    Value dialect value ∧ (∀ byte ∈ key, byte ∈ text) ∧ ∀ byte ∈ value, byte ∈ text := by
  obtain ⟨blank, items, rfl, _, _, values, rfl⟩ := object
  obtain ⟨item, inside, same⟩ := List.mem_map.mp listed
  cases same
  have within : ∀ byte ∈ item.core, byte ∈ objectText blank items := by
    intro byte member
    have found := mem_separated blank (items.map Member.text) (List.mem_map_of_mem inside)
      (List.mem_append_right item.before member)
    simp [objectText, found]
  exact ⟨values item inside, fun byte member => within byte (by simp [Member.core, quoted, member]),
    fun byte member => within byte (by simp [Member.core, member])⟩

theorem IsArray.mem (array : IsArray dialect text elements) (listed : value ∈ elements) :
    Value dialect value ∧ ∀ byte ∈ value, byte ∈ text := by
  obtain ⟨blank, items, rfl, _, _, values, rfl⟩ := array
  obtain ⟨item, inside, rfl⟩ := List.mem_map.mp listed
  refine ⟨values item inside, fun byte member => ?_⟩
  have found := mem_separated blank (items.map Element.text) (List.mem_map_of_mem inside)
    (show byte ∈ item.text by simp [Element.text, member])
  simp [arrayText, found]

end NodexProxy.Foundation.Json
