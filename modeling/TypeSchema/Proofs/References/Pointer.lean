import TypeSchema.Decimal.Digits
import TypeSchema.Proofs.References.Resolution
import TypeSchema.Proofs.Text.Octets
import TypeSchema.Text.Split

/-!
# References as pointers

A reference within a document is a fragment that holds a pointer: the keys to follow from the top,
each behind a slash.  Within a key `~1` stands for a slash and `~0` for `~`, and within a fragment
`%` and two digits stand for an octet.  References hold names as they are, so one leads to the
definition that it was made for just if its name has nothing that reads as something else.
-/

namespace TypeSchema

namespace Json

namespace Pointer

/-! ## Reading -/

def isOctet (high low : Char) : Bool := Digits.isDigit 16 high && Digits.isDigit 16 low

/-- The octets of a fragment; what escapes none stands for itself. -/
def octets : List Char → List UInt8
  | '%' :: high :: low :: rest =>
    if isOctet high low then UInt8.ofNat (Digits.value 16 [high, low]) :: octets rest
    else String.utf8EncodeChar '%' ++ octets (high :: low :: rest)
  | c :: rest => String.utf8EncodeChar c ++ octets rest
  | [] => []

def fragment? (reference : String) : Option String :=
  match reference.toList with
  | '#' :: text => String.fromUTF8? ⟨(octets text).toArray⟩
  | _ => none

def unescape : List Char → List Char
  | '~' :: '1' :: rest => '/' :: unescape rest
  | '~' :: '0' :: rest => '~' :: unescape rest
  | c :: rest => c :: unescape rest
  | [] => []

/-- The keys of a pointer.  The empty one has none; any other begins with a slash. -/
def keys? (pointer : String) : Option (List String) :=
  match Text.split '/' pointer.toList with
  | ([], keys) => some (keys.map fun key => String.ofList (unescape key))
  | _ => none

def path? (reference : String) : Option (List String) := (fragment? reference).bind keys?

end Pointer

/-- What a key leads to; the items of a list go by their places, counted from zero. -/
def step? (key : String) : Json → Option Json
  | .obj fields => Entries.find? key fields
  | .arr items => (items.zipIdx.find? fun item => Digits.write item.2 == key.toList).map (·.1)
  | _ => none

def locate? (document : Json) (path : List String) : Option Json :=
  path.foldlM (fun value key => value.step? key) document

/-- The reference leads along the path, and to the value, within the document. -/
def LeadsTo (document : Json) (reference : String) (path : List String) (value : Json) : Prop :=
  Pointer.path? reference = some path ∧ document.locate? path = some value

namespace Pointer

/-! ## What escapes something -/

def HasOctet (text : List Char) : Prop :=
  ∃ high low, isOctet high low = true ∧ ['%', high, low] <:+: text

def HasMark (text : List Char) : Prop := ['~', '0'] <:+: text ∨ ['~', '1'] <:+: text

/-- The text of a reference in which every character stands for itself. -/
structure IsPlain (name : String) : Prop where
  slash : '/' ∉ name.toList
  mark : ¬ HasMark name.toList
  octet : ¬ HasOctet name.toList

/-- The number of octets in which the text is encoded. -/
def size (text : List Char) : Nat := (text.flatMap String.utf8EncodeChar).length

@[simp] theorem size_nil : size [] = 0 := rfl

@[simp] theorem size_cons (c : Char) (text : List Char) :
    size (c :: text) = c.utf8Size + size text := by simp [size]

@[simp] theorem size_append (s t : List Char) : size (s ++ t) = size s + size t := by
  simp [size]

theorem utf8Size_of_mark : Char.utf8Size '/' = 1 ∧ Char.utf8Size '~' = 1 ∧
    Char.utf8Size '0' = 1 ∧ Char.utf8Size '1' = 1 := ⟨rfl, rfl, rfl, rfl⟩

variable {text : List Char} {c : Char}

theorem HasOctet.cons (h : HasOctet text) : HasOctet (c :: text) := by
  obtain ⟨high, low, hoctet, hpart⟩ := h
  exact ⟨high, low, hoctet, hpart.trans (List.suffix_cons c text).isInfix⟩

theorem HasMark.cons (h : HasMark text) : HasMark (c :: text) :=
  h.imp (·.trans (List.suffix_cons c text).isInfix) (·.trans (List.suffix_cons c text).isInfix)

theorem hasOctet_cons_iff : HasOctet (c :: text) ↔
    (∃ high low rest, isOctet high low = true ∧ c = '%' ∧ text = high :: low :: rest) ∨
      HasOctet text := by
  constructor
  · rintro ⟨high, low, hoctet, hpart⟩
    rcases List.infix_cons_iff.1 hpart with ⟨rest, hprefix⟩ | htail
    · cases hprefix
      exact .inl ⟨high, low, rest, hoctet, rfl, rfl⟩
    · exact .inr ⟨high, low, hoctet, htail⟩
  · rintro (⟨high, low, rest, hoctet, rfl, rfl⟩ | htail)
    · exact ⟨high, low, hoctet, ⟨[], rest, rfl⟩⟩
    · exact htail.cons

theorem hasMark_cons_iff : HasMark (c :: text) ↔
    (∃ rest, c = '~' ∧ (text = '0' :: rest ∨ text = '1' :: rest)) ∨ HasMark text := by
  constructor
  · rintro (hpart | hpart)
    all_goals
      rcases List.infix_cons_iff.1 hpart with ⟨rest, hprefix⟩ | htail
      · cases hprefix
        exact .inl ⟨rest, rfl, by simp⟩
      · exact .inr (by simp [HasMark, htail])
  · rintro (⟨rest, rfl, rfl | rfl⟩ | htail)
    · exact .inl ⟨[], rest, rfl⟩
    · exact .inr ⟨[], rest, rfl⟩
    · exact htail.cons

theorem octets_of_not_hasOctet (h : ¬ HasOctet text) :
    octets text = text.flatMap String.utf8EncodeChar := by
  fun_induction octets text with
  | case1 high low rest hoctet _ =>
      exact absurd (hasOctet_cons_iff.2 (.inl ⟨high, low, rest, hoctet, rfl, rfl⟩)) h
  | case2 high low rest _ ih => rw [ih (h ·.cons), @List.flatMap_cons _ _ '%']
  | case3 c rest _ ih => rw [ih (h ·.cons), List.flatMap_cons]
  | case4 => rfl

theorem length_octets_le (text : List Char) : (octets text).length ≤ size text := by
  fun_induction octets text with
  | case1 high low rest _ ih =>
      have := high.utf8Size_pos
      simp only [List.length_cons, size_cons]
      omega
  | case2 high low rest _ ih => simpa using ih
  | case3 c rest _ ih => simpa using ih
  | case4 => simp

/-- An escaped octet takes the place of three characters. -/
theorem length_octets_lt (h : HasOctet text) : (octets text).length < size text := by
  fun_induction octets text with
  | case1 high low rest _ _ =>
      have hle := length_octets_le rest
      have hhigh := high.utf8Size_pos
      have hlow := low.utf8Size_pos
      simp only [List.length_cons, size_cons]
      omega
  | case2 high low rest hoctet ih =>
      rcases hasOctet_cons_iff.1 h with ⟨a, b, _, hab, -, heq⟩ | htail
      · cases heq
        exact absurd hab hoctet
      · simpa using ih htail
  | case3 c rest hno ih =>
      rcases hasOctet_cons_iff.1 h with ⟨a, b, rest', _, rfl, rfl⟩ | htail
      · exact absurd rfl (hno a b rest' rfl)
      · simpa using ih htail
  | case4 => simp [HasOctet] at h

theorem unescape_of_not_hasMark (h : ¬ HasMark text) : unescape text = text := by
  fun_induction unescape text with
  | case1 rest _ => exact absurd (hasMark_cons_iff.2 (.inl ⟨_, rfl, .inr rfl⟩)) h
  | case2 rest _ => exact absurd (hasMark_cons_iff.2 (.inl ⟨_, rfl, .inl rfl⟩)) h
  | case3 c rest _ _ ih => rw [ih (h ·.cons)]
  | case4 => rfl

theorem size_unescape_le (text : List Char) : size (unescape text) ≤ size text := by
  fun_induction unescape text with
  | case1 rest ih | case2 rest ih =>
      simp only [size_cons, utf8Size_of_mark]
      omega
  | case3 c rest _ _ ih => simpa using ih
  | case4 => exact Nat.le_refl _

theorem size_unescape_lt (h : HasMark text) : size (unescape text) < size text := by
  fun_induction unescape text with
  | case1 rest _ | case2 rest _ =>
      have hle := size_unescape_le rest
      simp only [size_cons, utf8Size_of_mark]
      omega
  | case3 c rest hone hzero ih =>
      rcases hasMark_cons_iff.1 h with ⟨rest', rfl, rfl | rfl⟩ | htail
      · exact absurd rfl (hzero rest' rfl)
      · exact absurd rfl (hone rest' rfl)
      · simpa using ih htail
  | case4 => simp [HasMark] at h

/-! ## References of definitions -/

theorem octets_append_of_not_mem {before : List Char} (h : '%' ∉ before) (text : List Char) :
    octets (before ++ text) = before.flatMap String.utf8EncodeChar ++ octets text := by
  induction before with
  | nil => rfl
  | cons c rest ih =>
      rw [List.mem_cons, not_or] at h
      rw [List.cons_append, octets, ih h.2, List.flatMap_cons, List.append_assoc]
      exact fun _ _ _ hc => absurd hc.symm h.1

/-- What stands before the name in the pointer to a definition. -/
def toDefinition : List Char := '/' :: "definitions".toList ++ ['/']

theorem fragment?_reference_iff {name pointer : String} :
    fragment? (Definition.definitionsPointer ++ name) = some pointer ↔
      Text.octets pointer = octets (toDefinition ++ name.toList) := by
  rw [fragment?, String.toList_append]
  exact Text.fromUTF8?_eq_some_iff

theorem keys?_eq_pair {pointer first second : String} (h : keys? pointer = some [first, second]) :
    ∃ key key', pointer.toList = '/' :: key ++ '/' :: key' ∧ '/' ∉ key' ∧
      unescape key = first.toList ∧ unescape key' = second.toList := by
  unfold keys? at h
  split at h
  · rename_i keys hsplit
    simp only [Option.some.injEq, List.map_eq_cons_iff, List.map_eq_nil_iff] at h
    obtain ⟨key, _, rfl, hfirst, key', _, rfl, hsecond, rfl⟩ := h
    have hparts := Text.intercalate_split '/' pointer.toList
    have hslash := (Text.not_mem_split '/' pointer.toList).2
    rw [hsplit] at hparts hslash
    refine ⟨key, key', ?_, hslash key' (by simp), ?_, ?_⟩
    · simpa [List.intercalate] using hparts.symm
    · rw [← hfirst, String.toList_ofList]
    · rw [← hsecond, String.toList_ofList]
  · cases h

/-- What is read never gets longer, so where it is as long as what is written nothing is escaped. -/
theorem isPlain_of_path? {name : String}
    (h : path? (Definition.definitionsPointer ++ name) = some ["definitions", name]) :
    IsPlain name := by
  obtain ⟨pointer, hfragment, hkeys⟩ := Option.bind_eq_some_iff.1 h
  obtain ⟨key, key', hpointer, hslash, hkey, hkey'⟩ := keys?_eq_pair hkeys
  have hsize : (octets (toDefinition ++ name.toList)).length = 2 + size key + size key' := by
    rw [← fragment?_reference_iff.1 hfragment, Text.octets_eq, hpointer]
    change size _ = _
    simp only [List.cons_append, size_cons, size_append, utf8Size_of_mark]
    omega
  have hfull : size (toDefinition ++ name.toList) = 13 + size name.toList := by
    rw [size_append]
    rfl
  have hfirst : size "definitions".toList ≤ size key := hkey ▸ size_unescape_le key
  have hlength : size "definitions".toList = 11 := rfl
  have hname : size name.toList ≤ size key' := hkey' ▸ size_unescape_le key'
  have hoctet : ¬ HasOctet (toDefinition ++ name.toList) := fun hescaped => by
    have := length_octets_lt hescaped
    omega
  have hmark : ¬ HasMark key' := fun hescaped => by
    have hshorter := size_unescape_lt hescaped
    have hle := length_octets_le (toDefinition ++ name.toList)
    rw [hkey'] at hshorter
    omega
  have hsame : key' = name.toList := (unescape_of_not_hasMark hmark).symm.trans hkey'
  refine ⟨hsame ▸ hslash, hsame ▸ hmark, fun ⟨high, low, hhex, hpart⟩ => ?_⟩
  exact hoctet ⟨high, low, hhex, hpart.trans (List.suffix_append _ _).isInfix⟩

theorem path?_of_isPlain {name : String} (h : IsPlain name) :
    path? (Definition.definitionsPointer ++ name) = some ["definitions", name] := by
  have hoctets : octets (toDefinition ++ name.toList) =
      (toDefinition ++ name.toList).flatMap String.utf8EncodeChar := by
    rw [octets_append_of_not_mem (by decide), octets_of_not_hasOctet h.octet, List.flatMap_append]
  have hfragment : fragment? (Definition.definitionsPointer ++ name) =
      some (String.ofList (toDefinition ++ name.toList)) := by
    rw [fragment?_reference_iff, Text.octets_ofList, hoctets]
  have hsplit : Text.split '/' (toDefinition ++ name.toList) =
      ([], ["definitions".toList, name.toList]) := by
    have hcut := Text.split_append_cons '/' ('/' :: "definitions".toList) name.toList
    rw [Text.split_of_not_mem h.slash] at hcut
    rw [toDefinition, List.append_assoc]
    exact hcut
  have hname : unescape name.toList = name.toList := unescape_of_not_hasMark h.mark
  rw [path?, hfragment, Option.bind_some, keys?, String.toList_ofList, hsplit]
  simp only [List.map_cons, List.map_nil, hname, String.ofList_toList]
  rfl

theorem path?_reference_iff (name : String) :
    path? (Definition.definitionsPointer ++ name) = some ["definitions", name] ↔ IsPlain name :=
  ⟨isPlain_of_path?, path?_of_isPlain⟩

end Pointer

theorem locate?_definitions {d : Definition} {name : String} {value : Json}
    (h : Entries.find? name d.definitions = some value) :
    d.toJson.locate? ["definitions", name] = some value := by
  unfold Definition.definitions at h
  split at h
  · rename_i fields hfields
    have hall : d.toJson.step? "definitions" = some (.obj fields) := hfields
    have hentry : (Json.obj fields).step? name = some value := h
    simp [locate?, hall, hentry]
  · cases h

end Json

namespace Document

open Schema Json

variable {g : Graph} {target : String} {settings : Settings} {d : Definition}
  {notices : List Notice}

theorem generate_within
    (hkeyword : "$ref" ∉ settings.validationKeywords)
    (hvalues : ∀ symbol ∈ g.symbols.values,
      Annotations.LacksReference settings.validationKeywords symbol)
    (huse : settings.useRef = true)
    (h : generate g target settings = (.ok (some d), notices)) :
    d.RefersWithin d.definitions.keys := by
  obtain ⟨table, htable⟩ := table_of_document h
  obtain ⟨p, hrun⟩ := generate_ok htable h
  have henv : AnnotatesNoReference (environment g settings table) := ⟨hkeyword, hvalues⟩
  unfold forTarget at hrun
  split at hrun
  · obtain ⟨hwithin, hregistered⟩ := forAllTypes_within henv hrun
    exact hwithin.mono hregistered
  · obtain ⟨type, root, -, hroot, rfl⟩ := forType_ok hrun
    obtain ⟨hwithin, hkept⟩ := forType_within henv hroot
    rw [((Definition.SameLinks.refl _).insert rfl _).definitions_eq]
    exact (attached_resolves hwithin hkept (.inl huse)).plain rfl

/-- A reference leads to the definition of the name that it was made from just if the name is
plain. -/
theorem generate_reference_leads_iff
    (hkeyword : "$ref" ∉ settings.validationKeywords)
    (hvalues : ∀ symbol ∈ g.symbols.values,
      Annotations.LacksReference settings.validationKeywords symbol)
    (huse : settings.useRef = true)
    (h : generate g target settings = (.ok (some d), notices))
    {fields : Entries String Json} {ref : String}
    (hat : SchemaAt d.toJson (.obj fields)) (href : ("$ref", .str ref) ∈ fields) :
    ∃ name value, ref = Definition.definitionsPointer ++ name ∧
      Entries.find? name d.definitions = some value ∧
      (d.toJson.LeadsTo ref ["definitions", name] value ↔ Pointer.IsPlain name) := by
  obtain ⟨name, hname, rfl⟩ := generate_within hkeyword hvalues huse h fields ref hat href
  obtain ⟨value, hvalue⟩ := Entries.mem_keys_iff.1 hname
  refine ⟨name, value, rfl, hvalue, ?_⟩
  rw [LeadsTo, Pointer.path?_reference_iff]
  exact and_iff_left (locate?_definitions hvalue)

/-- What the property of the name refers to at the top of a document. -/
def propertyReference? (d : Definition) (name : String) : Option String :=
  (((d.find? "properties").bind (·.field? name)).bind Json.reference?)

theorem reference_at_property {name ref : String} (h : propertyReference? d name = some ref) :
    ∃ fields, SchemaAt d.toJson (.obj fields) ∧ ("$ref", .str ref) ∈ fields := by
  simp only [propertyReference?, Option.bind_eq_some_iff] at h
  obtain ⟨schema, ⟨properties, hproperties, hschema⟩, href⟩ := h
  obtain ⟨all, rfl, hschema⟩ := Json.field?_eq_some hschema
  obtain ⟨value, hvalue, href⟩ := Option.bind_eq_some_iff.1 href
  obtain ⟨fields, rfl, hvalue⟩ := Json.field?_eq_some hvalue
  cases value <;> cases href
  have hpart : Json.obj fields ∈ subschemas "properties" (.obj all) := by
    rw [subschemas, if_pos (by decide)]
    exact List.mem_map_of_mem (f := (·.2)) (Entries.mem_of_find?_eq_some hschema)
  exact ⟨fields, .under (Dict.mem_entries_iff.2 hproperties) hpart (.whole _),
    Entries.mem_of_find?_eq_some hvalue⟩

theorem generate_reference_leads_iff_linked :
    ∃ d notices fields ref,
      generate linkedGraph "Node" Settings.default = (.ok (some d), notices) ∧
      SchemaAt d.toJson (.obj fields) ∧ ("$ref", .str ref) ∈ fields ∧
      ∃ name value, ref = Definition.definitionsPointer ++ name ∧
        Entries.find? name d.definitions = some value ∧
        (d.toJson.LeadsTo ref ["definitions", name] value ↔ Pointer.IsPlain name) := by
  obtain ⟨d, notices, h, href⟩ : ∃ d notices,
      generate linkedGraph "Node" Settings.default = (.ok (some d), notices) ∧
        decide (propertyReference? d "label" = some "#/definitions/Label") = true :=
    exists_document (by decide +kernel)
  obtain ⟨fields, hat, hmem⟩ := reference_at_property (of_decide_eq_true href)
  exact ⟨d, notices, fields, _, h, hat, hmem,
    generate_reference_leads_iff (by decide) (by decide +kernel) rfl h hat hmem⟩

/-- A page with a body that is a box of some media type. -/
def pageGraph : Graph where
  modules := [⟨"page.ts", false, [⟨"Box"⟩, ⟨"Page"⟩]⟩]
  declarations := .ofEntries [
    (⟨"Box"⟩, { Declaration.blank with kind := .interface, symbol := some ⟨"Box"⟩ }),
    (⟨"Page"⟩, { Declaration.blank with kind := .interface, symbol := some ⟨"Page"⟩ })]
  symbols := .ofEntries [
    (⟨"Box"⟩, { Symbol.blank with
      name := "Box", qualifiedName := "Box", type := some ⟨"Box<T>"⟩,
      declarations := [⟨"Box"⟩] }),
    (⟨"content"⟩, { Symbol.blank with name := "content", type := some ⟨"string"⟩ }),
    (⟨"Page"⟩, { Symbol.blank with
      name := "Page", qualifiedName := "Page", type := some ⟨"Page"⟩,
      declarations := [⟨"Page"⟩] }),
    (⟨"body"⟩, { Symbol.blank with name := "body", type := some ⟨"Box of html"⟩ })]
  types := .ofEntries [
    (⟨"string"⟩, ⟨"string", none, .string⟩),
    (⟨"Box<T>"⟩, ⟨"Box<T>", some ⟨"Box"⟩,
      .object { ObjectType.blank with properties := [⟨"content"⟩] }⟩),
    (⟨"Box of html"⟩, ⟨"Box<\"text/html\">", some ⟨"Box"⟩,
      .object { ObjectType.blank with properties := [⟨"content"⟩] }⟩),
    (⟨"Page"⟩, ⟨"Page", some ⟨"Page"⟩,
      .object { ObjectType.blank with properties := [⟨"body"⟩] }⟩)]
  diagnostics := []
  strictNullChecks := false

/-- The name of a type may hold a slash, which a pointer takes for the end of a key. -/
theorem reference_may_not_lead :
    ¬ ∀ (g : Graph) (target : String) (settings : Settings) (d : Definition)
      (notices : List Notice) (fields : Entries String Json) (ref : String),
      "$ref" ∉ settings.validationKeywords →
      (∀ symbol ∈ g.symbols.values,
        Annotations.LacksReference settings.validationKeywords symbol) →
      settings.useRef = true → generate g target settings = (.ok (some d), notices) →
      SchemaAt d.toJson (.obj fields) → ("$ref", .str ref) ∈ fields →
      ∃ name value, ref = Definition.definitionsPointer ++ name ∧
        Entries.find? name d.definitions = some value ∧
        d.toJson.LeadsTo ref ["definitions", name] value := by
  intro hall
  obtain ⟨d, notices, h, href⟩ : ∃ d notices,
      generate pageGraph "Page" Settings.default = (.ok (some d), notices) ∧
        decide (propertyReference? d "body" =
          some (Definition.definitionsPointer ++ "Box<\"text/html\">")) = true :=
    exists_document (by decide +kernel)
  obtain ⟨fields, hat, hmem⟩ := reference_at_property (of_decide_eq_true href)
  obtain ⟨name, value, hname, -, hleads⟩ :=
    hall _ _ _ d notices fields _ (by decide) (by decide +kernel) rfl h hat hmem
  obtain rfl := (String.append_right_inj _).1 hname
  exact absurd (Pointer.isPlain_of_path? hleads.1).slash (by decide)

end Document

end TypeSchema
