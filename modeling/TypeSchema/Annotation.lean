import TypeSchema.Definition.Basic
import TypeSchema.Graph.Basic
import TypeSchema.Json.Draft.OfText
import TypeSchema.Names
import TypeSchema.Text.Blank
import TypeSchema.Text.Split
import TypeSchema.Text.Word

/-!
# Annotations

A comment is a description followed by annotations, each begun by an at-sign, a name and a value
that goes on up to the next at-sign.  Names of keywords write into definitions; a name with points
writes into an object inside a keyword.  All other names are only remembered.
-/

namespace TypeSchema

structure Annotations where
  description : Option String
  /-- Values of keywords, in the order in which the keywords first came. -/
  keywords : Dict String Json
  /-- Names that are no keywords, in increasing order. -/
  other : List String
  deriving Inhabited

namespace Annotations

def empty : Annotations := ⟨none, ∅, []⟩

def isIgnored (notes : Annotations) : Bool := notes.keywords.contains "ignore"

def isNullable (notes : Annotations) : Bool := notes.other.contains "nullable"

/-! ## Writing into definitions -/

/-- A keyword overwrites, except that an object adds its fields to an object that is there. -/
def applyKeyword (d : Definition) (keyword : String) (value : Json) : Definition :=
  match d.find? keyword, value with
  | some (.obj existing), .obj nested => d.insert keyword (.obj (Entries.merge existing nested))
  | _, value => d.insert keyword value

def applyTo (notes : Annotations) (d : Definition) : Definition :=
  let d := match notes.description with
    | some text => d.insert "description" (.str text)
    | none => d
  notes.keywords.entries.foldl (fun d entry => applyKeyword d entry.1 entry.2) d

/-! ## Keywords -/

def builtinKeywords : List String := [
  "ignore", "description", "type", "minimum", "exclusiveMinimum", "maximum", "exclusiveMaximum",
  "multipleOf", "minLength", "maxLength", "format", "pattern", "minItems", "maxItems",
  "uniqueItems", "default", "additionalProperties", "enum"]

def isKeyword (extra : List String) (name : String) : Bool :=
  name ∈ builtinKeywords || name ∈ extra

/-- Text as the JSON value that it states, or else as a string. -/
def parseValue (text : List Char) : Json :=
  let text := Text.trim text
  (Json.parse text).getD (.str (String.ofList text))

/-! ## Recording one annotation -/

mutual

/-- Objects are merged into objects at every level; any other value overwrites. -/
def mergeKeyword (fields : Entries String Json) (key : String) : Json → Entries String Json
  | .obj nested =>
    match Entries.find? key fields with
    | some (.obj existing) => Entries.insert key (.obj (mergeKeywords existing nested)) fields
    | _ => Entries.insert key (.obj nested) fields
  | value => Entries.insert key value fields
termination_by structural value => value

def mergeKeywords (fields : Entries String Json) : List (String × Json) → Entries String Json
  | [] => fields
  | (key, value) :: rest => mergeKeywords (mergeKeyword fields key value) rest
termination_by structural nested => nested

end

theorem mergeKeyword_eq_insert (fields : Entries String Json) (key : String) (value : Json) :
    ∃ stored, mergeKeyword fields key value = Entries.insert key stored fields := by
  cases value with
  | obj nested =>
    simp only [mergeKeyword]
    split
    · exact ⟨_, rfl⟩
    · exact ⟨_, rfl⟩
  | _ => exact ⟨_, rfl⟩

theorem nodup_keys_mergeKeyword {fields : Entries String Json} (h : fields.keys.Nodup)
    (key : String) (value : Json) : (mergeKeyword fields key value).keys.Nodup := by
  obtain ⟨stored, hs⟩ := mergeKeyword_eq_insert fields key value
  rw [hs]
  exact Entries.nodup_keys_insert h key stored

def mergeAt (keywords : Dict String Json) (key : String) (value : Json) : Dict String Json :=
  ⟨mergeKeyword keywords.entries key value, nodup_keys_mergeKeyword keywords.nodup key value⟩

/-- The parts of a name between its points; empty ones do not count. -/
def path (name : String) : List String :=
  let (first, others) := Text.split '.' name.toList
  ((first :: others).filter (!·.isEmpty)).map String.ofList

def nest (inner : List String) (value : Json) : Json :=
  inner.foldr (fun name value => .obj [(name, value)]) value

/-- The last part of a name decides whether it is a keyword. -/
def record (extra : List String) (notes : Annotations) (name : String) (text : List Char) :
    Annotations :=
  match path name with
  | [] => notes
  | key :: inner =>
    if isKeyword extra (inner.getLastD key) then
      let value := parseValue text
      if inner.isEmpty then { notes with keywords := notes.keywords.insert key value }
      else { notes with keywords := mergeAt notes.keywords key (nest inner value) }
    else { notes with other := Names.insert name notes.other }

/-! ## Comments -/

def vendorPrefix : List Char := "TJS-".toList

def beginsName (c : Char) : Bool := c.isAlpha || c == '_'

def isNameChar (c : Char) : Bool := Text.isWordChar c || c == '.' || c == '-'

def dropVendor (text : List Char) : List Char :=
  let rest := text.drop vendorPrefix.length
  if vendorPrefix.isPrefixOf text && rest.head?.any beginsName then rest else text

def readAnnotation (text : List Char) : Option (String × List Char) :=
  let text := dropVendor text
  if text.head?.any beginsName then
    some (String.ofList (text.takeWhile isNameChar), text.dropWhile isNameChar)
  else none

def recordSegment (extra : List String) (notes : Annotations) (text : List Char) : Annotations :=
  match readAnnotation text with
  | some (name, value) => record extra notes name value
  | none => notes

def describe (text : List Char) : Annotations :=
  let text := Text.trimRight text
  { empty with description := if text.isEmpty then none else some (String.ofList text) }

def parse (extra : List String) (comment : List Char) : Annotations :=
  let (head, segments) := Text.split '@' comment
  segments.foldl (recordSegment extra) (describe head)

/-! ## Symbols -/

def unifyBreaks : List Char → List Char
  | '\r' :: '\n' :: rest => '\n' :: unifyBreaks rest
  | c :: rest => c :: unifyBreaks rest
  | [] => []

def joinDocumentation (parts : List String) : List Char :=
  ['\n'].intercalate (parts.map fun part => unifyBreaks (Text.trim part.toList))

/--
The name and the text of the annotation in a tag.  A tag may hold the vendor's mark as its name and
the rest of the annotation as its text.
-/
def readTag (tag : DocTag) : String × List Char :=
  let text := (tag.text.getD "").toList
  match text with
  | '-' :: rest =>
    if tag.name = "TJS" then
      let isPart (c : Char) : Bool := !Text.isBlank c
      (String.ofList (rest.takeWhile isPart), rest.dropWhile isPart)
    else (plainName tag.name, text)
  | text => (plainName tag.name, text)
where
  plainName (name : String) : String :=
    if vendorPrefix.isPrefixOf name.toList then String.ofList (name.toList.drop vendorPrefix.length)
    else name

def recordTag (extra : List String) (notes : Annotations) (tag : DocTag) : Annotations :=
  record extra notes (readTag tag).1 (readTag tag).2

def ofComment (extra : List String) (documentation : List String) (tags : List DocTag) :
    Annotations :=
  tags.foldl (recordTag extra) (parse extra (joinDocumentation documentation))

def ofSymbol (extra : List String) (symbol : Symbol) : Annotations :=
  ofComment extra symbol.documentation symbol.tags

end Annotations

end TypeSchema
