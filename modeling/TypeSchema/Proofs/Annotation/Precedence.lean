import TypeSchema.Proofs.Annotation.Merging
import TypeSchema.Proofs.Json.Held

/-!
# Precedence of annotations

Each annotation writes at the path of keys that its name spells, and nowhere else.  So what stands
at a path in the end was written by the last annotation that names it, unless a later one writes
above or below.  A name with points does not replace an object by another one, though: fields of the
old object that the new one has not are still there.
-/

namespace TypeSchema.Annotations

open Json (KeysDiffer)

variable {extra : List String} {notes notes' : Annotations} {name key : String}
  {text : List Char} {inner keys : List String} {annotations : List (String × List Char)}

def recordAll (extra : List String) (notes : Annotations)
    (annotations : List (String × List Char)) : Annotations :=
  annotations.foldl (fun notes a => record extra notes a.1 a.2) notes

/-- The keywords that some annotations write. -/
def keywordsOf (extra : List String) (annotations : List (String × List Char)) :
    Dict String Json :=
  (recordAll extra empty annotations).keywords

/-! ## One annotation -/

/-- What stands under the first key of a path once a value is written at the path. -/
def stored (old : Option Json) (inner : List String) (value : Json) : Json :=
  if inner.isEmpty then value else combine old (nest inner value)

theorem record_keyword (hname : namesKeyword extra name = true) (hpath : path name = key :: inner) :
    (record extra notes name text).keywords =
      notes.keywords.insert key (stored (notes.keywords.find? key) inner (parseValue text)) := by
  unfold namesKeyword at hname
  simp only [hpath] at hname
  simp only [record, hpath, hname, if_true, stored]
  split
  · rfl
  · exact Dict.ext (mergeKeyword_eq _ key _)

theorem record_other (hname : namesKeyword extra name = false) :
    (record extra notes name text).keywords = notes.keywords := by
  unfold namesKeyword at hname
  unfold record
  split
  · rfl
  · rename_i key inner hpath
    simp only [hpath] at hname
    rw [if_neg (by rw [hname]; exact Bool.false_ne_true)]

theorem path_ne_nil (hname : namesKeyword extra name = true) :
    ∃ key inner, path name = key :: inner := by
  unfold namesKeyword at hname
  split at hname
  · cases hname
  · rename_i key inner hpath
    exact ⟨key, inner, hpath⟩

theorem record_keywords_congr (h : notes.keywords = notes'.keywords) :
    (record extra notes name text).keywords = (record extra notes' name text).keywords := by
  cases hname : namesKeyword extra name with
  | false => rw [record_other hname, record_other hname, h]
  | true =>
      obtain ⟨key, inner, hpath⟩ := path_ne_nil hname
      rw [record_keyword hname hpath, record_keyword hname hpath, h]

/-! ## Values without repeated keys -/

theorem keysDiffer_parseValue (text : List Char) : KeysDiffer (parseValue text) := by
  unfold parseValue
  dsimp only
  cases hparse : Json.parse (Text.trim text) with
  | none => rfl
  | some value => exact (Json.fitsIn_parse hparse).keys

theorem keysDiffer_nest (inner : List String) {value : Json} (h : KeysDiffer value) :
    KeysDiffer (nest inner value) := by
  induction inner with
  | nil => exact h
  | cons name rest ih =>
      exact Json.keysDiffer_obj.2 ⟨by simp, List.forall_mem_singleton.2 ih⟩

theorem keysDiffer_stored {old : Option Json} {value : Json}
    (hold : ∀ v, old = some v → KeysDiffer v) (h : KeysDiffer value) :
    KeysDiffer (stored old inner value) := by
  unfold stored
  split
  · exact h
  · exact keysDiffer_combine hold (keysDiffer_nest inner h)

theorem keysDiffer_record (h : KeysDiffer (.ofDict notes.keywords)) :
    KeysDiffer (.ofDict (record extra notes name text).keywords) := by
  cases hname : namesKeyword extra name with
  | false => rwa [record_other hname]
  | true =>
      obtain ⟨key, inner, hpath⟩ := path_ne_nil hname
      rw [record_keyword hname hpath]
      exact h.insert key (keysDiffer_stored (fun _ => h.find?) (keysDiffer_parseValue text))

theorem keysDiffer_recordAll (h : KeysDiffer (.ofDict notes.keywords))
    (annotations : List (String × List Char)) :
    KeysDiffer (.ofDict (recordAll extra notes annotations).keywords) := by
  induction annotations generalizing notes with
  | nil => exact h
  | cons a rest ih => exact ih (keysDiffer_record h)

/-! ## Paths -/

theorem follow_stored (old : Option Json) (inner : List String) (value : Json) :
    (stored old inner value).follow inner =
      some (if inner.isEmpty then value else combine (old.bind (Json.follow inner)) value) := by
  unfold stored
  split
  · rename_i hinner
    rw [List.isEmpty_iff.1 hinner]
    rfl
  · exact follow_combine inner value old

theorem follow_record_self (hname : namesKeyword extra name = true) :
    (Json.ofDict (record extra notes name text).keywords).follow (path name) =
      some (if (path name).length = 1 then parseValue text
        else combine ((Json.ofDict notes.keywords).follow (path name)) (parseValue text)) := by
  obtain ⟨key, inner, hpath⟩ := path_ne_nil hname
  have hkey : (notes.keywords.insert key
      (stored (notes.keywords.find? key) inner (parseValue text))).find? key =
      some (stored (notes.keywords.find? key) inner (parseValue text)) :=
    Dict.find?_insert_self _ _ _
  rw [record_keyword hname hpath, hpath]
  change (Dict.find? _ key).bind (Json.follow inner) = _
  rw [hkey, Option.bind_some, follow_stored]
  simp [List.isEmpty_iff, Json.follow, Json.field?, Json.ofDict, Dict.find?]

theorem follow_record_parted (h : namesKeyword extra name = true → Parted (path name) keys) :
    (Json.ofDict (record extra notes name text).keywords).follow keys =
      (Json.ofDict notes.keywords).follow keys := by
  cases hname : namesKeyword extra name with
  | false => rw [record_other hname]
  | true =>
      obtain ⟨key, inner, hpath⟩ := path_ne_nil hname
      have hparted := h hname
      rw [record_keyword hname hpath]
      rw [hpath] at hparted
      cases keys with
      | nil => exact absurd List.nil_prefix hparted.2
      | cons first rest =>
          change (Dict.find? _ first).bind (Json.follow rest) = _
          rw [Dict.find?_insert]
          split
          · rename_i hfirst
            subst hfirst
            have hrest := parted_cons_iff.1 hparted
            have hinner : inner.isEmpty = false := by
              cases inner with
              | nil => exact absurd List.nil_prefix hrest.1
              | cons _ _ => rfl
            rw [Option.bind_some, stored, if_neg (by simp [hinner]),
              follow_combine_of_parted hrest]
            rfl
          · rfl

theorem follow_recordAll_parted
    (h : ∀ a ∈ annotations, namesKeyword extra a.1 = true → Parted (path a.1) keys)
    (notes : Annotations) :
    (Json.ofDict (recordAll extra notes annotations).keywords).follow keys =
      (Json.ofDict notes.keywords).follow keys := by
  induction annotations generalizing notes with
  | nil => rfl
  | cons a rest ih =>
      obtain ⟨ha, hrest⟩ := List.forall_mem_cons.1 h
      exact (ih hrest _).trans (follow_record_parted ha)

theorem keysDiffer_follow {v w : Json} (h : KeysDiffer v) (hw : v.follow keys = some w) :
    KeysDiffer w := by
  induction keys generalizing v with
  | nil =>
      cases hw
      exact h
  | cons key rest ih =>
      obtain ⟨field, hfield, hrest⟩ := Option.bind_eq_some_iff.1 hw
      obtain ⟨fields, rfl, hfound⟩ := Json.field?_eq_some hfield
      exact ih (h.find? hfound) hrest

/-! ## The last annotation of a path -/

theorem recordAll_keywords_congr (h : notes.keywords = notes'.keywords)
    (annotations : List (String × List Char)) :
    (recordAll extra notes annotations).keywords =
      (recordAll extra notes' annotations).keywords := by
  induction annotations generalizing notes notes' with
  | nil => exact h
  | cons a rest ih => exact ih (record_keywords_congr h)

theorem ofSymbol_keywords (extra : List String) (symbol : Symbol) :
    (ofSymbol extra symbol).keywords = keywordsOf extra (written symbol) := by
  rw [ofSymbol_eq]
  exact @recordAll_keywords_congr extra (describe _) empty rfl (written symbol)

section

variable {symbol : Symbol} {before after : List (String × List Char)}

theorem follow_ofSymbol (hwritten : written symbol = before ++ (name, text) :: after)
    (hname : namesKeyword extra name = true)
    (hafter : ∀ a ∈ after, namesKeyword extra a.1 = true → Parted (path a.1) (path name)) :
    (Json.ofDict (ofSymbol extra symbol).keywords).follow (path name) =
      some (if (path name).length = 1 then parseValue text
        else combine ((Json.ofDict (keywordsOf extra before)).follow (path name))
          (parseValue text)) := by
  rw [ofSymbol_keywords, hwritten]
  unfold keywordsOf recordAll
  rw [List.foldl_append, List.foldl_cons]
  exact (follow_recordAll_parted hafter _).trans (follow_record_self hname)

/-- What the last annotation of a path says stands there in the end just if its name has no points
or nothing that earlier annotations wrote there shows through. -/
theorem last_annotation_stands_iff
    (hwritten : written symbol = before ++ (name, text) :: after)
    (hname : namesKeyword extra name = true)
    (hafter : ∀ a ∈ after, namesKeyword extra a.1 = true → Parted (path a.1) (path name)) :
    Json.Agree ((Json.ofDict (ofSymbol extra symbol).keywords).follow (path name))
        (some (parseValue text)) ↔
      (path name).length = 1 ∨
        ∀ old, (Json.ofDict (keywordsOf extra before)).follow (path name) = some old →
          coveredBy old (parseValue text) = true := by
  have hvalue := keysDiffer_parseValue text
  rw [follow_ofSymbol hwritten hname hafter, Json.agree_some_some]
  split
  · rename_i hlength
    exact iff_of_true (Json.same_refl hvalue) (.inl hlength)
  · rename_i hlength
    rw [or_iff_right hlength]
    cases hold : (Json.ofDict (keywordsOf extra before)).follow (path name) with
    | none => simpa [combine] using Json.same_refl hvalue
    | some old =>
        have hkeys : KeysDiffer (.ofDict (keywordsOf extra before)) :=
          @keysDiffer_recordAll extra empty rfl before
        rw [same_combine_iff (keysDiffer_follow hkeys hold) hvalue]
        simp

end

def laterRange : List Char := "\x7b\"from\": 1, \"to\": 2\x7d".toList

/-- A list of ranges whose default is said in the comment, and again in a tag. -/
def rangesSymbol : Symbol :=
  { Symbol.blank with
    name := "ranges"
    documentation := ["@items.default \x7b\"from\": 0\x7d\n@items.order 1"]
    tags := [
      ⟨"TJS-items.default", some (String.ofList laterRange)⟩, ⟨"items.type", some "object"⟩] }

def earlierRanges : List (String × List Char) :=
  [("items.default", " \x7b\"from\": 0\x7d\n".toList), ("items.order", " 1".toList)]

def rangesType : List (String × List Char) := [("items.type", "object".toList)]

theorem last_annotation_stands_iff_ranges :
    written rangesSymbol = earlierRanges ++ ("items.default", laterRange) :: rangesType ∧
    namesKeyword [] "items.default" = true ∧
    (∀ a ∈ rangesType, namesKeyword [] a.1 = true → Parted (path a.1) (path "items.default")) ∧
    (Json.Agree ((Json.ofDict (ofSymbol [] rangesSymbol).keywords).follow (path "items.default"))
        (some (parseValue laterRange)) ↔
      (path "items.default").length = 1 ∨
        ∀ old,
          (Json.ofDict (keywordsOf [] earlierRanges)).follow (path "items.default") = some old →
          coveredBy old (parseValue laterRange) = true) := by
  have hwritten : written rangesSymbol =
      earlierRanges ++ ("items.default", laterRange) :: rangesType := by decide +kernel
  have hname : namesKeyword [] "items.default" = true := by decide +kernel
  have hafter : ∀ a ∈ rangesType, namesKeyword [] a.1 = true →
      Parted (path a.1) (path "items.default") := by decide +kernel
  exact ⟨hwritten, hname, hafter, last_annotation_stands_iff hwritten hname hafter⟩

/-- A symbol whose items have two defaults without a common field. -/
def twoDefaultsSymbol : Symbol :=
  { Symbol.blank with
    documentation := ["@items.default \x7b\"a\": 1\x7d\n@items.default \x7b\"b\": 2\x7d"] }

theorem earlier_object_may_show_through :
    ¬ ∀ (extra : List String) (symbol : Symbol) (name : String) (text : List Char)
        (before after : List (String × List Char)),
      written symbol = before ++ (name, text) :: after → namesKeyword extra name = true →
      (∀ a ∈ after, namesKeyword extra a.1 = true → Parted (path a.1) (path name)) →
      Json.Agree ((Json.ofDict (ofSymbol extra symbol).keywords).follow (path name))
        (some (parseValue text)) := by
  intro hclaim
  have hshows := hclaim [] twoDefaultsSymbol "items.default" " \x7b\"b\": 2\x7d".toList
    [("items.default", " \x7b\"a\": 1\x7d\n".toList)] [] (by decide +kernel)
    (by decide +kernel) nofun
  exact absurd hshows (by decide +kernel)

end TypeSchema.Annotations
