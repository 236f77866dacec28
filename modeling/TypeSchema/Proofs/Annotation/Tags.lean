import TypeSchema.Proofs.Annotation.Comments

/-!
# Tags as comments

The tags of a symbol could as well stand at the end of its comment, each on a line of its own: the
annotations that are read are the same.  A tag that has the vendor's mark as its name, and the rest
of the annotation as its text, is put together without a blank.
-/

namespace TypeSchema.Annotations

/-- An underscore or a Latin letter without marks, then word characters, points and hyphens. -/
def isName : List Char → Bool
  | [] => false
  | c :: rest => beginsName c && rest.all isNameChar

def tagText (tag : DocTag) : List Char := (tag.text.getD "").toList

/-- The name of the annotation begins in the text of the tag. -/
def splitsName (tag : DocTag) : Bool := tag.name == "TJS" && (tagText tag).head? == some '-'

/-- A tag as it is written in a comment. -/
def tagComment (tag : DocTag) : List Char :=
  '@' :: tag.name.toList ++ if splitsName tag then tagText tag else ' ' :: tagText tag

def symbolComment (documentation : List String) (tags : List DocTag) : List Char :=
  joinDocumentation documentation ++ tags.flatMap fun tag => '\n' :: tagComment tag

/-- The tag has a name and a text such as they may stand in a comment. -/
structure Writable (tag : DocTag) : Prop where
  name : isName tag.name.toList = true
  vendor : vendorPrefix <+: tag.name.toList →
    (tag.name.toList.drop vendorPrefix.length).head?.any beginsName = true
  text : '@' ∉ tagText tag
  split : splitsName tag = true → isName ((tagText tag).tail.takeWhile (!Text.isBlank ·)) = true

instance (tag : DocTag) : Decidable (Writable tag) :=
  decidable_of_iff (isName tag.name.toList = true ∧
      (vendorPrefix <+: tag.name.toList →
        (tag.name.toList.drop vendorPrefix.length).head?.any beginsName = true) ∧
      '@' ∉ tagText tag ∧
      (splitsName tag = true → isName ((tagText tag).tail.takeWhile (!Text.isBlank ·)) = true))
    ⟨fun ⟨name, vendor, text, split⟩ => ⟨name, vendor, text, split⟩,
      fun h => ⟨h.name, h.vendor, h.text, h.split⟩⟩

variable {text : List Char} {tag : DocTag}

theorem isName_iff : isName text = true ↔
    text.head?.any beginsName = true ∧ ∀ c ∈ text, isNameChar c = true := by
  cases text with
  | nil => simp [isName]
  | cons c rest =>
      simp only [isName, Bool.and_eq_true, List.all_eq_true, List.head?_cons, Option.any_some,
        List.forall_mem_cons]
      exact and_congr_right fun hbegins =>
        (and_iff_right (isNameChar_of_beginsName hbegins)).symm

/-- A name alone is an annotation without a value. -/
theorem readAnnotation_of_isName (h : isName (dropVendor text) = true) :
    readAnnotation text = some (String.ofList (dropVendor text), []) := by
  obtain ⟨hbegins, hnames⟩ := isName_iff.1 h
  have htake : (dropVendor text ++ []).takeWhile isNameChar = dropVendor text :=
    Text.takeWhile_run hnames nofun
  have hdrop : (dropVendor text ++ []).dropWhile isNameChar = [] :=
    Text.dropWhile_run hnames nofun
  rw [List.append_nil] at htake hdrop
  unfold readAnnotation
  simp only [hbegins, if_true, htake, hdrop]

/-- An annotation ends its name with its value. -/
theorem recordSegment_name {name value : List Char} (h : isName (dropVendor name) = true)
    (hvalue : EndsName value) (extra : List String) (notes : Annotations) :
    recordSegment extra notes (name ++ value) =
      record extra notes (String.ofList (dropVendor name)) value := by
  rw [recordSegment, readAnnotation_append hvalue, readAnnotation_of_isName h]
  rfl

/-! ## Tags -/

theorem dropVendor_of_begins (h : text.head?.any beginsName = true) :
    dropVendor (vendorPrefix ++ text) = text := by
  have hmark : vendorPrefix.isPrefixOf (vendorPrefix ++ text) = true :=
    List.isPrefixOf_iff_prefix.2 (List.prefix_append _ _)
  rw [dropVendor, hmark, List.drop_left, h]
  rfl

theorem dropVendor_name (h : Writable tag) :
    dropVendor tag.name.toList = (readTag.plainName tag.name).toList := by
  rw [dropVendor, readTag.plainName]
  cases hmark : vendorPrefix.isPrefixOf tag.name.toList with
  | false => rfl
  | true =>
      rw [h.vendor (List.isPrefixOf_iff_prefix.1 hmark)]
      simp

theorem isName_dropVendor (h : Writable tag) : isName (dropVendor tag.name.toList) = true := by
  obtain ⟨hbegins, hnames⟩ := isName_iff.1 h.name
  unfold dropVendor
  dsimp only
  split
  · rename_i hdropped
    exact isName_iff.2 ⟨(Bool.and_eq_true_iff.1 hdropped).2,
      fun c hc => hnames c (List.mem_of_mem_drop hc)⟩
  · exact h.name

theorem readTag_whole (h : splitsName tag = false) :
    readTag tag = (readTag.plainName tag.name, tagText tag) := by
  unfold readTag
  unfold splitsName at h
  dsimp only
  split
  · rename_i rest htext
    have hname : tag.name ≠ "TJS" := by
      rintro hname
      rw [hname, tagText, htext] at h
      cases h
    rw [if_neg hname, tagText, htext]
  · rfl

theorem readTag_split (h : splitsName tag = true) :
    ∃ rest, tagText tag = '-' :: rest ∧ tag.name = "TJS" ∧
      readTag tag = (String.ofList (rest.takeWhile (!Text.isBlank ·)),
        rest.dropWhile (!Text.isBlank ·)) := by
  obtain ⟨hname, hhead⟩ := Bool.and_eq_true_iff.1 h
  obtain ⟨rest, htext⟩ := List.head?_eq_some_iff.1 (eq_of_beq hhead)
  refine ⟨rest, htext, eq_of_beq hname, ?_⟩
  unfold tagText at htext
  simp only [readTag, htext, eq_of_beq hname, if_true]

theorem endsName_space (text : List Char) : EndsName (' ' :: text) := by
  intro c hc
  cases hc
  decide

theorem endsName_dropWhile (text : List Char) : EndsName (text.dropWhile (!Text.isBlank ·)) := by
  intro c hc
  have hblank := List.head?_dropWhile_not (!Text.isBlank ·) text
  rw [Option.mem_def.1 hc] at hblank
  exact isNameChar_of_isBlank (by simpa using hblank)

/-- A tag is recorded as the annotation that it is in a comment. -/
theorem parse_append_tag (h : Writable tag) (extra : List String) (comment : List Char) :
    parse extra (comment ++ tagComment tag) = recordTag extra (parse extra comment) tag := by
  cases hsplit : splitsName tag with
  | false =>
      have hsegment : '@' ∉ tag.name.toList ++ ' ' :: tagText tag := by
        have hname : '@' ∉ tag.name.toList := fun hmem =>
          absurd ((isName_iff.1 h.name).2 _ hmem) (by decide +kernel)
        simp [hname, h.text]
      have hblank : Text.trim (' ' :: tagText tag) = Text.trim (tagText tag) :=
        @Text.trim_blank_append [' '] (List.forall_mem_singleton.2 (by decide)) (tagText tag)
      rw [tagComment, hsplit, List.cons_append, if_neg Bool.false_ne_true,
        parse_append_annotation extra comment hsegment,
        recordSegment_name (isName_dropVendor h) (endsName_space _), record_congr hblank,
        dropVendor_name h, String.ofList_toList, recordTag, readTag_whole hsplit]
  | true =>
      obtain ⟨rest, htext, hname, hread⟩ := readTag_split hsplit
      have hrun := h.split hsplit
      rw [htext, List.tail_cons] at hrun
      have hsegment : tag.name.toList ++ tagText tag =
          (vendorPrefix ++ rest.takeWhile (!Text.isBlank ·)) ++ rest.dropWhile (!Text.isBlank ·) := by
        rw [List.append_assoc, List.takeWhile_append_dropWhile, htext, hname]
        rfl
      have hmarker : '@' ∉ tag.name.toList ++ tagText tag := by
        rw [List.mem_append, hname, not_or]
        exact ⟨by decide, h.text⟩
      have hdropped := dropVendor_of_begins (isName_iff.1 hrun).1
      rw [tagComment, hsplit, List.cons_append, if_pos rfl,
        parse_append_annotation extra comment hmarker, hsegment,
        recordSegment_name (by rw [hdropped]; exact hrun) (endsName_dropWhile rest), hdropped,
        recordTag, hread]

/-- Recording the tags of a symbol after its comment is reading one comment that ends with them. -/
theorem ofComment_eq_parse {extra documentation : List String} {tags : List DocTag}
    (h : ∀ tag ∈ tags, Writable tag) :
    ofComment extra documentation tags = parse extra (symbolComment documentation tags) := by
  unfold ofComment symbolComment
  generalize joinDocumentation documentation = comment
  induction tags generalizing comment with
  | nil => simp
  | cons tag rest ih =>
      obtain ⟨htag, hrest⟩ := List.forall_mem_cons.1 h
      have hbreak : parse extra (comment ++ ['\n']) = parse extra comment :=
        parse_append_blank extra comment (List.forall_mem_singleton.2 (by decide))
      rw [List.foldl_cons, ← hbreak, ← parse_append_tag htag, ih hrest, List.flatMap_cons]
      simp

def linkDocumentation : List String := ["  Where it is found.\r\n", "@minLength 1"]

/-- Tags of the four kinds: plain, with the mark as a prefix, split behind it, and without text. -/
def linkTags : List DocTag :=
  [⟨"maxLength", some "80"⟩, ⟨"TJS-pattern", some "^http"⟩, ⟨"TJS", some "-format uri"⟩,
    ⟨"nullable", none⟩]

theorem ofComment_eq_parse_link : (∀ tag ∈ linkTags, Writable tag) ∧
    ofComment [] linkDocumentation linkTags = parse [] ("Where it is found.\n@minLength 1\n" ++
      "@maxLength 80\n@TJS-pattern ^http\n@TJS-format uri\n@nullable ").toList := by
  have hwritable : ∀ tag ∈ linkTags, Writable tag := by decide +kernel
  have hcomment : symbolComment linkDocumentation linkTags =
      ("Where it is found.\n@minLength 1\n" ++
        "@maxLength 80\n@TJS-pattern ^http\n@TJS-format uri\n@nullable ").toList := by
    decide +kernel
  exact ⟨hwritable, hcomment ▸ ofComment_eq_parse hwritable⟩

end TypeSchema.Annotations
