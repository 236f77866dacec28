import TypeSchema.Proofs.Annotation.Composition
import TypeSchema.Proofs.Annotation.Tags

/-!
# Segments of comments

At-signs cut a comment into segments, and each segment denotes an annotation of its own or none.
`Denotes` says which, without a parser.  To add a segment to a comment is to record the annotation
that it denotes after those of the comment.
-/

namespace TypeSchema.Text

/-- Around a trimmed text there were blanks only. -/
theorem exists_blanks (text : List Char) :
    ∃ before after, (∀ c ∈ before, isBlank c = true) ∧ (∀ c ∈ after, isBlank c = true) ∧
      text = before ++ (trim text ++ after) := by
  refine ⟨text.takeWhile isBlank, ((trimLeft text).reverse.takeWhile isBlank).reverse,
    List.all_eq_true.1 List.all_takeWhile,
    fun c hc => List.all_eq_true.1 List.all_takeWhile c (List.mem_reverse.1 hc), ?_⟩
  rw [trim, trimRight, ← List.reverse_append, List.takeWhile_append_dropWhile,
    List.reverse_reverse, trimLeft, List.takeWhile_append_dropWhile]

theorem trim_trim (text : List Char) : trim (trim text) = trim text := by
  obtain ⟨before, after, hbefore, hafter, htext⟩ := exists_blanks text
  have htrim := congrArg trim htext
  rwa [trim_blank_append hbefore, trim_append_blank hafter, eq_comm] at htrim

end TypeSchema.Text

namespace TypeSchema.Annotations

variable {segment text : List Char} {a : String × List Char} {extra : List String}

/-! ## What a segment denotes -/

/-- A Latin letter without marks, or an underscore, comes first. -/
def Begins (text : List Char) : Prop := text.head?.any beginsName = true

instance (text : List Char) : Decidable (Begins text) :=
  inferInstanceAs (Decidable (text.head?.any beginsName = true))

/-- The segment without the vendor's mark, which counts only if a name begins behind it. -/
inductive Unmarked : List Char → List Char → Prop
  | marked {text : List Char} (h : Begins text) : Unmarked (vendorPrefix ++ text) text
  | plain {text : List Char} (h : ∀ rest, text = vendorPrefix ++ rest → ¬ Begins rest) :
    Unmarked text text

/-- The name goes on as long as it can, and the rest without blanks around it is the value. -/
inductive Denotes (segment : List Char) : String × List Char → Prop
  | intro {name rest : List Char} (hsegment : Unmarked segment (name ++ rest))
    (hname : isName name = true) (hends : EndsName rest) :
    Denotes segment (String.ofList name, Text.trim rest)

/-- The annotation that is read from a segment. -/
def denoted (segment : List Char) : Option (String × List Char) :=
  ( readAnnotation segment).map fun a => (a.1, Text.trim a.2)

theorem dropVendor_of_not_begins (h : ∀ rest, text = vendorPrefix ++ rest → ¬ Begins rest) :
    dropVendor text = text := by
  unfold dropVendor
  dsimp only
  split
  · rename_i hmark
    rw [Bool.and_eq_true, List.isPrefixOf_iff_prefix] at hmark
    obtain ⟨⟨rest, rfl⟩, hbegins⟩ := hmark
    rw [List.drop_left] at hbegins
    exact absurd hbegins (h rest rfl)
  · rfl

theorem dropVendor_eq_iff : dropVendor segment = text ↔ Unmarked segment text := by
  constructor
  · rintro rfl
    by_cases h : ∃ rest, segment = vendorPrefix ++ rest ∧ Begins rest
    · obtain ⟨rest, rfl, hbegins⟩ := h
      rw [dropVendor_of_begins hbegins]
      exact .marked hbegins
    · have hplain : ∀ rest, segment = vendorPrefix ++ rest → ¬ Begins rest :=
        fun rest heq hbegins => h ⟨rest, heq, hbegins⟩
      rw [dropVendor_of_not_begins hplain]
      exact .plain hplain
  · intro h
    cases h with
    | marked h => exact dropVendor_of_begins h
    | plain h => exact dropVendor_of_not_begins h

theorem begins_dropVendor : Begins (dropVendor segment) ↔ Begins segment := by
  have h : Unmarked segment (dropVendor segment) := dropVendor_eq_iff.1 rfl
  generalize dropVendor segment = text at h
  cases h with
  | marked h => exact iff_of_true h rfl
  | plain _ => rfl

theorem isName_takeWhile (h : Begins text) : isName (text.takeWhile isNameChar) = true := by
  cases text with
  | nil => cases h
  | cons c rest =>
      rw [List.takeWhile_cons_of_pos (isNameChar_of_beginsName h), isName, List.all_takeWhile,
        Bool.and_true]
      exact h

theorem endsName_dropWhile_isNameChar (text : List Char) :
    EndsName (text.dropWhile isNameChar) := by
  intro c hc
  have hends := List.head?_dropWhile_not isNameChar text
  rw [Option.mem_def.1 hc] at hends
  simpa using hends

theorem readAnnotation_of_begins (h : Begins segment) :
    readAnnotation segment = some (String.ofList ((dropVendor segment).takeWhile isNameChar),
      (dropVendor segment).dropWhile isNameChar) :=
  if_pos (begins_dropVendor.2 h)

theorem readAnnotation_of_not_begins (h : ¬ Begins segment) : readAnnotation segment = none :=
  if_neg (mt begins_dropVendor.1 h)

/-- Just one annotation is denoted by a segment that begins like a name. -/
theorem denotes_iff_of_begins (h : Begins segment) :
    Denotes segment a ↔ denoted segment = some a := by
  rw [denoted, readAnnotation_of_begins h, Option.map_some, Option.some.injEq]
  constructor
  · rintro ⟨hsegment, hname, hends⟩
    have hnames := (isName_iff.1 hname).2
    rw [dropVendor_eq_iff.2 hsegment, Text.takeWhile_run hnames hends,
      Text.dropWhile_run hnames hends]
  · rintro rfl
    refine .intro (dropVendor_eq_iff.1 List.takeWhile_append_dropWhile.symm)
      (isName_takeWhile (begins_dropVendor.2 h)) (endsName_dropWhile_isNameChar _)

theorem not_denotes (h : ¬ Begins segment) : ¬ Denotes segment a := by
  rintro ⟨hsegment, hname, -⟩
  rename_i name rest
  refine h (begins_dropVendor.1 ?_)
  rw [dropVendor_eq_iff.2 hsegment]
  cases name with
  | nil => cases hname
  | cons c name => exact (isName_iff.1 hname).1

/-! ## Comments -/

/-- The annotations that stand in a comment. -/
def annotations (comment : List Char) : List (String × List Char) :=
  (Text.split '@' comment).2.filterMap denoted

theorem annotations_append (comment : List Char) (h : '@' ∉ segment) :
    annotations (comment ++ '@' :: segment) = annotations comment ++ (denoted segment).toList := by
  rw [annotations, Text.split_append_cons, Text.split_of_not_mem h, List.filterMap_append]
  cases hdenoted : denoted segment <;> simp [annotations, hdenoted]

theorem recordSegment_eq (extra : List String) (notes : Annotations) (segment : List Char) :
    recordSegment extra notes segment = recordAll extra notes (denoted segment).toList := by
  rw [recordSegment, denoted]
  cases readAnnotation segment with
  | none => rfl
  | some a => exact record_congr (Text.trim_trim a.2).symm extra notes a.1

/-- A comment is its description with all its annotations recorded. -/
theorem parse_eq_recordAll (extra : List String) (comment : List Char) :
    parse extra comment =
      recordAll extra (describe (Text.split '@' comment).1) (annotations comment) := by
  unfold parse annotations
  dsimp only
  generalize describe (Text.split '@' comment).1 = notes
  induction (Text.split '@' comment).2 generalizing notes with
  | nil => rfl
  | cons segment rest ih =>
      rw [List.foldl_cons, recordSegment_eq, ih, List.filterMap_cons]
      cases denoted segment <;> rfl

theorem parse_append_denoted (extra : List String) (comment : List Char) (h : '@' ∉ segment) :
    parse extra (comment ++ '@' :: segment) =
      recordAll extra (parse extra comment) (denoted segment).toList := by
  have hhead : (Text.split '@' (comment ++ '@' :: segment)).1 = (Text.split '@' comment).1 := by
    rw [Text.split_append_cons]
  rw [parse_eq_recordAll, hhead, annotations_append comment h, parse_eq_recordAll extra comment]
  exact List.foldl_append

/-- The later notes keep what the earlier ones say, apart from the keyword of this name. -/
structure Keeps (name : String) (earlier later : Annotations) : Prop where
  description : later.description = earlier.description
  keywords : ∀ keys, Parted (path name) keys →
    (Json.ofDict later.keywords).follow keys = (Json.ofDict earlier.keywords).follow keys
  other : earlier.other ⊆ later.other

theorem record_keeps (extra : List String) (notes : Annotations) (name : String)
    (text : List Char) : Keeps name notes (record extra notes name text) where
  description := record_description extra notes name text
  keywords _ hparted := follow_record_parted fun _ => hparted
  other := by
    unfold record
    split
    · exact List.Subset.refl _
    · split
      · split <;> exact List.Subset.refl _
      · exact fun _ hname => Names.mem_insert.2 (.inr hname)

/-- A segment behind a comment adds the annotation that it denotes, and changes nothing if it
denotes none. -/
theorem parse_append_segment (extra : List String) (comment : List Char) (h : '@' ∉ segment) :
    (Begins segment → ∃ name value,
      (∀ a, Denotes segment a ↔ a = (name, value)) ∧
      parse extra (comment ++ '@' :: segment) = record extra (parse extra comment) name value ∧
      annotations (comment ++ '@' :: segment) = annotations comment ++ [(name, value)] ∧
      Keeps name (parse extra comment) (parse extra (comment ++ '@' :: segment))) ∧
    (¬ Begins segment →
      (∀ a, ¬ Denotes segment a) ∧
      parse extra (comment ++ '@' :: segment) = parse extra comment ∧
      annotations (comment ++ '@' :: segment) = annotations comment) := by
  rw [annotations_append comment h, parse_append_denoted extra comment h]
  constructor
  · intro hbegins
    obtain ⟨⟨name, value⟩, hdenoted⟩ : ∃ a, denoted segment = some a := by
      rw [denoted, readAnnotation_of_begins hbegins]
      exact ⟨_, rfl⟩
    rw [hdenoted]
    refine ⟨name, value, fun a => ?_, rfl, rfl, record_keeps extra _ name value⟩
    rw [denotes_iff_of_begins hbegins, hdenoted, Option.some.injEq, eq_comm]
  · intro hbegins
    have hdenoted : denoted segment = none := by
      rw [denoted, readAnnotation_of_not_begins hbegins]
      rfl
    rw [hdenoted]
    exact ⟨fun a => not_denotes hbegins, rfl, List.append_nil _⟩

theorem parse_append_segment_maximum :
    '@' ∉ "TJS-maximum 9\n".toList ∧
      parse [] ("How tall.\n@minimum 1\n".toList ++ '@' :: "TJS-maximum 9\n".toList) =
        record [] (parse [] "How tall.\n@minimum 1\n".toList) "maximum" "9".toList := by
  have hdenotes : Denotes "TJS-maximum 9\n".toList ("maximum", "9".toList) :=
    (denotes_iff_of_begins (by decide)).2 (by decide +kernel)
  have hmarker : '@' ∉ "TJS-maximum 9\n".toList := by decide
  obtain ⟨name, value, hunique, hparse, -⟩ :=
    (parse_append_segment [] "How tall.\n@minimum 1\n".toList hmarker).1 (by decide)
  cases (hunique _).1 hdenotes
  exact ⟨hmarker, hparse⟩

end TypeSchema.Annotations
