import TypeSchema.Annotation

/-!
# Parts of comments

An annotation goes on up to the next at-sign, so what stands in front of an at-sign is read as if
the comment ended there.  Blanks at the end of a comment change nothing, whether they stand behind
the description, a name or a value.
-/

namespace TypeSchema.Annotations

/-! ## Names -/

theorem isNameChar_of_isBlank {c : Char} (h : Text.isBlank c = true) : isNameChar c = false := by
  have hletter : Text.blankRanges.apart Text.letterRanges = true := by decide +kernel
  have hword : Text.blankRanges.apart Text.wordRanges = true := by decide +kernel
  have hother {d : Char} (hd : Text.isBlank d = false) : (c == d) = false := by
    rw [beq_eq_false_iff_ne]
    rintro rfl
    rw [hd] at h
    cases h
  rw [isNameChar, Text.isWordChar, Text.isLetter, Text.Ranges.not_contains_of_apart hletter h,
    Text.Ranges.not_contains_of_apart hword h, hother (by decide), hother (by decide)]
  rfl

theorem isNameChar_of_beginsName {c : Char} (h : beginsName c = true) : isNameChar c = true := by
  have hascii : ∀ n < 123, beginsName (Char.ofNat n) = true → isNameChar (Char.ofNat n) = true := by
    decide +kernel
  have hbound : c.toNat < 123 := by
    change ((decide (c.val ≥ 'A'.val ∧ c.val ≤ 'Z'.val) ||
      decide (c.val ≥ 'a'.val) && decide (c.val ≤ 'z'.val)) || c == '_') = true at h
    simp only [Bool.or_eq_true, Bool.and_eq_true, decide_eq_true_eq, beq_iff_eq] at h
    rcases h with (⟨-, h⟩ | ⟨-, h⟩) | rfl
    · exact Nat.lt_of_le_of_lt h (by decide)
    · exact Nat.lt_of_le_of_lt h (by decide)
    · decide
  rw [← Char.ofNat_toNat c] at h ⊢
  exact hascii _ hbound h

/-- The text does not go on with a character of names. -/
def EndsName (text : List Char) : Prop := ∀ c ∈ text.head?, isNameChar c = false

variable {text after blank : List Char}

theorem endsName_of_blank (h : ∀ c ∈ blank, Text.isBlank c = true) : EndsName blank :=
  fun c hc => isNameChar_of_isBlank (h c (List.mem_of_mem_head? hc))

theorem EndsName.head?_any (h : EndsName after) : after.head?.any beginsName = false := by
  cases after with
  | nil => rfl
  | cons c rest =>
      refine Bool.eq_false_iff.2 fun hbegins => ?_
      have hname := isNameChar_of_beginsName hbegins
      rw [h c rfl] at hname
      cases hname

theorem EndsName.head?_append_any (h : EndsName after) (text : List Char) :
    (text ++ after).head?.any beginsName = text.head?.any beginsName := by
  cases text with
  | nil => exact h.head?_any
  | cons c rest => rfl

theorem EndsName.prefix_append_iff (h : EndsName after) {start : List Char}
    (hstart : ∀ c ∈ start, isNameChar c = true) : start <+: text ++ after ↔ start <+: text := by
  refine ⟨fun hstarts => ?_, fun hstarts => hstarts.trans (List.prefix_append text after)⟩
  rcases List.prefix_or_prefix_of_prefix hstarts (List.prefix_append text after) with
    hle | ⟨rest, rfl⟩
  · exact hle
  · have hrest := (List.prefix_append_right_inj text).1 hstarts
    cases rest with
    | nil => simp
    | cons c rest =>
        obtain ⟨others, rfl⟩ := hrest
        have hname := hstart c (by simp)
        rw [h c rfl] at hname
        cases hname

theorem vendorPrefix_names : ∀ c ∈ vendorPrefix, isNameChar c = true :=
  List.all_eq_true.1 (by decide +kernel)

theorem dropVendor_append (h : EndsName after) (text : List Char) :
    dropVendor (text ++ after) = dropVendor text ++ after := by
  unfold dropVendor
  have hmark : vendorPrefix.isPrefixOf (text ++ after) = vendorPrefix.isPrefixOf text := by
    rw [Bool.eq_iff_iff, List.isPrefixOf_iff_prefix, List.isPrefixOf_iff_prefix,
      h.prefix_append_iff vendorPrefix_names]
  rw [hmark]
  cases hvendor : vendorPrefix.isPrefixOf text with
  | false => rfl
  | true =>
      obtain ⟨rest, rfl⟩ := List.isPrefixOf_iff_prefix.1 hvendor
      simp only [List.append_assoc, List.drop_left, Bool.true_and, h.head?_append_any]
      split <;> simp

/-- What stands behind a name belongs to the value. -/
theorem readAnnotation_append (h : EndsName after) (text : List Char) :
    readAnnotation (text ++ after) =
      ( readAnnotation text).map fun a => (a.1, a.2 ++ after) := by
  unfold readAnnotation
  simp only [dropVendor_append h, h.head?_append_any, Text.takeWhile_before h,
    Text.dropWhile_before h]
  split <;> rfl

/-! ## Values -/

theorem record_congr {text text' : List Char} (h : Text.trim text = Text.trim text')
    (extra : List String) (notes : Annotations) (name : String) :
    record extra notes name text = record extra notes name text' := by
  have hvalue : parseValue text = parseValue text' := by rw [parseValue, parseValue, h]
  simp only [record, hvalue]

theorem recordSegment_append_blank (h : ∀ c ∈ blank, Text.isBlank c = true) (extra : List String)
    (notes : Annotations) (text : List Char) :
    recordSegment extra notes (text ++ blank) = recordSegment extra notes text := by
  rw [recordSegment, readAnnotation_append (endsName_of_blank h), recordSegment]
  cases readAnnotation text with
  | none => rfl
  | some a => exact record_congr (Text.trim_append_blank h a.2) extra notes a.1

/-! ## Comments -/

variable (extra : List String) (comment : List Char)

theorem parse_append_marker (rest : List Char) :
    parse extra (comment ++ '@' :: rest) =
      ((Text.split '@' rest).1 :: (Text.split '@' rest).2).foldl (recordSegment extra)
        (parse extra comment) := by
  simp only [parse, Text.split_append_cons, List.foldl_append]

/-- An annotation at the end of a comment is recorded after all others. -/
theorem parse_append_annotation {segment : List Char} (h : '@' ∉ segment) :
    parse extra (comment ++ '@' :: segment) =
      recordSegment extra (parse extra comment) segment := by
  rw [parse_append_marker, Text.split_of_not_mem h]
  rfl

theorem parse_of_not_mem {comment : List Char} (h : '@' ∉ comment) :
    parse extra comment = describe comment := by
  rw [parse, Text.split_of_not_mem h]
  rfl

theorem parse_append_blank {blank : List Char} (h : ∀ c ∈ blank, Text.isBlank c = true) :
    parse extra (comment ++ blank) = parse extra comment := by
  have hblank : '@' ∉ blank := fun hmem => absurd (h _ hmem) (by decide)
  by_cases hmem : '@' ∈ comment
  · obtain ⟨before, segment, rfl, hsegment⟩ := Text.exists_last_of_mem hmem
    have hjoined : '@' ∉ segment ++ blank := fun hmem =>
      (List.mem_append.1 hmem).elim hsegment hblank
    rw [List.append_assoc, List.cons_append, parse_append_annotation extra before hjoined,
      parse_append_annotation extra before hsegment, recordSegment_append_blank h]
  · have hjoined : '@' ∉ comment ++ blank := fun hmem' =>
      (List.mem_append.1 hmem').elim hmem hblank
    rw [parse_of_not_mem extra hjoined, parse_of_not_mem extra hmem, describe, describe,
      Text.trimRight_append_blank h]

end TypeSchema.Annotations
