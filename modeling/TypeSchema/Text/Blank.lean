import TypeSchema.Text.Ranges

/-!
# Blank characters

The characters with the property White_Space.  Blanks separate words in annotations and literals.
-/

namespace TypeSchema.Text

def blankRanges : Ranges := [
  (0x9, 0xD), (0x20, 0x20), (0x85, 0x85), (0xA0, 0xA0), (0x1680, 0x1680), (0x2000, 0x200A),
  (0x2028, 0x2029), (0x202F, 0x202F), (0x205F, 0x205F), (0x3000, 0x3000)]

def isBlank (c : Char) : Bool := blankRanges.contains c.toNat

def trimLeft (text : List Char) : List Char := text.dropWhile isBlank

def trimRight (text : List Char) : List Char := (text.reverse.dropWhile isBlank).reverse

def trim (text : List Char) : List Char := trimRight (trimLeft text)

theorem isBlank_of_isWhitespace {c : Char} (h : c.isWhitespace = true) : isBlank c = true := by
  simp only [Char.isWhitespace, Bool.or_eq_true, decide_eq_true_eq] at h
  rcases h with ((rfl | rfl) | rfl) | rfl <;> rfl

theorem isBlank_of_trimLeft_eq_cons {text : List Char} {c : Char} {rest : List Char}
    (h : trimLeft text = c :: rest) : isBlank c = false := by
  induction text with
  | nil => simp [trimLeft] at h
  | cons d text ih =>
    by_cases hd : isBlank d
    · exact ih (by simpa [trimLeft, hd] using h)
    · simp only [trimLeft, List.dropWhile_cons, hd, Bool.false_eq_true, if_false,
        List.cons.injEq] at h
      simpa [h.1] using hd

theorem trimRight_append_blank {blank : List Char} (h : ∀ c ∈ blank, isBlank c = true)
    (text : List Char) : trimRight (text ++ blank) = trimRight text := by
  have hreverse : ∀ c ∈ blank.reverse, isBlank c = true := fun c hc => h c (List.mem_reverse.1 hc)
  rw [trimRight, List.reverse_append, List.dropWhile_append_of_pos hreverse, trimRight]

theorem trim_blank_append {blank : List Char} (h : ∀ c ∈ blank, isBlank c = true)
    (text : List Char) : trim (blank ++ text) = trim text := by
  rw [trim, trimLeft, List.dropWhile_append_of_pos h, trim, trimLeft]

theorem trim_append_blank {blank : List Char} (h : ∀ c ∈ blank, isBlank c = true)
    (text : List Char) : trim (text ++ blank) = trim text := by
  rw [trim, trimLeft, List.dropWhile_append]
  split
  · rename_i hempty
    have htext : trimLeft text = [] := List.isEmpty_iff.1 hempty
    have hblank : (blank ++ []).dropWhile isBlank = [] := List.dropWhile_append_of_pos h
    rw [List.append_nil] at hblank
    rw [hblank, trim, htext]
  · exact trimRight_append_blank h _

end TypeSchema.Text
