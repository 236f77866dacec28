import Mathlib.Data.Set.Basic
import TypeSchema.Literal.Basic

/-!
# Blanks and comments of literals

The grammar of what stands between the parts of a literal, and at its end.  Skipping from a text
that begins so leads to what follows, and whatever is skipped is spelled so.

Grammars here are stated up to a set of laxities, in which reading goes beyond the lexical rules of
the language that literals are written in.  Without any they are its rules.
-/

namespace TypeSchema.Literal

inductive Laxity where
  /-- A block comment may end with the text. -/
  | openComment
  /-- A line comment goes on behind all line ends but U+000A, and a string behind U+000D. -/
  | lineEnd
  /-- U+0085 is a blank. -/
  | nextLine
  /-- Underscores may stand anywhere behind the first digit, or the point, of a number. -/
  | separator
  /-- Digits may follow a zero at the beginning of a number. -/
  | leadingZero
  /-- Any digit may be escaped, also in front of further digits. -/
  | octalEscape
  /-- A plus sign may stand for the first digit of a numbered escape. -/
  | plusSign
  /-- A code in braces may be greater than U+10FFFF. -/
  | codeBeyond

variable {lax lax' : Set Laxity} {text rest body : List Char}

def isLineEnd (c : Char) : Bool := c == '\n' || c == '\r' || c == '\u2028' || c == '\u2029'

/-! ## The grammar -/

/-- What stands between the two slashes of a line comment and U+000A: behind another line end only
blanks. -/
structure LineComment (lax : Set Laxity) (body : List Char) : Prop where
  unbroken : '\n' ∉ body
  ended : .lineEnd ∈ lax ∨ ∀ before c after, body = before ++ c :: after → isLineEnd c = true →
    ∀ d ∈ after, Text.isBlank d = true ∧ d ≠ '\u0085'

/-- What stands between the marks of a block comment. -/
def BlockComment (body : List Char) : Prop := ¬ ['*', '/'] <:+: body

/-- Blanks, and comments that are closed. -/
inductive Trivia (lax : Set Laxity) : List Char → Prop
  | nil : Trivia lax []
  | blank {c : Char} {rest : List Char} (hblank : Text.isBlank c = true)
      (hnext : .nextLine ∈ lax ∨ c ≠ '\u0085') (hrest : Trivia lax rest) : Trivia lax (c :: rest)
  | line {body rest : List Char} (hbody : LineComment lax body) (hrest : Trivia lax rest) :
      Trivia lax ('/' :: '/' :: (body ++ '\n' :: rest))
  | block {body rest : List Char} (hbody : BlockComment body) (hrest : Trivia lax rest) :
      Trivia lax ('/' :: '*' :: (body ++ '*' :: '/' :: rest))

/-- Trivia at the end of a text, which may end a line comment. -/
inductive Tail (lax : Set Laxity) : List Char → Prop
  | closed {text : List Char} (htext : Trivia lax text) : Tail lax text
  | line {text body : List Char} (htext : Trivia lax text) (hbody : LineComment lax body) :
      Tail lax (text ++ '/' :: '/' :: body)
  | block {text body : List Char} (htext : Trivia lax text) (hbody : BlockComment body)
      (hopen : .openComment ∈ lax) : Tail lax (text ++ '/' :: '*' :: body)

theorem LineComment.mono (h : LineComment lax body) (hle : lax ⊆ lax') : LineComment lax' body :=
  ⟨h.unbroken, h.ended.imp_left fun hmem => hle hmem⟩

theorem Trivia.mono (h : Trivia lax text) (hle : lax ⊆ lax') : Trivia lax' text := by
  induction h with
  | nil => exact .nil
  | blank hblank hnext _ ih => exact .blank hblank (hnext.imp_left fun hmem => hle hmem) ih
  | line hbody _ ih => exact .line (hbody.mono hle) ih
  | block hbody _ ih => exact .block hbody ih

theorem Trivia.append (h : Trivia lax text) (hrest : Trivia lax rest) :
    Trivia lax (text ++ rest) := by
  induction h with
  | nil => exact hrest
  | blank hblank hnext _ ih => exact .blank hblank hnext ih
  | line hbody _ ih => simpa using Trivia.line hbody ih
  | block hbody _ ih => simpa using Trivia.block hbody ih

/-- A line end behind trivia ends the comment that they may leave. -/
theorem Tail.newline (h : Tail lax text) (hclosed : .openComment ∉ lax) :
    Trivia lax (text ++ ['\n']) := by
  cases h with
  | closed htext => exact htext.append (.blank (by decide) (.inr (by decide)) .nil)
  | line htext hbody =>
      rw [List.append_assoc]
      exact htext.append (.line hbody .nil)
  | block _ _ hopen => exact absurd hopen hclosed

/-! ## What ends a name or a number -/

/-- Nothing follows that a name or a number could go on with. -/
def Stops (rest : List Char) : Prop := ∀ c ∈ rest.head?, isNameChar c = false ∧ c ≠ '.'

theorem stops_nil : Stops [] := fun _ hc => by cases hc

theorem stops_cons {c : Char} (hname : isNameChar c = false) (hpoint : c ≠ '.')
    (rest : List Char) : Stops (c :: rest) := by
  intro d hd
  cases hd
  exact ⟨hname, hpoint⟩

theorem isNameChar_of_isBlank {c : Char} (h : Text.isBlank c = true) : isNameChar c = false := by
  have hletter : Text.blankRanges.apart Text.letterRanges = true := by decide +kernel
  have hnumeral : Text.blankRanges.apart Text.numeralRanges = true := by decide +kernel
  have hother {d : Char} (hd : Text.isBlank d = false) : (c == d) = false := by
    rw [beq_eq_false_iff_ne]
    rintro rfl
    rw [hd] at h
    cases h
  rw [isNameChar, Text.isLetterOrNumeral, Text.isLetter,
    Text.Ranges.not_contains_of_apart hletter h, Text.Ranges.not_contains_of_apart hnumeral h,
    hother (by decide), hother (by decide)]
  rfl

theorem Trivia.stops (h : Trivia lax text) (hrest : Stops rest) : Stops (text ++ rest) := by
  cases h with
  | nil => exact hrest
  | blank hblank _ _ =>
      refine stops_cons (isNameChar_of_isBlank hblank) ?_ _
      rintro rfl
      exact absurd hblank (by decide)
  | line _ _ => exact stops_cons (by decide) (by decide) _
  | block _ _ => exact stops_cons (by decide) (by decide) _

theorem Tail.stops (h : Tail lax text) : Stops text := by
  cases h with
  | closed htext => simpa using htext.stops stops_nil
  | line htext _ => exact htext.stops (stops_cons (by decide) (by decide) _)
  | block htext _ _ => exact htext.stops (stops_cons (by decide) (by decide) _)

/-! ## Skipping trivia -/

theorem blockComment_cons {c : Char} :
    BlockComment (c :: body) ↔ BlockComment body ∧ ¬ ['*', '/'] <+: c :: body := by
  rw [BlockComment, List.infix_cons_iff, not_or, and_comm]
  rfl

theorem skipLine_append (h : '\n' ∉ body) (rest : List Char) :
    skipLine (body ++ '\n' :: rest) = skipTrivia rest := by
  induction body with
  | nil => simp [skipLine]
  | cons c body ih =>
      rw [List.mem_cons, not_or] at h
      rw [List.cons_append, skipLine, if_neg (Ne.symm h.1), ih h.2]

theorem skipLine_unbroken (h : '\n' ∉ body) : skipLine body = [] := by
  induction body with
  | nil => rfl
  | cons c body ih =>
      rw [List.mem_cons, not_or] at h
      rw [skipLine, if_neg (Ne.symm h.1), ih h.2]

theorem skipBlock_cons {c : Char} (h : ¬ ['*', '/'] <+: c :: text) :
    skipBlock (c :: text) = skipBlock text := by
  rw [skipBlock]
  rintro rest rfl rfl
  exact h ⟨rest, rfl⟩

theorem skipBlock_append (h : BlockComment body) (rest : List Char) :
    skipBlock (body ++ '*' :: '/' :: rest) = skipTrivia rest := by
  induction body with
  | nil => rw [List.nil_append, skipBlock]
  | cons c body ih =>
      obtain ⟨hbody, hfirst⟩ := blockComment_cons.1 h
      rw [List.cons_append, skipBlock_cons, ih hbody]
      -- What begins in the body and closes the comment is in the body: the mark behind it begins
      -- with an asterisk, not with a slash.
      rintro ⟨after, heq⟩
      cases body with
      | nil => simp at heq
      | cons d body =>
          simp only [List.cons_append, List.nil_append, List.cons.injEq] at heq
          exact hfirst ⟨body, by rw [heq.1, heq.2.1]; rfl⟩

theorem skipBlock_open (h : BlockComment body) : skipBlock body = [] := by
  induction body with
  | nil => rfl
  | cons c body ih =>
      obtain ⟨hbody, hfirst⟩ := blockComment_cons.1 h
      rw [skipBlock_cons hfirst, ih hbody]

theorem isBlank_slash : Text.isBlank '/' = false := by decide

theorem skipTrivia_blank {c : Char} (h : Text.isBlank c = true) (rest : List Char) :
    skipTrivia (c :: rest) = skipTrivia rest := by
  have hslash : c ≠ '/' := by
    rintro rfl
    rw [isBlank_slash] at h
    cases h
  rw [skipTrivia]
  · rw [if_pos h]
  · exact fun _ heq => absurd heq hslash
  · exact fun _ heq => absurd heq hslash

/-- A text that neither a blank nor a comment begins stays. -/
theorem skipTrivia_stay {c : Char} (hblank : Text.isBlank c = false)
    (hline : ¬ ['/', '/'] <+: c :: rest) (hblock : ¬ ['/', '*'] <+: c :: rest) :
    skipTrivia (c :: rest) = c :: rest := by
  rw [skipTrivia]
  · simp [hblank]
  · rintro after rfl rfl
    exact hline ⟨after, rfl⟩
  · rintro after rfl rfl
    exact hblock ⟨after, rfl⟩

theorem skipTrivia_stay_of_ne {c : Char} (hblank : Text.isBlank c = false) (hslash : c ≠ '/')
    (rest : List Char) : skipTrivia (c :: rest) = c :: rest := by
  refine skipTrivia_stay hblank ?_ ?_ <;>
    exact fun h => hslash (List.cons_prefix_cons.1 h).1.symm

theorem Trivia.skip (h : Trivia lax text) (rest : List Char) :
    skipTrivia (text ++ rest) = skipTrivia rest := by
  induction h with
  | nil => rfl
  | blank hblank _ _ ih => rw [List.cons_append, skipTrivia_blank hblank, ih]
  | @line body after hbody _ ih =>
      have hskip := skipLine_append hbody.unbroken (after ++ rest)
      rw [ih] at hskip
      simpa [skipTrivia] using hskip
  | @block body after hbody _ ih =>
      have hskip := skipBlock_append hbody (after ++ rest)
      rw [ih] at hskip
      simpa [skipTrivia] using hskip

theorem Tail.skip (h : Tail lax text) : skipTrivia text = [] := by
  cases h with
  | closed htext =>
      have hskip := htext.skip []
      rwa [List.append_nil, skipTrivia] at hskip
  | line htext hbody => rw [htext.skip, skipTrivia, skipLine_unbroken hbody.unbroken]
  | block htext hbody _ => rw [htext.skip, skipTrivia, skipBlock_open hbody]

/-! ## What is skipped -/

theorem skipLine_split (text : List Char) :
    ∃ body, '\n' ∉ body ∧ (text = body ∨ ∃ rest, text = body ++ '\n' :: rest) := by
  by_cases h : '\n' ∈ text
  · obtain ⟨body, rest, heq, hbody⟩ := List.eq_append_cons_of_mem h
    exact ⟨body, hbody, .inr ⟨rest, heq⟩⟩
  · exact ⟨text, h, .inl rfl⟩

/-- The text up to the first end of a block comment, or to its own end. -/
theorem skipBlock_split (text : List Char) :
    ∃ body, BlockComment body ∧ (text = body ∨ ∃ rest, text = body ++ '*' :: '/' :: rest) := by
  induction text with
  | nil => exact ⟨[], by simp [BlockComment], .inl rfl⟩
  | cons c text ih =>
      by_cases hc : ['*', '/'] <+: c :: text
      · obtain ⟨rest, hrest⟩ := hc
        exact ⟨[], by simp [BlockComment], .inr ⟨rest, hrest.symm⟩⟩
      · obtain ⟨body, hbody, hcases⟩ := ih
        have hprefix : c :: body <+: c :: text := by
          rcases hcases with rfl | ⟨rest, rfl⟩
          · exact List.prefix_refl _
          · exact List.prefix_append (c :: body) _
        refine ⟨c :: body, blockComment_cons.2 ⟨hbody, fun h => hc (h.trans hprefix)⟩, ?_⟩
        rcases hcases with rfl | ⟨rest, rfl⟩
        · exact .inl rfl
        · exact .inr ⟨rest, rfl⟩

/-- How a text begins of which the rest is left: with trivia, or it is all trivia and may leave a
comment open. -/
inductive Skipped : List Char → List Char → Prop
  | trivia {text : List Char} (htext : Trivia .univ text) (rest : List Char) :
      Skipped (text ++ rest) rest
  | all {text : List Char} (htext : Tail .univ text) : Skipped text []

theorem Skipped.after {piece : List Char} (hpiece : Trivia .univ piece) (h : Skipped text rest) :
    Skipped (piece ++ text) rest := by
  cases h with
  | trivia htext rest =>
      rw [← List.append_assoc]
      exact .trivia (hpiece.append htext) rest
  | all htext =>
      cases htext with
      | closed htext => exact .all (.closed (hpiece.append htext))
      | line htext hbody =>
          rw [← List.append_assoc]
          exact .all (.line (hpiece.append htext) hbody)
      | block htext hbody hopen =>
          rw [← List.append_assoc]
          exact .all (.block (hpiece.append htext) hbody hopen)

theorem skipTrivia_skipped (text : List Char) : Skipped text (skipTrivia text) := by
  induction hlength : text.length using Nat.strong_induction_on generalizing text with
  | _ length ih =>
      subst hlength
      have after {piece : List Char} (hpiece : Trivia .univ piece) (rest : List Char)
          (hlt : rest.length < text.length) :
          Skipped (piece ++ rest) (skipTrivia (piece ++ rest)) := by
        rw [hpiece.skip]
        exact (ih rest.length hlt rest rfl).after hpiece
      by_cases hline : ['/', '/'] <+: text
      · obtain ⟨text, rfl⟩ := hline
        obtain ⟨body, hunbroken, hcases⟩ := skipLine_split text
        have hbody : LineComment .univ body := ⟨hunbroken, .inl trivial⟩
        rcases hcases with rfl | ⟨rest, rfl⟩
        · have htail : Tail .univ (['/', '/'] ++ text) := .line .nil hbody
          rw [htail.skip]
          exact .all htail
        · simpa using after (.line hbody .nil) rest (by simp; omega)
      by_cases hblock : ['/', '*'] <+: text
      · obtain ⟨text, rfl⟩ := hblock
        obtain ⟨body, hbody, hcases⟩ := skipBlock_split text
        rcases hcases with rfl | ⟨rest, rfl⟩
        · have htail : Tail .univ (['/', '*'] ++ text) := .block .nil hbody trivial
          rw [htail.skip]
          exact .all htail
        · simpa using after (.block hbody .nil) rest (by simp; omega)
      cases text with
      | nil =>
          rw [skipTrivia]
          exact .trivia .nil []
      | cons c text =>
          cases hblank : Text.isBlank c with
          | true => exact after (.blank hblank (.inl trivial) .nil) text (by simp)
          | false =>
              rw [skipTrivia_stay hblank hline hblock]
              exact .trivia .nil (c :: text)

end TypeSchema.Literal
