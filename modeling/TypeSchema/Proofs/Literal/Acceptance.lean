import TypeSchema.Proofs.Literal.Grammar

/-!
# What is accepted

Only literals are evaluated.  They need not keep to the lexical rules of their language where the
reading of trivia, numbers and escapes is laxer.
-/

namespace TypeSchema.Literal

/-- All other laxities are those of the reading; whether it takes a plus sign for a digit is left
open. -/
theorem accepts_only_literals (text : String) (v : Option Json) :
    (evaluateText text = .ok v → IsLiteral .univ text.toList v) ∧
      (IsLiteral {.plusSign}ᶜ text.toList v → evaluateText text = .ok v) :=
  ⟨isLiteral_of_evaluateText, evaluateText_of_isLiteral⟩

/-! ## A comment that is left open -/

theorem one_numeral (lax : Set Laxity) : Numeral lax ['1'] (.int 1) :=
  .decimal (d := ⟨['1'], none, none⟩)
    { whole := ⟨List.forall_mem_singleton.2 (.inl (by decide)),
        .inr (separated_of_not_mem (by decide))⟩
      beginning := by decide
      noLeadingZero := .inr fun h => by cases h
      fraction := nofun
      exponent := nofun
      nonempty := by decide } rfl

theorem open_tail : Tail .univ " /* open".toList := by
  have hblank : Trivia .univ [' '] := .blank (by decide) (.inl trivial) .nil
  have hbody : BlockComment " open".toList := by
    unfold BlockComment
    decide
  exact .block hblank hbody trivial

theorem open_comment_accepted :
    evaluateText "1 /* open" = .ok (some (.int 1)) ∧ ∀ v, ¬ IsLiteral ∅ "1 /* open".toList v := by
  have hnumber : Spells .univ ['1'] (some (.int 1)) := .number (one_numeral .univ)
  refine ⟨evaluateText_of_isLiteral ⟨[], ['1'], _, rfl, .nil, hnumber, open_tail⟩, ?_⟩
  rintro v ⟨before, spelling, after, htext, hbefore, hspelling, hafter⟩
  -- What is left behind the value is the same however the text is taken apart.
  have hvalue := (value_of_isLiteral .nil hnumber open_tail rfl).symm.trans
    (value_of_isLiteral hbefore hspelling hafter htext)
  cases hvalue
  have hskip := (hafter.newline (Set.notMem_empty _)).skip ['1']
  exact absurd hskip (by decide)

end TypeSchema.Literal
