import TypeSchema.Proofs.Literal.Grammar

/-!
# Literals within literals

A text that is evaluated without error keeps its value as an item of a list and in parentheses, if
the comments behind its value are closed and a line end follows it.
-/

namespace TypeSchema.Literal

/-- Each block comment that the trivia behind the value open is closed. -/
def Closed (text : List Char) : Prop :=
  ∀ v rest, value (2 * text.length + 2) (skipTrivia text) = .ok (v, rest) →
    Tail {.openComment}ᶜ rest

/-- A list whose items stand on lines of their own. -/
def listOf (texts : List String) (comma : Bool) : String :=
  "[" ++ (",".intercalate (texts.map (· ++ "\n")) ++ ((if comma then "," else "") ++ "]"))

variable {text : String} {v : Option Json}

theorem IsLiteral.closed {text : List Char} (h : IsLiteral {.openComment}ᶜ text v) : Closed text := by
  obtain ⟨before, spelling, after, htext, hbefore, hspelling, hafter⟩ := h
  intro w rest hvalue
  rw [value_of_isLiteral hbefore hspelling hafter htext] at hvalue
  cases hvalue
  exact hafter

/-- The line end closes a line comment that the text may end with. -/
theorem isItem_newline (h : evaluateText text = .ok v) (hclosed : Closed text.toList) :
    IsItem .univ (text ++ "\n").toList v := by
  obtain ⟨rest, hvalue, -⟩ := evaluateText_eq_ok_iff.1 h
  obtain ⟨spelling, hspelling, hspelled⟩ := (value_and_items_sound _).1 hvalue
  obtain ⟨before, htext, hbefore⟩ := exists_before hspelling hspelled
  have hafter := (hclosed v rest hvalue).newline fun hopen => hopen rfl
  refine ⟨before, spelling, rest ++ ['\n'], ?_, hbefore, hspelled, hafter.mono (Set.subset_univ _)⟩
  rw [String.toList_append, htext, List.append_assoc, List.append_assoc]
  rfl

theorem toList_listOf (texts : List String) (comma : Bool) :
    (listOf texts comma).toList = '[' :: ([','].intercalate (texts.map fun t => (t ++ "\n").toList) ++
      ((if comma then [','] else []) ++ [']'])) := by
  have hmap : (texts.map (· ++ "\n")).map String.toList = texts.map fun t => (t ++ "\n").toList :=
    List.map_map
  rw [listOf, String.toList_append, String.toList_append, String.toList_intercalate, hmap]
  cases comma <;> rfl

theorem evaluateText_listOf {parts : List (String × Option Json)} {comma : Bool}
    (h : ∀ p ∈ parts, evaluateText p.1 = .ok p.2 ∧ Closed p.1.toList)
    (hcomma : comma = true → parts ≠ []) :
    evaluateText (listOf (parts.map (·.1)) comma) =
      .ok (some (.arr (parts.map (·.2.getD .null)))) := by
  have hparts : List.Forall₂ (IsItem .univ) ((parts.map (·.1)).map fun t => (t ++ "\n").toList)
      (parts.map (·.2)) := by
    rw [List.map_map, List.forall₂_map_left_iff, List.forall₂_map_right_iff, List.forall₂_same]
    exact fun p hp => isItem_newline (h p hp).1 (h p hp).2
  have hitems := items_intercalate hparts (if comma then [','] else []) (by
    cases comma with
    | true => exact .inr ⟨rfl, by simpa using hcomma rfl⟩
    | false => exact .inl rfl)
  have hvalues : (parts.map (·.2)).map (·.getD .null) = parts.map (·.2.getD .null) := List.map_map
  rw [hvalues] at hitems
  have hliteral : IsLiteral .univ (listOf (parts.map (·.1)) comma).toList
      (some (.arr (parts.map (·.2.getD .null)))) := by
    refine ⟨[], _, [], ?_, .nil, .list hitems, .closed .nil⟩
    rw [toList_listOf, List.append_nil]
    rfl
  exact evaluateText_of_isLiteral hliteral

theorem evaluateText_parenthesized {before after : String} (h : evaluateText text = .ok v)
    (hclosed : Closed text.toList) (hbefore : Trivia .univ before.toList)
    (hafter : Tail .univ after.toList) :
    evaluateText (before ++ ("(" ++ (text ++ "\n" ++ (")" ++ after)))) = .ok v := by
  obtain ⟨gap, spelling, behind, htext, hgap, hspelling, hbehind⟩ := isItem_newline h hclosed
  refine evaluateText_of_isLiteral ⟨before.toList, _, after.toList, ?_, hbefore,
    .parenthesized hgap hspelling hbehind, hafter⟩
  rw [String.toList_append, String.toList_append, String.toList_append, htext, String.toList_append]
  simp

/-- A text keeps its value on a line of a list, where `undefined` becomes null, and between
parentheses with trivia around them. -/
theorem literals_embed :
    (∀ (parts : List (String × Option Json)) (comma : Bool),
      (∀ p ∈ parts, evaluateText p.1 = .ok p.2 ∧ Closed p.1.toList) →
      (comma = true → parts ≠ []) →
      evaluateText (listOf (parts.map (·.1)) comma) =
        .ok (some (.arr (parts.map (·.2.getD .null))))) ∧
    ∀ (text before after : String) (v : Option Json),
      evaluateText text = .ok v → Closed text.toList →
      Trivia .univ before.toList → Tail .univ after.toList →
      evaluateText (before ++ ("(" ++ (text ++ "\n" ++ (")" ++ after)))) = .ok v :=
  ⟨fun _ _ h hcomma => evaluateText_listOf h hcomma,
    fun _ _ _ _ h hclosed hbefore hafter => evaluateText_parenthesized h hclosed hbefore hafter⟩

theorem yes_literal : IsLiteral {.openComment}ᶜ "true // yes".toList (some (.bool true)) := by
  have hblank : Trivia {.openComment}ᶜ [' '] := .blank (by decide) (.inr (by decide)) .nil
  have hbody : LineComment {.openComment}ᶜ " yes".toList :=
    ⟨by decide, .inl fun h => by cases h⟩
  exact ⟨[], _, " // yes".toList, rfl, .nil, .word .true, .line hblank hbody⟩

theorem undefined_literal : IsLiteral {.openComment}ᶜ "undefined".toList none :=
  ⟨[], _, [], rfl, .nil, .word .undefined, .closed .nil⟩

theorem literals_embed_yes :
    let parts := [("true // yes", some (.bool true)), ("undefined", none)]
    (∀ p ∈ parts, evaluateText p.1 = .ok p.2 ∧ Closed p.1.toList) ∧
    evaluateText (listOf (parts.map (·.1)) true) = .ok (some (.arr [.bool true, .null])) ∧
    evaluateText (" " ++ ("(" ++ ("true // yes" ++ "\n" ++ (")" ++ "/* on */")))) =
      .ok (some (.bool true)) := by
  intro parts
  have hyes : evaluateText "true // yes" = .ok (some (.bool true)) ∧ Closed "true // yes".toList :=
    ⟨evaluateText_of_isLiteral yes_literal, yes_literal.closed⟩
  have hparts : ∀ p ∈ parts, evaluateText p.1 = .ok p.2 ∧ Closed p.1.toList := by
    intro p hp
    simp only [parts, List.mem_cons, List.not_mem_nil, or_false] at hp
    rcases hp with rfl | rfl
    · exact hyes
    · exact ⟨evaluateText_of_isLiteral undefined_literal, undefined_literal.closed⟩
  have hbefore : Trivia .univ " ".toList := .blank (by decide) (.inl trivial) .nil
  have hon : BlockComment " on ".toList := by
    unfold BlockComment
    decide
  have hafter : Tail .univ "/* on */".toList := .closed (.block hon .nil)
  have hlist := literals_embed.1 parts true hparts fun _ => List.cons_ne_nil _ _
  have hparenthesized := literals_embed.2 "true // yes" " " "/* on */" _ hyes.1 hyes.2 hbefore hafter
  exact ⟨hparts, hlist, hparenthesized⟩

end TypeSchema.Literal
