import Mathlib.Data.List.Forall2
import TypeSchema.Literal.Evaluation
import TypeSchema.Proofs.Literal.Strings

/-!
# Spelling of values

The grammar of literals, each with the value that it stands for, `none` for `undefined`.  Evaluating
a literal gives its value, and each text that is evaluated without error is a literal.
-/

namespace TypeSchema.Literal

/-! ## The grammar -/

/-- The names that stand for values. -/
inductive Word : List Char → Option Json → Prop
  | true : Word ['t', 'r', 'u', 'e'] (some (.bool true))
  | false : Word ['f', 'a', 'l', 's', 'e'] (some (.bool false))
  | null : Word ['n', 'u', 'l', 'l'] (some .null)
  | undefined : Word ['u', 'n', 'd', 'e', 'f', 'i', 'n', 'e', 'd'] none

mutual

/-- How a value is written, from its first character to its last one. -/
inductive Spells (lax : Set Laxity) : List Char → Option Json → Prop
  | word {text : List Char} {v : Option Json} (hword : Word text v) : Spells lax text v
  | number {text : List Char} {n : Number} (hnumeral : Numeral lax text n) :
      Spells lax text (some (.num n))
  | plus {gap text : List Char} {n : Number} (hgap : Trivia lax gap)
      (hnumeral : Numeral lax text n) : Spells lax ('+' :: (gap ++ text)) (some (.num n))
  | minus {gap text : List Char} {n : Number} (hgap : Trivia lax gap)
      (hnumeral : Numeral lax text n) : Spells lax ('-' :: (gap ++ text)) (some (.num (negate n)))
  | string {quote : Char} {text chars : List Char} (hquote : quote = '"' ∨ quote = '\'')
      (htext : StringText lax quote text chars) :
      Spells lax (quote :: text) (some (.str (String.ofList chars)))
  | parenthesized {before text after : List Char} {v : Option Json} (hbefore : Trivia lax before)
      (htext : Spells lax text v) (hafter : Trivia lax after) :
      Spells lax ('(' :: (before ++ (text ++ (after ++ [')'])))) v
  | list {text : List Char} {values : List Json} (hitems : Items lax text values) :
      Spells lax ('[' :: text) (some (.arr values))

/-- What follows the opening bracket of a list; an undefined item counts as null. -/
inductive Items (lax : Set Laxity) : List Char → List Json → Prop
  | close {before : List Char} (hbefore : Trivia lax before) : Items lax (before ++ [']']) []
  | last {before text after : List Char} {v : Option Json} (hbefore : Trivia lax before)
      (htext : Spells lax text v) (hafter : Trivia lax after) :
      Items lax (before ++ (text ++ (after ++ [']']))) [v.getD .null]
  | cons {before text after items : List Char} {v : Option Json} {values : List Json}
      (hbefore : Trivia lax before) (htext : Spells lax text v) (hafter : Trivia lax after)
      (hitems : Items lax items values) :
      Items lax (before ++ (text ++ (after ++ ',' :: items))) (v.getD .null :: values)

end

/-- A value between trivia. -/
def IsLiteral (lax : Set Laxity) (text : List Char) (v : Option Json) : Prop :=
  ∃ before spelling after, text = before ++ (spelling ++ after) ∧ Trivia lax before ∧
    Spells lax spelling v ∧ Tail lax after

variable {lax : Set Laxity} {text rest : List Char} {v : Option Json} {n : Number} {fuel : Nat}

/-! ## Parts of values -/

theorem isBlank_of_isNameChar {c : Char} (h : isNameChar c = true) : Text.isBlank c = false := by
  rw [Bool.eq_false_iff]
  intro hblank
  rw [isNameChar_of_isBlank hblank] at h
  cases h

/-- The first character of a value begins no trivia, and no other part of a list. -/
structure Begins (c : Char) : Prop where
  notBlank : Text.isBlank c = false
  notMark : c ≠ '/' ∧ c ≠ ',' ∧ c ≠ ']'

theorem Numeral.begins {c : Char} (h : (c.isDigit || c == '.') = true) : Begins c := by
  constructor
  · rcases Bool.or_eq_true _ _ ▸ h with hdigit | hpoint
    · exact isBlank_of_isNameChar (isNameChar_of_isDigitPart (isDigitPart_of_isDigit hdigit))
    · rw [beq_iff_eq] at hpoint
      subst hpoint
      decide
  · refine ⟨?_, ?_, ?_⟩ <;> rintro rfl <;> exact absurd h (by decide)

theorem Spells.exists_cons (h : Spells lax text v) : ∃ c rest, text = c :: rest ∧ Begins c := by
  cases h with
  | word hword => cases hword <;> exact ⟨_, _, rfl, by decide, by decide⟩
  | number hnumeral =>
      obtain ⟨c, rest, rfl, hc⟩ := hnumeral.exists_cons
      exact ⟨c, rest, rfl, Numeral.begins hc⟩
  | plus _ _ => exact ⟨_, _, rfl, by decide, by decide⟩
  | minus _ _ => exact ⟨_, _, rfl, by decide, by decide⟩
  | string hquote _ =>
      refine ⟨_, _, rfl, ?_⟩
      rcases hquote with rfl | rfl <;> exact ⟨by decide, by decide⟩
  | parenthesized _ _ _ => exact ⟨_, _, rfl, by decide, by decide⟩
  | list _ => exact ⟨_, _, rfl, by decide, by decide⟩

theorem Spells.skip (h : Spells lax text v) {before : List Char} (hbefore : Trivia lax before)
    (rest : List Char) : skipTrivia (before ++ (text ++ rest)) = text ++ rest := by
  obtain ⟨c, text, rfl, hc⟩ := h.exists_cons
  rw [hbefore.skip, List.cons_append, skipTrivia_stay_of_ne hc.notBlank hc.notMark.1]

theorem Trivia.skip_cons {after : List Char} (h : Trivia lax after) {c : Char}
    (hblank : Text.isBlank c = false) (hslash : c ≠ '/') (rest : List Char) :
    skipTrivia (after ++ c :: rest) = c :: rest := by
  rw [h.skip, skipTrivia_stay_of_ne hblank hslash]

theorem exists_trivia (text : List Char) (h : skipTrivia text ≠ []) :
    ∃ before, text = before ++ skipTrivia text ∧ Trivia .univ before := by
  have hskipped := skipTrivia_skipped text
  generalize skipTrivia text = rest at h hskipped
  cases hskipped with
  | trivia hbefore rest => exact ⟨_, rfl, hbefore⟩
  | all _ => exact absurd rfl h

theorem tail_of_skip (h : skipTrivia text = []) : Tail .univ text := by
  have hskipped := skipTrivia_skipped text
  rw [h] at hskipped
  cases hskipped with
  | trivia htext _ =>
      rw [List.append_nil]
      exact .closed htext
  | all htext => exact htext

/-! ## Lists -/

/-- A value with trivia around it, all of them closed. -/
def IsItem (lax : Set Laxity) (text : List Char) (v : Option Json) : Prop :=
  ∃ before spelling after, text = before ++ (spelling ++ after) ∧ Trivia lax before ∧
    Spells lax spelling v ∧ Trivia lax after

theorem Spells.isItem (h : Spells lax text v) : IsItem lax text v :=
  ⟨[], text, [], (List.append_nil text).symm, .nil, h, .nil⟩

/-- Items with commas between them, with a comma behind the last one or without. -/
theorem items_intercalate {texts : List (List Char)} {values : List (Option Json)}
    (h : List.Forall₂ (IsItem lax) texts values) (comma : List Char)
    (hcomma : comma = [] ∨ comma = [','] ∧ texts ≠ []) :
    Items lax ([','].intercalate texts ++ (comma ++ [']'])) (values.map (·.getD .null)) := by
  induction h with
  | nil =>
      obtain rfl := hcomma.resolve_right fun h => h.2 rfl
      exact .close .nil
  | @cons text v texts values hitem hmore ih =>
      obtain ⟨before, spelling, after, rfl, hbefore, hspelling, hafter⟩ := hitem
      cases hmore with
      | nil =>
          rw [List.intercalate_singleton, List.append_assoc, List.append_assoc]
          rcases hcomma with rfl | ⟨rfl, -⟩
          · exact .last hbefore hspelling hafter
          · exact .cons hbefore hspelling hafter (.close .nil)
      | cons hsecond hmore =>
          have hitems := ih (hcomma.imp_right fun h => ⟨h.1, List.cons_ne_nil _ _⟩)
          rw [List.intercalate_cons_cons]
          simpa using Items.cons hbefore hspelling hafter hitems

/-! ## Evaluating literals -/

theorem signedNumber_eq_ok_iff {negative : Bool} :
    signedNumber negative text = .ok (v, rest) ↔
      (∃ c ∈ text.head?, (c.isDigit || c == '.') = true) ∧
        ∃ n, number text = .ok (n, rest) ∧ v = some (.num (if negative then negate n else n)) := by
  cases text with
  | nil => simp [signedNumber, unsupported]
  | cons c text =>
      rw [signedNumber]
      cases hc : c.isDigit || c == '.' with
      | true =>
          rw [if_pos rfl, reading_bind_eq_ok]
          constructor
          · rintro ⟨⟨n, after⟩, hnumber, hpair⟩
            cases hpair
            exact ⟨⟨c, rfl, hc⟩, n, hnumber, rfl⟩
          · rintro ⟨-, n, hnumber, rfl⟩
            exact ⟨(n, rest), hnumber, rfl⟩
      | false =>
          rw [if_neg Bool.false_ne_true]
          constructor
          · nofun
          · rintro ⟨⟨d, hd, hdigit⟩, -⟩
            cases hd
            rw [hc] at hdigit
            cases hdigit

theorem Numeral.signedNumber (h : Numeral lax text n) (hrest : Stops rest) (negative : Bool) :
    signedNumber negative (text ++ rest) =
      .ok (some (.num (if negative then negate n else n)), rest) := by
  refine signedNumber_eq_ok_iff.2 ⟨?_, n, number_complete h hrest, rfl⟩
  obtain ⟨c, text, rfl, hc⟩ := h.exists_cons
  exact ⟨c, rfl, hc⟩

theorem word_complete (h : Word text v) (hrest : Stops rest) :
    word (text ++ rest) = .ok (v, rest) := by
  have hend : ∀ c ∈ rest.head?, isNameChar c = false := fun c hc => (hrest c hc).1
  have hrun : ∀ c ∈ text, isNameChar c = true := List.all_eq_true.1 (by cases h <;> decide)
  rw [word]
  simp only [Text.takeWhile_run hrun hend, Text.dropWhile_run hrun hend]
  cases h <;> rfl

theorem eq_toList_of_ofList {chars : List Char} {s : String} (h : String.ofList chars = s) :
    chars = s.toList := by
  rw [← h, String.toList_ofList]

theorem word_sound (h : word text = .ok (v, rest)) : ∃ piece, text = piece ++ rest ∧ Word piece v := by
  refine ⟨text.takeWhile isNameChar, ?_⟩
  unfold word at h
  dsimp only at h
  have hrest : text.dropWhile isNameChar = rest ∧ Word (text.takeWhile isNameChar) v := by
    split at h
    · rename_i hname
      cases h
      rw [eq_toList_of_ofList hname]
      exact ⟨rfl, .true⟩
    split at h
    · rename_i hname
      cases h
      rw [eq_toList_of_ofList hname]
      exact ⟨rfl, .false⟩
    split at h
    · rename_i hname
      cases h
      rw [eq_toList_of_ofList hname]
      exact ⟨rfl, .null⟩
    split at h
    · rename_i hname
      cases h
      rw [eq_toList_of_ofList hname]
      exact ⟨rfl, .undefined⟩
    · cases h
  exact ⟨by rw [← hrest.1, List.takeWhile_append_dropWhile], hrest.2⟩

/-- The characters by which `value` tells the kinds of values apart. -/
theorem value_cons_of_other {c : Char} (h : c ∉ ['(', '[', '"', '\'', '-', '+']) (fuel : Nat)
    (rest : List Char) : value (fuel + 1) (c :: rest) =
      if c.isDigit || c == '.' then signedNumber false (c :: rest)
      else if isNameStart c then word (c :: rest)
      else unsupported := by
  rw [value] <;>
  · rintro rfl
    simp at h

theorem value_numeral (h : Numeral lax text n) (hrest : Stops rest) (fuel : Nat) :
    value (fuel + 1) (text ++ rest) = .ok (some (.num n), rest) := by
  have hnumber := h.signedNumber hrest false
  obtain ⟨c, text, rfl, hc⟩ := h.exists_cons
  rw [List.cons_append] at hnumber ⊢
  rw [value_cons_of_other, if_pos hc, hnumber]
  · rfl
  · intro hmem
    simp only [List.mem_cons, List.not_mem_nil, or_false] at hmem
    rcases hmem with rfl | rfl | rfl | rfl | rfl | rfl <;> exact absurd hc (by decide)

theorem value_word (h : Word text v) (hrest : Stops rest) (fuel : Nat) :
    value (fuel + 1) (text ++ rest) = .ok (v, rest) := by
  have hread := word_complete h hrest
  cases h <;>
  · simp only [List.cons_append] at hread ⊢
    rw [value_cons_of_other (by decide), if_neg (by decide), if_pos (by decide), hread]

theorem value_quote {quote : Char} (hquote : quote = '"' ∨ quote = '\'') (fuel : Nat)
    (text : List Char) : value (fuel + 1) (quote :: text) =
      (string quote text).map fun read => (some (.str read.1), read.2) := by
  rcases hquote with rfl | rfl <;>
  · rw [value]
    cases string _ text <;> rfl

theorem value_string {quote : Char} {text chars : List Char} (hquote : quote = '"' ∨ quote = '\'')
    (htext : StringText lax quote text chars) (fuel : Nat) (rest : List Char) :
    value (fuel + 1) (quote :: (text ++ rest)) = .ok (some (.str (String.ofList chars)), rest) := by
  have hescape : quote ≠ '\\' := by rcases hquote with rfl | rfl <;> decide
  rw [value_quote hquote, string_complete htext hescape]
  rfl

/-- What is read of a list behind an item. -/
def afterItem (fuel : Nat) (v : Option Json) (text : List Char) : Reading (List Json × List Char) :=
  match skipTrivia text with
  | ',' :: rest => do
    let (values, rest) ← items fuel rest
    return (v.getD .null :: values, rest)
  | ']' :: rest => return ([v.getD .null], rest)
  | rest => malformed rest .commaMissing

theorem items_close (hskip : skipTrivia text = ']' :: rest) (fuel : Nat) :
    items (fuel + 1) text = .ok ([], rest) := by
  simp only [items, hskip]

theorem items_item (hskip : ∀ c ∈ (skipTrivia text).head?, c ≠ ',' ∧ c ≠ ']') (fuel : Nat) :
    items (fuel + 1) text =
      value fuel (skipTrivia text) >>= fun read => afterItem fuel read.1 read.2 := by
  rw [items]
  split
  · rename_i heq
    rw [heq] at hskip
    exact absurd rfl (hskip ']' rfl).2
  · rename_i heq
    rw [heq] at hskip
    exact absurd rfl (hskip ',' rfl).1
  · rfl

theorem afterItem_comma {after : List Char} (hafter : Trivia lax after) (v : Option Json)
    (fuel : Nat) (rest : List Char) : afterItem fuel v (after ++ ',' :: rest) =
      (items fuel rest).map fun read => (v.getD .null :: read.1, read.2) := by
  simp only [afterItem, hafter.skip_cons (c := ',') (by decide) (by decide)]
  cases items fuel rest <;> rfl

theorem afterItem_close {after : List Char} (hafter : Trivia lax after) (v : Option Json)
    (fuel : Nat) (rest : List Char) :
    afterItem fuel v (after ++ ']' :: rest) = .ok ([v.getD .null], rest) := by
  simp only [afterItem, hafter.skip_cons (c := ']') (by decide) (by decide)]
  rfl

theorem value_signed {gap : List Char} (hgap : Trivia lax gap) (hnumeral : Numeral lax text n)
    (hrest : Stops rest) (fuel : Nat) :
    value (fuel + 1) ('+' :: (gap ++ (text ++ rest))) = .ok (some (.num n), rest) ∧
      value (fuel + 1) ('-' :: (gap ++ (text ++ rest))) = .ok (some (.num (negate n)), rest) := by
  have hskip := (Spells.number hnumeral).skip hgap rest
  rw [value, value, hskip]
  exact ⟨hnumeral.signedNumber hrest false, hnumeral.signedNumber hrest true⟩

theorem value_parenthesized {before after : List Char} (hbefore : Trivia lax before)
    (htext : Spells lax text v) (hafter : Trivia lax after)
    (hvalue : value fuel (text ++ (after ++ ')' :: rest)) = .ok (v, after ++ ')' :: rest)) :
    value (fuel + 1) ('(' :: (before ++ (text ++ (after ++ ')' :: rest)))) = .ok (v, rest) := by
  rw [value, htext.skip hbefore, hvalue]
  dsimp only [bind, Except.bind]
  rw [hafter.skip_cons (by decide) (by decide)]
  rfl

theorem items_spelled {before after : List Char} (hbefore : Trivia lax before)
    (htext : Spells lax text v)
    (hvalue : value fuel (text ++ after) = .ok (v, after)) :
    items (fuel + 1) (before ++ (text ++ after)) = afterItem fuel v after := by
  have hskip := htext.skip hbefore after
  rw [items_item, hskip, hvalue]
  · rfl
  · obtain ⟨c, text, rfl, hc⟩ := htext.exists_cons
    rw [hskip]
    intro d hd
    cases hd
    exact hc.notMark.2

theorem Trivia.stops_mark {after : List Char} (h : Trivia lax after) {mark : Char}
    (hmark : mark ∈ [')', ',', ']']) (rest : List Char) : Stops (after ++ mark :: rest) := by
  refine h.stops (stops_cons ?_ ?_ rest) <;>
  · simp only [List.mem_cons, List.not_mem_nil, or_false] at hmark
    rcases hmark with rfl | rfl | rfl <;> decide

/-- Values and lists are read by as many steps as the fuel counts: two for each character. -/
theorem value_and_items_complete (fuel : Nat) :
    (∀ {text v}, Spells lax text v → 2 * text.length ≤ fuel → ∀ rest, Stops rest →
      value fuel (text ++ rest) = .ok (v, rest)) ∧
    ∀ {text values}, Items lax text values → 2 * text.length < fuel → ∀ rest,
      items fuel (text ++ rest) = .ok (values, rest) := by
  induction fuel with
  | zero =>
      refine ⟨fun {text v} h hfuel => ?_, fun _ hfuel => absurd hfuel (Nat.not_lt_zero _)⟩
      obtain ⟨c, text, rfl, -⟩ := h.exists_cons
      rw [List.length_cons] at hfuel
      omega
  | succ fuel ih =>
      obtain ⟨ihvalue, ihitems⟩ := ih
      constructor
      · intro text v h hfuel rest hrest
        cases h with
        | word hword => exact value_word hword hrest fuel
        | number hnumeral => exact value_numeral hnumeral hrest fuel
        | plus hgap hnumeral => simpa using (value_signed hgap hnumeral hrest fuel).1
        | minus hgap hnumeral => simpa using (value_signed hgap hnumeral hrest fuel).2
        | string hquote htext => exact value_string hquote htext fuel rest
        | @parenthesized before inner after v hbefore hinner hafter =>
            simp only [List.length_cons, List.length_append] at hfuel
            have hvalue := ihvalue hinner (by omega) (after ++ ')' :: rest)
              (hafter.stops_mark (by decide) rest)
            simpa using value_parenthesized hbefore hinner hafter hvalue
        | list hitems =>
            rw [List.length_cons] at hfuel
            rw [List.cons_append, value, ihitems hitems (by omega)]
            rfl
      · intro text values h hfuel rest
        cases h with
        | close hbefore =>
            refine items_close ?_ fuel
            rw [List.append_assoc]
            exact hbefore.skip_cons (by decide) (by decide) rest
        | @last before item after v hbefore hitem hafter =>
            simp only [List.length_cons, List.length_append] at hfuel
            have hvalue := ihvalue hitem (by omega) (after ++ ']' :: rest)
              (hafter.stops_mark (by decide) rest)
            have hitems := items_spelled hbefore hitem hvalue
            rw [afterItem_close hafter] at hitems
            simpa using hitems
        | @cons before item after more v values hbefore hitem hafter hmore =>
            simp only [List.length_cons, List.length_append] at hfuel
            have hvalue := ihvalue hitem (by omega) (after ++ ',' :: (more ++ rest))
              (hafter.stops_mark (by decide) _)
            have hitems := items_spelled hbefore hitem hvalue
            rw [afterItem_comma hafter, ihitems hmore (by omega) rest] at hitems
            simpa [Except.map] using hitems

/-! ## What is evaluated -/

theorem signed_sound {negative : Bool} (h : signedNumber negative (skipTrivia text) = .ok (v, rest)) :
    ∃ gap piece n, text = gap ++ (piece ++ rest) ∧ Trivia .univ gap ∧ Numeral .univ piece n ∧
      v = some (.num (if negative then negate n else n)) := by
  obtain ⟨hhead, n, hnumber, rfl⟩ := signedNumber_eq_ok_iff.1 h
  obtain ⟨piece, hpiece, hnumeral⟩ := number_sound hhead hnumber
  obtain ⟨gap, htext, hgap⟩ := exists_trivia text fun hnil => by simp [hnil] at hhead
  rw [hpiece] at htext
  exact ⟨gap, piece, n, htext, hgap, hnumeral, rfl⟩

/-- Behind trivia stands what is spelled. -/
theorem exists_before {piece : List Char} (hskip : skipTrivia text = piece ++ rest)
    (h : Spells lax piece v) : ∃ before, text = before ++ (piece ++ rest) ∧ Trivia .univ before := by
  obtain ⟨c, piece, rfl, -⟩ := h.exists_cons
  rw [← hskip]
  exact exists_trivia text (by rw [hskip]; exact List.cons_ne_nil _ _)

theorem exists_after {mark : Char} (hskip : skipTrivia text = mark :: rest) :
    ∃ after, text = after ++ mark :: rest ∧ Trivia .univ after := by
  rw [← hskip]
  exact exists_trivia text (by rw [hskip]; exact List.cons_ne_nil _ _)

theorem afterItem_sound {values : List Json} (h : afterItem fuel v text = .ok (values, rest)) :
    ∃ after, Trivia .univ after ∧
      (text = after ++ ']' :: rest ∧ values = [v.getD .null] ∨
        ∃ more others, text = after ++ ',' :: more ∧ items fuel more = .ok (others, rest) ∧
          values = v.getD .null :: others) := by
  unfold afterItem at h
  split at h
  · rename_i more hskip
    obtain ⟨after, htext, hafter⟩ := exists_after hskip
    obtain ⟨⟨others, final⟩, hitems, hpair⟩ := reading_bind_eq_ok.1 h
    cases hpair
    exact ⟨after, hafter, .inr ⟨more, others, htext, hitems, rfl⟩⟩
  · rename_i final hskip
    cases h
    obtain ⟨after, htext, hafter⟩ := exists_after hskip
    exact ⟨after, hafter, .inl ⟨htext, rfl⟩⟩
  · cases h

def ValueSound (fuel : Nat) : Prop :=
  ∀ {text rest v}, value fuel text = .ok (v, rest) →
    ∃ piece, text = piece ++ rest ∧ Spells .univ piece v

def ItemsSound (fuel : Nat) : Prop :=
  ∀ {text rest values}, items fuel text = .ok (values, rest) →
    ∃ piece, text = piece ++ rest ∧ Items .univ piece values

theorem parenthesized_sound (hsound : ValueSound fuel)
    (h : value (fuel + 1) ('(' :: text) = .ok (v, rest)) :
    ∃ piece, '(' :: text = piece ++ rest ∧ Spells .univ piece v := by
  rw [value] at h
  obtain ⟨⟨inner, behind⟩, hvalue, hclose⟩ := reading_bind_eq_ok.1 h
  dsimp only at hclose
  split at hclose
  · rename_i final hskip
    cases hclose
    obtain ⟨piece, hpiece, hspelled⟩ := hsound hvalue
    obtain ⟨before, rfl, hbefore⟩ := exists_before hpiece hspelled
    obtain ⟨after, rfl, hafter⟩ := exists_after hskip
    exact ⟨_, by simp, .parenthesized hbefore hspelled hafter⟩
  · cases hclose

theorem quoted_sound {quote : Char} (hquote : quote = '"' ∨ quote = '\'')
    (h : value (fuel + 1) (quote :: text) = .ok (v, rest)) :
    ∃ piece, quote :: text = piece ++ rest ∧ Spells .univ piece v := by
  rw [value_quote hquote] at h
  obtain ⟨⟨s, behind⟩, hstring, hpair⟩ := reading_map_eq_ok.1 h
  cases hpair
  obtain ⟨piece, chars, rfl, hspelled, rfl⟩ := string_sound hstring
  exact ⟨_, rfl, .string hquote hspelled⟩

theorem value_sound (hvalue : ValueSound fuel) (hitems : ItemsSound fuel) :
    ValueSound (fuel + 1) := by
  intro text rest v h
  cases text with
  | nil => cases h
  | cons c text =>
      by_cases hother : c ∉ ['(', '[', '"', '\'', '-', '+']
      · rw [value_cons_of_other hother] at h
        split at h
        · obtain ⟨hhead, n, hnumber, rfl⟩ := signedNumber_eq_ok_iff.1 h
          obtain ⟨piece, hpiece, hnumeral⟩ := number_sound hhead hnumber
          exact ⟨piece, hpiece, .number hnumeral⟩
        · split at h
          · obtain ⟨piece, hpiece, hword⟩ := word_sound h
            exact ⟨piece, hpiece, .word hword⟩
          · cases h
      simp only [List.mem_cons, List.not_mem_nil, or_false, not_not] at hother
      rcases hother with rfl | rfl | rfl | rfl | rfl | rfl
      · exact parenthesized_sound hvalue h
      · rw [value] at h
        obtain ⟨⟨values, behind⟩, hread, hpair⟩ := reading_bind_eq_ok.1 h
        cases hpair
        obtain ⟨piece, rfl, hspelled⟩ := hitems hread
        exact ⟨_, rfl, .list hspelled⟩
      · exact quoted_sound (.inl rfl) h
      · exact quoted_sound (.inr rfl) h
      · rw [value] at h
        obtain ⟨gap, piece, n, rfl, hgap, hnumeral, rfl⟩ := signed_sound h
        exact ⟨'-' :: (gap ++ piece), by simp, .minus hgap hnumeral⟩
      · rw [value] at h
        obtain ⟨gap, piece, n, rfl, hgap, hnumeral, rfl⟩ := signed_sound h
        exact ⟨'+' :: (gap ++ piece), by simp, .plus hgap hnumeral⟩

theorem items_sound (hvalue : ValueSound fuel) (hitems : ItemsSound fuel) :
    ItemsSound (fuel + 1) := by
  intro text rest values h
  by_cases hitem : ∀ c ∈ (skipTrivia text).head?, c ≠ ',' ∧ c ≠ ']'
  · rw [items_item hitem] at h
    obtain ⟨⟨v, behind⟩, hread, hafterItem⟩ := reading_bind_eq_ok.1 h
    obtain ⟨piece, hpiece, hspelled⟩ := hvalue hread
    obtain ⟨before, rfl, hbefore⟩ := exists_before hpiece hspelled
    obtain ⟨after, hafter, ⟨rfl, rfl⟩ | ⟨more, others, rfl, hmore, rfl⟩⟩ :=
      afterItem_sound hafterItem
    · exact ⟨_, by simp, .last hbefore hspelled hafter⟩
    · obtain ⟨final, rfl, hfinal⟩ := hitems hmore
      exact ⟨_, by simp, .cons hbefore hspelled hafter hfinal⟩
  · simp only [not_forall, not_and_or, not_not] at hitem
    obtain ⟨c, hc, rfl | rfl⟩ := hitem
    · obtain ⟨behind, hskip⟩ := List.head?_eq_some_iff.1 hc
      simp only [items, hskip] at h
      cases h
    · obtain ⟨behind, hskip⟩ := List.head?_eq_some_iff.1 hc
      rw [items_close hskip] at h
      cases h
      obtain ⟨before, rfl, hbefore⟩ := exists_after hskip
      exact ⟨_, by simp, .close hbefore⟩

theorem value_and_items_sound (fuel : Nat) : ValueSound fuel ∧ ItemsSound fuel := by
  induction fuel with
  | zero => exact ⟨nofun, nofun⟩
  | succ fuel ih => exact ⟨value_sound ih.1 ih.2, items_sound ih.1 ih.2⟩

/-! ## Whole texts -/

theorem evaluateText_eq_ok_iff {text : String} :
    evaluateText text = .ok v ↔
      ∃ rest, value (2 * text.toList.length + 2) (skipTrivia text.toList) = .ok (v, rest) ∧
        skipTrivia rest = [] := by
  have hwhole : evaluateText text = .ok v ↔ whole text.toList = .ok v := by
    rw [evaluateText]
    cases whole text.toList <;> simp [Except.mapError]
  rw [hwhole, whole, reading_bind_eq_ok]
  constructor
  · rintro ⟨⟨w, rest⟩, hvalue, hend⟩
    dsimp only at hend
    split at hend
    · rename_i hempty
      cases hend
      exact ⟨rest, hvalue, List.isEmpty_iff.1 hempty⟩
    · cases hend
  · rintro ⟨rest, hvalue, hend⟩
    exact ⟨(v, rest), hvalue, if_pos (List.isEmpty_iff.2 hend)⟩

theorem value_of_isLiteral {before spelling after : List Char} (hbefore : Trivia lax before)
    (hspelling : Spells lax spelling v) (hafter : Tail lax after)
    (htext : text = before ++ (spelling ++ after)) :
    value (2 * text.length + 2) (skipTrivia text) = .ok (v, after) := by
  rw [htext, hspelling.skip hbefore]
  refine (value_and_items_complete _).1 hspelling ?_ after hafter.stops
  simp only [List.length_append]
  omega

theorem evaluateText_of_isLiteral {text : String} (h : IsLiteral lax text.toList v) :
    evaluateText text = .ok v := by
  obtain ⟨before, spelling, after, htext, hbefore, hspelling, hafter⟩ := h
  exact evaluateText_eq_ok_iff.2
    ⟨after, value_of_isLiteral hbefore hspelling hafter htext, hafter.skip⟩

theorem isLiteral_of_evaluateText {text : String} (h : evaluateText text = .ok v) :
    IsLiteral .univ text.toList v := by
  obtain ⟨rest, hvalue, hrest⟩ := evaluateText_eq_ok_iff.1 h
  obtain ⟨piece, hpiece, hspelled⟩ := (value_and_items_sound _).1 hvalue
  obtain ⟨before, htext, hbefore⟩ := exists_before hpiece hspelled
  exact ⟨before, piece, rest, htext, hbefore, hspelled, tail_of_skip hrest⟩

end TypeSchema.Literal
