import TypeSchema.Proofs.Literal.Grammar
import TypeSchema.Proofs.Text.Surrogates

/-!
# Values of strings

A string literal as a sequence of plain characters and escapes, each of which stands for some
sixteen-bit units.  The string that is read has these units, with U+FFFD for unpaired surrogates,
unless two halves of a pair are written in different notations, a leading surrogate is joined with a
unit that is no trailing one, or a line goes on behind another line end than U+000A.
-/

namespace TypeSchema.Literal

/-! ## Pieces of string literals -/

inductive Piece where
  | plain (c : Char)
  /-- A backslash and one more character. -/
  | single (c : Char)
  /-- Two hexadecimal digits behind `\x`. -/
  | byte (digits : List Char)
  /-- Four hexadecimal digits behind `\u`. -/
  | unit (digits : List Char)
  /-- Any number of hexadecimal digits in braces behind `\u`. -/
  | braced (digits : List Char)
  /-- A backslash and a line end, which stand for nothing. -/
  | continuation (lineEnd : List Char)

namespace Piece

def text : Piece → List Char
  | .plain c => [c]
  | .single c => ['\\', c]
  | .byte digits => '\\' :: 'x' :: digits
  | .unit digits => '\\' :: 'u' :: digits
  | .braced digits => '\\' :: 'u' :: '\x7b' :: (digits ++ ['\x7d'])
  | .continuation lineEnd => '\\' :: lineEnd

/-- The units that a piece stands for. -/
def units : Piece → List Nat
  | .plain c => Text.unitsOfChar c
  | .single c => Text.units (escaped c)
  | .byte digits | .unit digits => [Digits.value 16 digits]
  | .braced digits => Text.unitsOfCode (Digits.value 16 digits)
  | .continuation _ => []

/-- The rules for a piece that other pieces follow: only a zero that no digit follows is a digit
that may be escaped. -/
def WellFormed (quote : Char) : Piece → List Piece → Prop
  | .plain c, _ => c ≠ quote ∧ c ≠ '\\' ∧ c ≠ '\n' ∧ c ≠ '\r'
  | .single c, after => (c ≠ 'x' ∧ c ≠ 'u') ∧ isLineEnd c = false ∧
      (c.isDigit = true → c = '0' ∧ ∀ d ∈ (after.flatMap text).head?, d.isDigit = false)
  | .byte digits, _ => HexDigits digits ∧ digits.length = 2
  | .unit digits, _ => HexDigits digits ∧ digits.length = 4
  | .braced digits, _ => HexDigits digits ∧ Digits.value 16 digits ≤ 0x10FFFF
  | .continuation lineEnd, _ =>
      lineEnd ∈ [['\n'], ['\r'], ['\r', '\n'], ['\u2028'], ['\u2029']]

/-- A leading surrogate that four digits write is joined with a unit behind it, and digits are
expected where a brace is. -/
def joins : Piece → List Piece → Bool
  | .unit digits, .unit _ :: _ | .unit digits, .braced _ :: _ =>
    Text.isLead (Digits.value 16 digits)
  | _, _ => false

/-- The characters that are read of a piece that is not joined, if it is read. -/
def shown? : Piece → Option (List Char)
  | .plain c => some [c]
  | .single c | .continuation [c] => some (escaped c)
  | .byte digits | .unit digits | .braced digits => some [charOfCode (Digits.value 16 digits)]
  | .continuation _ => none

/-- A piece stands for what is read of it, or of it and the next one.  This fails for another line
end than U+000A, and where a leading surrogate is read together with a next one that does not
continue it or apart from a next one that does. -/
def Agrees : Piece → List Piece → Prop
  | .continuation lineEnd, _ => lineEnd = ['\n']
  | .unit lead, .unit second :: _ =>
    Text.isLead (Digits.value 16 lead) = true → Text.isTrail (Digits.value 16 second) = true
  | .unit lead, .braced _ :: _ => Text.isLead (Digits.value 16 lead) = false
  | .unit digits, after | .braced digits, after =>
    ¬ Text.Pairs (Digits.value 16 digits) (after.flatMap units)
  | _, _ => True

end Piece

/-- A property of each piece together with those that follow it. -/
def Throughout (P : Piece → List Piece → Prop) (pieces : List Piece) : Prop :=
  ∀ piece after, piece :: after <:+ pieces → P piece after

theorem throughout_cons {P : Piece → List Piece → Prop} {piece : Piece} {after : List Piece} :
    Throughout P (piece :: after) ↔ P piece after ∧ Throughout P after := by
  constructor
  · exact fun h => ⟨h piece after (List.suffix_refl _),
      fun next rest hsuffix => h next rest (hsuffix.trans (List.suffix_cons _ _))⟩
  · rintro ⟨hpiece, hafter⟩ next rest hsuffix
    rcases List.suffix_cons_iff.1 hsuffix with heq | hsuffix
    · cases heq
      exact hpiece
    · exact hafter next rest hsuffix

theorem throughout_nil (P : Piece → List Piece → Prop) : Throughout P [] :=
  fun _ _ hsuffix => absurd (List.suffix_nil.1 hsuffix) (List.cons_ne_nil _ _)

/-- The characters that are read of pieces, `none` if their text is refused. -/
inductive Reads : List Piece → Option (List Char) → Prop
  | nil : Reads [] (some [])
  | alone {piece : Piece} {after : List Piece} {shown : List Char} {outcome : Option (List Char)}
      (hjoins : piece.joins after = false) (hshown : piece.shown? = some shown)
      (hafter : Reads after outcome) : Reads (piece :: after) (outcome.map (shown ++ ·))
  | pair {lead second : List Char} {after : List Piece} {outcome : Option (List Char)}
      (hlead : Text.isLead (Digits.value 16 lead) = true) (hafter : Reads after outcome) :
      Reads (.unit lead :: .unit second :: after) (outcome.map
        (charOfCode (joinSurrogates (Digits.value 16 lead) (Digits.value 16 second)) :: ·))
  | mixed {lead digits : List Char} {after : List Piece}
      (hlead : Text.isLead (Digits.value 16 lead) = true) :
      Reads (.unit lead :: .braced digits :: after) none
  | broken {piece : Piece} {after : List Piece} (hshown : piece.shown? = none) :
      Reads (piece :: after) none

theorem exists_reads : ∀ pieces : List Piece, ∃ outcome, Reads pieces outcome
  | [] => ⟨_, .nil⟩
  | piece :: after => by
      by_cases hjoins : piece.joins after = true
      · unfold Piece.joins at hjoins
        split at hjoins
        · rename_i lead second after
          obtain ⟨outcome, hafter⟩ := exists_reads after
          exact ⟨_, .pair hjoins hafter⟩
        · exact ⟨_, .mixed hjoins⟩
        · cases hjoins
      · cases hshown : piece.shown? with
        | none => exact ⟨_, .broken hshown⟩
        | some shown =>
            obtain ⟨outcome, hafter⟩ := exists_reads after
            exact ⟨_, .alone (by simpa using hjoins) hshown hafter⟩
termination_by pieces => pieces.length

variable {quote : Char} {piece : Piece} {pieces after : List Piece} {shown chars rest : List Char}
  {outcome : Option (List Char)}

theorem Piece.lineEnd_cases {lineEnd : List Char}
    (h : (Piece.continuation lineEnd).WellFormed quote after) :
    lineEnd = ['\n'] ∨ lineEnd = ['\r'] ∨ lineEnd = ['\r', '\n'] ∨ lineEnd = ['\u2028'] ∨
      lineEnd = ['\u2029'] := by
  simpa [Piece.WellFormed] using h

/-! ## Reading the text of pieces -/

theorem isLeadSurrogate_eq (code : Nat) : isLeadSurrogate code = Text.isLead code := rfl

theorem toOption_bind_pure {α β : Type} (reading : Reading α) (f : α → β) :
    (reading >>= fun a => pure (f a)).toOption = reading.toOption.map f := by
  cases reading <;> rfl

theorem stringBody_plain {c : Char} (hquote : c ≠ quote) (hbreak : c ≠ '\n')
    (hescape : c ≠ '\\') (fuel : Nat) (rest : List Char) :
    (stringBody quote (fuel + 1) (c :: rest)).toOption =
      (stringBody quote fuel rest).toOption.map fun read => (c :: read.1, read.2) := by
  rw [stringBody, if_neg hquote, if_neg hbreak, if_neg hescape]
  exact toOption_bind_pure _ _

theorem stringBody_escape {text : List Char} (hquote : quote ≠ '\\')
    (hescape : escape text = .ok (shown, rest)) (fuel : Nat) :
    (stringBody quote (fuel + 1) ('\\' :: text)).toOption =
      (stringBody quote fuel rest).toOption.map fun read => (shown ++ read.1, read.2) := by
  rw [stringBody, if_neg hquote.symm, if_neg (by decide), if_pos rfl, hescape]
  exact toOption_bind_pure _ _

theorem stringBody_refused {text : List Char} {fault : Fault} (hquote : quote ≠ '\\')
    (hescape : escape text = .error fault) (fuel : Nat) :
    (stringBody quote (fuel + 1) ('\\' :: text)).toOption = none := by
  rw [stringBody, if_neg hquote.symm, if_neg (by decide), if_pos rfl, hescape]
  rfl

/-- Digits are looked for behind the mark of a second code. -/
theorem hexDigits_brace (text : List Char) :
    ∃ fault, hexDigits 4 ('\x7b' :: text) = .error fault := by
  cases hread : hexDigits 4 ('\x7b' :: text) with
  | error fault => exact ⟨fault, rfl⟩
  | ok read =>
      obtain ⟨code, rest⟩ := read
      obtain ⟨piece, htext, hcount, hdigits, -⟩ := hexDigits_eq_ok_iff.1 hread
      cases piece with
      | nil => cases hcount
      | cons c piece =>
          cases htext
          exact absurd (hdigits.chars '\x7b' List.mem_cons_self) (by decide)

/-- A leading surrogate of four digits in front of a code in braces. -/
theorem escape_mixed {digits text : List Char} {lead : Nat}
    (hcode : HexCode .univ 4 digits lead) (hlead : Text.isLead lead = true) :
    ∃ fault, escape ('u' :: (digits ++ '\\' :: 'u' :: '\x7b' :: text)) = .error fault := by
  obtain ⟨fault, hfault⟩ := hexDigits_brace text
  have hunit := unitCode_of_lead (hexDigits_complete hcode ('\\' :: 'u' :: '\x7b' :: text))
  rw [if_pos ⟨⟨_, rfl⟩, hlead⟩] at hunit
  refine ⟨fault, ?_⟩
  rw [escape_unit (hcode.head_ne _), hunit]
  simp only [List.drop_succ_cons, List.drop_zero, hfault]
  rfl

theorem stringBody_break (hquote : quote ≠ '\n') (fuel : Nat) (rest : List Char) :
    (stringBody quote fuel ('\n' :: rest)).toOption = none := by
  cases fuel with
  | zero => rfl
  | succ fuel =>
      rw [stringBody, if_neg hquote.symm, if_pos rfl]
      rfl

/-- The texts of pieces and the quotation mark behind them. -/
def behind (quote : Char) (pieces : List Piece) (rest : List Char) : List Char :=
  pieces.flatMap Piece.text ++ quote :: rest

theorem behind_cons (quote : Char) (piece : Piece) (after : List Piece) (rest : List Char) :
    behind quote (piece :: after) rest = piece.text ++ behind quote after rest := by
  rw [behind, List.flatMap_cons, List.append_assoc, behind]

/-- Only a code behind `\u` has the mark by which a leading surrogate is joined with it. -/
theorem not_mark_behind (hquote : quote ≠ '\\') (hafter : Throughout (Piece.WellFormed quote) after)
    (hunit : ∀ digits more, after ≠ .unit digits :: more)
    (hbraced : ∀ digits more, after ≠ .braced digits :: more) (rest : List Char) :
    ¬ unitMark <+: behind quote after rest := by
  intro hmark
  cases after with
  | nil => exact hquote (List.cons_prefix_cons.1 hmark).1.symm
  | cons next more =>
      have hnext := (throughout_cons.1 hafter).1
      rw [behind_cons] at hmark
      cases next with
      | plain c => exact hnext.2.1 (List.cons_prefix_cons.1 hmark).1.symm
      | single c =>
          exact hnext.1.2 (List.cons_prefix_cons.1 (List.cons_prefix_cons.1 hmark).2).1.symm
      | byte digits =>
          exact absurd (List.cons_prefix_cons.1 (List.cons_prefix_cons.1 hmark).2).1 (by decide)
      | unit digits => exact hunit digits more rfl
      | braced digits => exact hbraced digits more rfl
      | continuation lineEnd =>
          have hchar := (List.cons_prefix_cons.1 hmark).2
          rcases Piece.lineEnd_cases hnext with rfl | rfl | rfl | rfl | rfl <;>
            exact absurd (List.cons_prefix_cons.1 hchar).1 (by decide)

theorem Piece.escape_of_alone (hquote : quote ≠ '\\')
    (hpieces : Throughout (Piece.WellFormed quote) (piece :: after))
    (hjoins : piece.joins after = false) (hshown : piece.shown? = some shown)
    (hplain : ∀ c, piece ≠ .plain c) (rest : List Char) :
    ∃ body, piece.text = '\\' :: body ∧ Escape .univ body shown (behind quote after rest) := by
  obtain ⟨hpiece, hafter⟩ := throughout_cons.1 hpieces
  cases piece with
  | plain c => exact absurd rfl (hplain c)
  | single c =>
      cases hshown
      exact ⟨_, rfl, .single hpiece.1 (.inl trivial)⟩
  | byte digits =>
      cases hshown
      exact ⟨_, rfl, .byte (.plain hpiece.1 hpiece.2)⟩
  | unit digits =>
      cases hshown
      refine ⟨_, rfl, .unit (.plain hpiece.1 hpiece.2) fun hlead => ?_⟩
      refine not_mark_behind hquote hafter ?_ ?_ rest <;>
      · rintro next more rfl
        rw [Piece.joins, ← isLeadSurrogate_eq, hlead] at hjoins
        cases hjoins
  | braced digits =>
      cases hshown
      exact ⟨_, rfl, .braced hpiece.1 (Nat.lt_of_le_of_lt hpiece.2 (by decide)) (.inl trivial)⟩
  | continuation lineEnd =>
      rcases Piece.lineEnd_cases hpiece with rfl | rfl | rfl | rfl | rfl <;> cases hshown <;>
        exact ⟨_, rfl, .single (by decide) (.inl trivial)⟩

theorem Piece.eq_of_shown?_eq_none (hpiece : piece.WellFormed quote after)
    (h : piece.shown? = none) : piece = .continuation ['\r', '\n'] := by
  cases piece with
  | plain _ | single _ | byte _ | unit _ | braced _ => cases h
  | continuation lineEnd =>
      rcases Piece.lineEnd_cases hpiece with rfl | rfl | rfl | rfl | rfl
      · cases h
      · cases h
      · rfl
      · cases h
      · cases h

/-- The quotation marks of string literals. -/
def IsQuote (quote : Char) : Prop := quote = '"' ∨ quote = '\''

theorem IsQuote.ne (h : IsQuote quote) {c : Char} (hc : c ≠ '"' ∧ c ≠ '\'') : quote ≠ c := by
  rcases h with rfl | rfl
  · exact hc.1.symm
  · exact hc.2.symm

/-- The reading of a string spends one step of its fuel on a piece. -/
theorem Reads.stringBody (h : Reads pieces outcome) (hquote : IsQuote quote)
    (hpieces : Throughout (Piece.WellFormed quote) pieces) {fuel : Nat}
    (hfuel : pieces.length < fuel) (rest : List Char) :
    (stringBody quote fuel (behind quote pieces rest)).toOption = outcome.map (·, rest) := by
  have hescape : quote ≠ '\\' := hquote.ne (by decide)
  induction h generalizing fuel with
  | nil =>
      obtain ⟨fuel, rfl⟩ := Nat.exists_eq_add_of_le' hfuel
      rw [behind, List.flatMap_nil, List.nil_append]
      simp only [List.length_nil, Literal.stringBody, if_pos]
      rfl
  | @alone piece after shown outcome hjoins hshown hafter ih =>
      obtain ⟨hpiece, hmore⟩ := throughout_cons.1 hpieces
      rw [List.length_cons] at hfuel
      obtain ⟨fuel, rfl⟩ := Nat.exists_eq_add_of_le' (Nat.one_le_of_lt hfuel)
      rw [behind_cons]
      by_cases hplain : ∃ c, piece = .plain c
      · obtain ⟨c, rfl⟩ := hplain
        cases hshown
        rw [Piece.text, List.singleton_append, stringBody_plain hpiece.1 hpiece.2.2.1 hpiece.2.1,
          ih hmore (by omega)]
        cases outcome <;> rfl
      · obtain ⟨body, htext, hbody⟩ := Piece.escape_of_alone hescape hpieces hjoins hshown
          (fun c hc => hplain ⟨c, hc⟩) rest
        rw [htext, List.cons_append, stringBody_escape hescape (escape_complete hbody),
          ih hmore (by omega)]
        cases outcome <;> rfl
  | @pair lead second after outcome hlead hafter ih =>
      obtain ⟨hfirst, hmore⟩ := throughout_cons.1 hpieces
      obtain ⟨hsecond, hmore⟩ := throughout_cons.1 hmore
      rw [List.length_cons, List.length_cons] at hfuel
      obtain ⟨fuel, rfl⟩ := Nat.exists_eq_add_of_le' (Nat.one_le_of_lt hfuel)
      have hbody : Escape .univ _ _ (behind quote after rest) :=
        .pair (.plain hfirst.1 hfirst.2) hlead (.plain hsecond.1 hsecond.2)
      have htext : behind quote (.unit lead :: .unit second :: after) rest =
          '\\' :: ('u' :: (lead ++ (unitMark ++ second)) ++ behind quote after rest) := by
        simp [behind_cons, Piece.text, unitMark]
      rw [htext, stringBody_escape hescape (escape_complete hbody), ih hmore (by omega)]
      cases outcome <;> rfl
  | @mixed lead digits after hlead =>
      obtain ⟨hfirst, -⟩ := throughout_cons.1 hpieces
      rw [List.length_cons] at hfuel
      obtain ⟨fuel, rfl⟩ := Nat.exists_eq_add_of_le' (Nat.one_le_of_lt hfuel)
      have htext : behind quote (.unit lead :: .braced digits :: after) rest = '\\' :: 'u' ::
          (lead ++ '\\' :: 'u' :: '\x7b' :: (digits ++ '\x7d' :: behind quote after rest)) := by
        simp [behind_cons, Piece.text]
      obtain ⟨fault, hfault⟩ := escape_mixed (.plain hfirst.1 hfirst.2) hlead
      rw [htext, stringBody_refused hescape hfault]
      rfl
  | @broken piece after hshown =>
      obtain rfl := Piece.eq_of_shown?_eq_none (throughout_cons.1 hpieces).1 hshown
      rw [List.length_cons] at hfuel
      obtain ⟨fuel, rfl⟩ := Nat.exists_eq_add_of_le' (Nat.one_le_of_lt hfuel)
      have htext : behind quote (.continuation ['\r', '\n'] :: after) rest =
          '\\' :: '\r' :: '\n' :: behind quote after rest := by
        simp [behind_cons, Piece.text]
      rw [htext, stringBody_escape hescape (escape_single (by decide) _),
        stringBody_break (hquote.ne (by decide))]
      rfl

/-! ## Evaluating string literals -/

/-- A string literal as it is written. -/
def quoted (quote : Char) (pieces : List Piece) : String :=
  String.ofList (quote :: (pieces.flatMap Piece.text ++ [quote]))

theorem length_le_length_text (pieces : List Piece) :
    pieces.length ≤ (pieces.flatMap Piece.text).length := by
  induction pieces with
  | nil => exact Nat.le_refl _
  | cons piece pieces ih =>
      have hpiece : 1 ≤ piece.text.length := by cases piece <;> simp [Piece.text]
      rw [List.length_cons, List.flatMap_cons, List.length_append]
      omega

theorem Reads.evaluateText (h : Reads pieces outcome) (hquote : IsQuote quote)
    (hpieces : Throughout (Piece.WellFormed quote) pieces) {v : Option Json} :
    evaluateText (quoted quote pieces) = .ok v ↔
      ∃ chars, outcome = some chars ∧ v = some (.str (String.ofList chars)) := by
  have hlength := length_le_length_text pieces
  have hblank : Text.isBlank quote = false := by
    rcases hquote with rfl | rfl <;> decide
  have hfuel : pieces.length < (pieces.flatMap Piece.text ++ [quote]).length + 1 := by
    rw [List.length_append]
    omega
  have hbody := h.stringBody hquote hpieces hfuel []
  rw [evaluateText_eq_ok_iff, quoted, String.toList_ofList,
    skipTrivia_stay_of_ne hblank (hquote.ne (by decide)), value_quote hquote, string, ← behind]
  rw [← behind] at hbody
  cases hread : Literal.stringBody quote ((behind quote pieces []).length + 1)
      (behind quote pieces []) with
  | error fault =>
      rw [hread] at hbody
      cases outcome with
      | none =>
          refine iff_of_false ?_ ?_
          · rintro ⟨_, hvalue, -⟩
            cases hvalue
          · rintro ⟨_, hchars, -⟩
            cases hchars
      | some chars => cases hbody
  | ok read =>
      rw [hread] at hbody
      cases outcome with
      | none => cases hbody
      | some chars =>
          cases hbody
          constructor
          · rintro ⟨rest, hvalue, -⟩
            cases hvalue
            exact ⟨chars, rfl, rfl⟩
          · rintro ⟨_, hchars, rfl⟩
            cases hchars
            exact ⟨[], rfl, by rw [skipTrivia]⟩

/-! ## Units that are read -/

theorem units_append (text text' : List Char) :
    Text.units (text ++ text') = Text.units text ++ Text.units text' := List.flatMap_append

theorem units_singleton (c : Char) : Text.units [c] = Text.unitsOfChar c :=
  List.flatMap_singleton ..

theorem unitsOfChar_charOfCode {code : Nat} (hbound : code ≤ 0x10FFFF)
    (h : Text.isSurrogate code = false) :
    Text.unitsOfChar (charOfCode code) = Text.unitsOfCode code := by
  have hvalid : code.isValidChar := by
    rw [Bool.eq_false_iff, ne_eq, Text.isSurrogate_iff] at h
    unfold Nat.isValidChar
    omega
  have hcode : (Char.ofNat code).toNat = code := by
    rw [Char.ofNat, dif_pos hvalid]
    rfl
  rw [Text.unitsOfChar_eq, charOfCode, if_pos hvalid, hcode]

theorem charOfCode_surrogate {code : Nat} (h : Text.isSurrogate code = true) :
    charOfCode code = '\uFFFD' := by
  rw [Text.isSurrogate_iff] at h
  refine if_neg ?_
  unfold Nat.isValidChar
  omega

theorem unitsOfChar_joinSurrogates {lead : Nat} (hlead : Text.isLead lead = true) (second : Nat) :
    Text.unitsOfChar (charOfCode (joinSurrogates lead second)) =
      [lead, 0xDC00 + second % 0x400] := by
  rw [Text.isLead_iff] at hlead
  obtain ⟨code, hcode⟩ : ∃ code, joinSurrogates lead second = code := ⟨_, rfl⟩
  rw [hcode]
  rw [joinSurrogates] at hcode
  have hplain : Text.isSurrogate code = false := by
    rw [Bool.eq_false_iff, ne_eq, Text.isSurrogate_iff]
    omega
  have hfirst : 0xD800 + (code - 0x10000) / 0x400 = lead := by omega
  have hsecond : (code - 0x10000) % 0x400 = second % 0x400 := by omega
  rw [unitsOfChar_charOfCode (by omega) hplain, Text.unitsOfCode, if_neg (by omega), hfirst,
    hsecond]

/-- What is read of a piece: what it stands for, U+FFFD for a surrogate, or a line end. -/
inductive Piece.ReadAs (piece : Piece) (after : List Piece) (shown : List Char) : Prop
  | same (hunits : Text.units shown = piece.units) (hagrees : piece.Agrees after)
  | surrogate {code : Nat} (hcode : Text.isSurrogate code = true) (hunits : piece.units = [code])
      (hshown : shown = ['\uFFFD'])
      (hagrees : piece.Agrees after ↔ ¬ Text.Pairs code (after.flatMap Piece.units))
  | lineEnd {c : Char} (hunits : piece.units = []) (hshown : shown = [c])
      (hagrees : ¬ piece.Agrees after)

theorem Piece.readAs_code {code : Nat} (hbound : code ≤ 0x10FFFF)
    (hunits : piece.units = Text.unitsOfCode code)
    (hagrees : piece.Agrees after ↔ ¬ Text.Pairs code (after.flatMap Piece.units)) :
    piece.ReadAs after [charOfCode code] := by
  cases hcode : Text.isSurrogate code with
  | true =>
      rw [Text.unitsOfCode_of_lt (Text.lt_of_isSurrogate hcode)] at hunits
      exact .surrogate hcode hunits (by rw [charOfCode_surrogate hcode]) hagrees
  | false =>
      have hlead := (Bool.or_eq_false_iff.1 hcode).1
      refine .same ?_ (hagrees.2 (Text.not_pairs_of_not_isLead hlead _))
      rw [units_singleton, unitsOfChar_charOfCode hbound hcode, hunits]

theorem valueFrom_lt {digits : List Char} (h : ∀ c ∈ digits, Digits.isDigit 16 c = true)
    (read : Nat) :
    Digits.valueFrom 16 read digits < (read + 1) * Nat.pow 16 digits.length := by
  induction digits generalizing read with
  | nil => simp [Digits.valueFrom]
  | cons c digits ih =>
      have hdigit : Digits.digitValue c < 16 := of_decide_eq_true (h c List.mem_cons_self)
      calc Digits.valueFrom 16 (16 * read + Digits.digitValue c) digits
          < (16 * read + Digits.digitValue c + 1) * Nat.pow 16 digits.length :=
            ih (fun d hd => h d (List.mem_cons_of_mem c hd)) _
        _ ≤ ((read + 1) * 16) * Nat.pow 16 digits.length := Nat.mul_le_mul_right _ (by omega)
        _ = (read + 1) * Nat.pow 16 (c :: digits).length := by
            rw [List.length_cons, Nat.pow_eq, Nat.pow_eq, Nat.pow_succ', Nat.mul_assoc]

theorem HexDigits.value_lt {digits : List Char} (h : HexDigits digits) :
    Digits.value 16 digits < Nat.pow 16 digits.length := by
  have hlt := valueFrom_lt h.chars 0
  rwa [Nat.zero_add, Nat.one_mul] at hlt

theorem Piece.agrees_of_not_isLead {digits : List Char}
    (h : Text.isLead (Digits.value 16 digits) = false) : (Piece.unit digits).Agrees after := by
  have hpairs := Text.not_pairs_of_not_isLead h (after.flatMap Piece.units)
  cases after with
  | nil => exact hpairs
  | cons next more =>
      cases next with
      | plain _ | single _ | byte _ | continuation _ => exact hpairs
      | unit _ =>
          intro hlead
          rw [h] at hlead
          cases hlead
      | braced _ => exact h

/-- A leading surrogate that is not joined is one in front of what is no code behind `\u`. -/
theorem Piece.agrees_unit_iff {digits : List Char}
    (hjoins : (Piece.unit digits).joins after = false) :
    (Piece.unit digits).Agrees after ↔
      ¬ Text.Pairs (Digits.value 16 digits) (after.flatMap Piece.units) := by
  cases hlead : Text.isLead (Digits.value 16 digits) with
  | false =>
      exact iff_of_true (Piece.agrees_of_not_isLead hlead)
        (Text.not_pairs_of_not_isLead hlead _)
  | true =>
      cases after with
      | nil => exact Iff.rfl
      | cons next more =>
          cases next with
          | plain _ | single _ | byte _ | continuation _ => exact Iff.rfl
          | unit _ | braced _ =>
              rw [Piece.joins, hlead] at hjoins
              cases hjoins

theorem Piece.readAs_of_alone (hpiece : piece.WellFormed quote after)
    (hjoins : piece.joins after = false) (hshown : piece.shown? = some shown) :
    piece.ReadAs after shown := by
  cases piece with
  | plain c =>
      cases hshown
      exact .same (units_singleton c) trivial
  | single c =>
      cases hshown
      exact .same rfl trivial
  | byte digits =>
      cases hshown
      obtain ⟨hdigits, hlength⟩ := hpiece
      have hlt : Digits.value 16 digits < 0x100 := by
        rw [show 0x100 = Nat.pow 16 2 from rfl, ← hlength]
        exact hdigits.value_lt
      have hagrees : ¬ Text.Pairs (Digits.value 16 digits) (after.flatMap Piece.units) :=
        fun hpairs => absurd (Text.isLead_iff.1 hpairs.1).1 (by omega)
      exact Piece.readAs_code (Nat.le_trans (Nat.le_of_lt hlt) (by decide))
        (Text.unitsOfCode_of_lt (Nat.lt_trans hlt (by decide))).symm (iff_of_true trivial hagrees)
  | unit digits =>
      cases hshown
      obtain ⟨hdigits, hlength⟩ := hpiece
      have hlt : Digits.value 16 digits < 0x10000 := by
        rw [show 0x10000 = Nat.pow 16 4 from rfl, ← hlength]
        exact hdigits.value_lt
      exact Piece.readAs_code (Nat.le_trans (Nat.le_of_lt hlt) (by decide))
        (Text.unitsOfCode_of_lt hlt).symm (Piece.agrees_unit_iff hjoins)
  | braced digits =>
      cases hshown
      exact Piece.readAs_code hpiece.2 rfl Iff.rfl
  | continuation lineEnd =>
      rcases Piece.lineEnd_cases hpiece with rfl | rfl | rfl | rfl | rfl <;> cases hshown
      · exact .same rfl rfl
      all_goals exact .lineEnd rfl rfl (by simp [Piece.Agrees])

theorem Reads.length_units_le (h : Reads pieces outcome)
    (hpieces : Throughout (Piece.WellFormed quote) pieces) (hchars : outcome = some chars) :
    (pieces.flatMap Piece.units).length ≤ (Text.units chars).length := by
  induction h generalizing chars with
  | nil => exact Nat.zero_le _
  | @alone piece after shown outcome hjoins hshown hafter ih =>
      obtain ⟨hpiece, hmore⟩ := throughout_cons.1 hpieces
      obtain ⟨others, rfl, rfl⟩ := Option.map_eq_some_iff.1 hchars
      have hothers := ih hmore rfl
      rw [List.flatMap_cons, units_append, List.length_append, List.length_append]
      refine Nat.add_le_add ?_ hothers
      cases Piece.readAs_of_alone hpiece hjoins hshown with
      | same hunits _ => rw [hunits]
      | surrogate _ hunits hshown _ => rw [hunits, hshown]; exact Nat.le_refl _
      | lineEnd hunits _ _ => rw [hunits]; exact Nat.zero_le _
  | @pair lead second after outcome hlead hafter ih =>
      have hmore := (throughout_cons.1 (throughout_cons.1 hpieces).2).2
      obtain ⟨others, rfl, rfl⟩ := Option.map_eq_some_iff.1 hchars
      have hothers := ih hmore rfl
      rw [List.flatMap_cons, List.flatMap_cons, Text.units, List.flatMap_cons, List.length_append,
        List.length_append, List.length_append, unitsOfChar_joinSurrogates hlead, ← Text.units]
      simp only [Piece.units, List.length_cons, List.length_nil]
      omega
  | mixed _ => cases hchars
  | broken _ => cases hchars

/-- What one piece adds on both sides. -/
theorem Piece.ReadAs.units_eq_iff (h : piece.ReadAs after shown)
    (hlength : (after.flatMap Piece.units).length ≤ (Text.units chars).length) :
    Text.units (shown ++ chars) =
        Text.toWellFormed (piece.units ++ after.flatMap Piece.units) ↔
      piece.Agrees after ∧ Text.units chars = Text.toWellFormed (after.flatMap Piece.units) := by
  rw [units_append]
  cases h with
  | same hunits hagrees =>
      rw [← hunits, Text.toWellFormed_units_append, List.append_cancel_left_eq]
      simp only [hagrees, true_and]
  | @surrogate code hcode hunits hshown hagrees =>
      have hreplaced : Text.units ['\uFFFD'] = [0xFFFD] := rfl
      rw [hunits, hshown, hreplaced, hagrees, List.singleton_append, List.singleton_append]
      by_cases hpairs : Text.Pairs code (after.flatMap Piece.units)
      · refine iff_of_false (fun heq => ?_) fun h => h.1 hpairs
        obtain ⟨others, hothers⟩ := Text.toWellFormed_of_pairs hpairs
        rw [hothers, List.cons.injEq] at heq
        have hlt := (Text.isSurrogate_iff.1 hcode).2
        omega
      · simp only [Text.toWellFormed_unpaired hcode hpairs, List.cons.injEq, hpairs,
          not_false_eq_true, true_and]
  | @lineEnd c hunits hshown hagrees =>
      refine iff_of_false (fun heq => ?_) fun h => hagrees h.1
      have hlonger := congrArg List.length heq
      have hpos := List.length_pos_iff.2 (Text.unitsOfChar_ne_nil c)
      rw [hunits, hshown, units_singleton, List.nil_append, List.length_append,
        Text.length_toWellFormed] at hlonger
      omega

theorem units_pair_eq_iff {lead second : Nat} (hlead : Text.isLead lead = true)
    (units : List Nat) :
    Text.units (charOfCode (joinSurrogates lead second) :: chars) =
        Text.toWellFormed (lead :: second :: units) ↔
      Text.isTrail second = true ∧ Text.units chars = Text.toWellFormed units := by
  rw [Text.units, List.flatMap_cons, ← Text.units, unitsOfChar_joinSurrogates hlead]
  by_cases htrail : Text.isTrail second = true
  · have hsecond : 0xDC00 + second % 0x400 = second := by
      rw [Text.isTrail_iff] at htrail
      omega
    rw [Text.toWellFormed_pair hlead htrail, hsecond]
    simp [htrail]
  · have hunpaired : ¬ Text.Pairs lead (second :: units) := by
      rintro ⟨-, next, hnext, hpair⟩
      cases hnext
      exact htrail hpair
    refine iff_of_false (fun heq => ?_) fun h => htrail h.1
    rw [Text.toWellFormed_unpaired (Text.isSurrogate_of_isLead hlead) hunpaired] at heq
    have hhead : lead = 0xFFFD := (List.cons.inj heq).1
    have hlt := (Text.isLead_iff.1 hlead).2
    omega

theorem Reads.units_eq_iff (h : Reads pieces outcome)
    (hpieces : Throughout (Piece.WellFormed quote) pieces) :
    outcome.map Text.units = some (Text.toWellFormed (pieces.flatMap Piece.units)) ↔
      Throughout Piece.Agrees pieces := by
  induction h with
  | nil => exact iff_of_true rfl (throughout_nil _)
  | @alone piece after shown outcome hjoins hshown hafter ih =>
      obtain ⟨hpiece, hmore⟩ := throughout_cons.1 hpieces
      rw [throughout_cons, ← ih hmore, List.flatMap_cons]
      cases outcome with
      | none => exact iff_of_false nofun fun h => nomatch h.2
      | some chars =>
          simp only [Option.map_some, Option.some.injEq]
          exact (Piece.readAs_of_alone hpiece hjoins hshown).units_eq_iff
            (hafter.length_units_le hmore rfl)
  | @pair lead second after outcome hlead hafter ih =>
      have hmore := (throughout_cons.1 (throughout_cons.1 hpieces).2).2
      rw [throughout_cons, throughout_cons, ← ih hmore, List.flatMap_cons, List.flatMap_cons]
      have hagrees : (Piece.unit lead).Agrees (.unit second :: after) ∧
          (Piece.unit second).Agrees after ↔ Text.isTrail (Digits.value 16 second) = true := by
        constructor
        · exact fun h => h.1 hlead
        · intro htrail
          refine ⟨fun _ => htrail, Piece.agrees_of_not_isLead ?_⟩
          rw [Bool.eq_false_iff]
          intro hlead
          rw [Text.isTrail_iff] at htrail
          rw [Text.isLead_iff] at hlead
          omega
      rw [← and_assoc, hagrees]
      cases outcome with
      | none => exact iff_of_false nofun fun h => nomatch h.2
      | some chars =>
          simp only [Option.map_some, Option.some.injEq]
          exact units_pair_eq_iff hlead _
  | mixed hlead =>
      refine iff_of_false nofun fun h => ?_
      have hagrees := (throughout_cons.1 h).1
      rw [Piece.Agrees, hlead] at hagrees
      cases hagrees
  | broken hshown =>
      refine iff_of_false nofun fun h => ?_
      obtain rfl := Piece.eq_of_shown?_eq_none (throughout_cons.1 hpieces).1 hshown
      exact absurd (throughout_cons.1 h).1 (by simp [Piece.Agrees])

/-- A string literal has the value of its pieces if and only if each of them agrees with what is
read. -/
theorem evaluateText_quoted_iff (hquote : IsQuote quote)
    (hpieces : Throughout (Piece.WellFormed quote) pieces) :
    (∃ s : String, evaluateText (quoted quote pieces) = .ok (some (.str s)) ∧
      Text.units s.toList = Text.toWellFormed (pieces.flatMap Piece.units)) ↔
      Throughout Piece.Agrees pieces := by
  obtain ⟨outcome, hreads⟩ := exists_reads pieces
  rw [← hreads.units_eq_iff hpieces]
  simp only [hreads.evaluateText hquote hpieces, Option.some.injEq, Json.str.injEq,
    Option.map_eq_some_iff]
  constructor
  · rintro ⟨s, ⟨chars, hchars, rfl⟩, hunits⟩
    rw [String.toList_ofList] at hunits
    exact ⟨chars, hchars, hunits⟩
  · rintro ⟨chars, hchars, hunits⟩
    exact ⟨_, ⟨chars, hchars, rfl⟩, by rw [String.toList_ofList, hunits]⟩

/-- A pair, a leading surrogate that stays alone, and an escaped letter. -/
def grin : List Piece :=
  [.unit ['D', '8', '3', 'D'], .unit ['D', 'E', '0', '0'], .unit ['d', '8', '0', '0'], .single 'n']

theorem evaluateText_quoted_iff_grin :
    IsQuote '\'' ∧ Throughout (Piece.WellFormed '\'') grin ∧
      ∃ s : String, evaluateText (quoted '\'' grin) = .ok (some (.str s)) ∧
        Text.units s.toList = [0xD83D, 0xDE00, 0xFFFD, 0xA] := by
  have hquote : IsQuote '\'' := .inr rfl
  have hpieces : Throughout (Piece.WellFormed '\'') grin :=
    throughout_cons.2 ⟨⟨⟨by decide, List.all_eq_true.1 (by decide)⟩, rfl⟩,
      throughout_cons.2 ⟨⟨⟨by decide, List.all_eq_true.1 (by decide)⟩, rfl⟩,
        throughout_cons.2 ⟨⟨⟨by decide, List.all_eq_true.1 (by decide)⟩, rfl⟩,
          throughout_cons.2 ⟨⟨by decide, rfl, by decide⟩, throughout_nil _⟩⟩⟩⟩
  have hagrees : Throughout Piece.Agrees grin :=
    throughout_cons.2 ⟨fun _ => rfl,
      throughout_cons.2 ⟨fun h => absurd h (by decide),
        throughout_cons.2 ⟨fun h => by
          obtain ⟨-, next, hnext, htrail⟩ := h
          cases hnext
          exact absurd htrail (by decide),
          throughout_cons.2 ⟨trivial, throughout_nil _⟩⟩⟩⟩
  exact ⟨hquote, hpieces, (evaluateText_quoted_iff hquote hpieces).2 hagrees⟩

/-- A leading surrogate in front of an escaped capital A. -/
def loneLead : List Piece := [.unit ['D', '8', '0', '0'], .unit ['0', '0', '4', '1']]

theorem letter_read_as_trail :
    quoted '"' loneLead = "\"\\uD800\\u0041\"" ∧ Throughout (Piece.WellFormed '"') loneLead ∧
      Text.toWellFormed (loneLead.flatMap Piece.units) = [0xFFFD, 0x41] ∧
      ∀ s : String, evaluateText (quoted '"' loneLead) = .ok (some (.str s)) →
        Text.units s.toList = [0xD800, 0xDC41] := by
  have hpieces : Throughout (Piece.WellFormed '"') loneLead :=
    throughout_cons.2 ⟨⟨⟨by decide, List.all_eq_true.1 (by decide)⟩, rfl⟩,
      throughout_cons.2 ⟨⟨⟨by decide, List.all_eq_true.1 (by decide)⟩, rfl⟩, throughout_nil _⟩⟩
  have hreads : Reads loneLead _ := .pair (by decide) .nil
  refine ⟨by decide, hpieces, by decide, fun s hs => ?_⟩
  obtain ⟨chars, hchars, hvalue⟩ := (hreads.evaluateText (.inl rfl) hpieces).1 hs
  cases hchars
  cases hvalue
  rw [String.toList_ofList]
  decide

end TypeSchema.Literal
