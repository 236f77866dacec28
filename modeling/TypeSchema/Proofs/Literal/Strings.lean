import TypeSchema.Literal.Strings
import TypeSchema.Proofs.Literal.Numerals

/-!
# Spelling of strings

The grammar of strings and their escapes, each with the characters that it stands for.  A string is
read whatever follows it, and whatever is read as a string is spelled so.
-/

namespace TypeSchema.Literal

/-! ## The grammar -/

structure HexDigits (digits : List Char) : Prop where
  nonempty : digits ≠ []
  chars : ∀ c ∈ digits, Digits.isDigit 16 c = true

/-- The digits of a numbered escape, and its code. -/
inductive HexCode (lax : Set Laxity) (count : Nat) : List Char → Nat → Prop
  | plain {digits : List Char} (hdigits : HexDigits digits) (hlength : digits.length = count) :
      HexCode lax count digits (Digits.value 16 digits)
  | signed {digits : List Char} (hdigits : HexDigits digits) (hlength : digits.length + 1 = count)
      (hplus : .plusSign ∈ lax) : HexCode lax count ('+' :: digits) (Digits.value 16 digits)

/-- A character that is written as a backslash and one more character. -/
def escaped : Char → List Char
  | 'n' => ['\n']
  | 't' => ['\t']
  | 'r' => ['\r']
  | 'b' => ['\x08']
  | 'f' => ['\x0c']
  | 'v' => ['\x0b']
  | '0' => ['\x00']
  | '\n' => []
  | c => [c]

/-- How a numbered escape with a leading surrogate may go on. -/
def unitMark : List Char := ['\\', 'u']

/-- What follows a backslash, the characters that it stands for, and the rest, which it depends on
where it looks ahead. -/
inductive Escape (lax : Set Laxity) : List Char → List Char → List Char → Prop
  | single {c : Char} {rest : List Char} (hmark : c ≠ 'x' ∧ c ≠ 'u')
      (hdigit : .octalEscape ∈ lax ∨
        (c.isDigit = true → c = '0' ∧ ∀ d ∈ rest.head?, d.isDigit = false)) :
      Escape lax [c] (escaped c) rest
  | byte {digits rest : List Char} {code : Nat} (hcode : HexCode lax 2 digits code) :
      Escape lax ('x' :: digits) [charOfCode code] rest
  | braced {digits rest : List Char} (hdigits : HexDigits digits)
      (hbound : Digits.value 16 digits < Nat.pow 2 32)
      (hcode : .codeBeyond ∈ lax ∨ Digits.value 16 digits ≤ 0x10FFFF) :
      Escape lax ('u' :: '\x7b' :: (digits ++ ['\x7d'])) [charOfCode (Digits.value 16 digits)] rest
  | unit {digits rest : List Char} {code : Nat} (hcode : HexCode lax 4 digits code)
      (halone : isLeadSurrogate code = true → ¬ unitMark <+: rest) :
      Escape lax ('u' :: digits) [charOfCode code] rest
  | pair {digits digits' rest : List Char} {lead trail : Nat} (hlead : HexCode lax 4 digits lead)
      (hsurrogate : isLeadSurrogate lead = true) (htrail : HexCode lax 4 digits' trail) :
      Escape lax ('u' :: (digits ++ (unitMark ++ digits'))) [charOfCode (joinSurrogates lead trail)]
        rest

/-- What follows the opening quotation mark, and the characters of the string. -/
inductive StringText (lax : Set Laxity) (quote : Char) : List Char → List Char → Prop
  | close : StringText lax quote [quote] []
  | plain {c : Char} {text chars : List Char} (hplain : c ≠ quote ∧ c ≠ '\n' ∧ c ≠ '\\')
      (hreturn : .lineEnd ∈ lax ∨ c ≠ '\r') (htext : StringText lax quote text chars) :
      StringText lax quote (c :: text) (c :: chars)
  | escape {piece shown text chars : List Char} (hpiece : Escape lax piece shown text)
      (htext : StringText lax quote text chars) :
      StringText lax quote ('\\' :: (piece ++ text)) (shown ++ chars)

variable {lax : Set Laxity} {quote : Char} {text rest piece shown chars digits : List Char}
  {count code : Nat}

/-! ## Numbered escapes -/

theorem takeBytes_append (piece rest : List Char) :
    takeBytes (piece ++ rest) (Text.byteCount piece) = some (piece, rest) := by
  induction piece with
  | nil => simp [Text.byteCount, takeBytes]
  | cons c piece ih =>
      obtain ⟨left, hleft⟩ := Nat.exists_eq_add_of_lt c.utf8Size_pos
      have hcount : Text.byteCount (c :: piece) = left + Text.byteCount piece + 1 := by
        rw [Text.byteCount, hleft]
        omega
      have hsub : left + Text.byteCount piece + 1 - c.utf8Size = Text.byteCount piece := by omega
      rw [hcount, List.cons_append, takeBytes, if_pos (by omega), hsub, ih]
      rfl

theorem takeBytes_sound (h : takeBytes text count = some (piece, rest)) :
    text = piece ++ rest ∧ Text.byteCount piece = count := by
  induction text generalizing count piece with
  | nil =>
      cases count with
      | zero =>
          cases h
          exact ⟨rfl, rfl⟩
      | succ count => cases h
  | cons c text ih =>
      cases count with
      | zero =>
          cases h
          exact ⟨rfl, rfl⟩
      | succ count =>
          rw [takeBytes] at h
          split at h
          · obtain ⟨⟨taken, after⟩, htake, hpair⟩ := Option.map_eq_some_iff.1 h
            cases hpair
            obtain ⟨htext, hcount⟩ := ih htake
            refine ⟨by rw [htext, List.cons_append], ?_⟩
            rw [Text.byteCount, hcount]
            omega
          · cases h

theorem HexDigits.byteCount (h : HexDigits digits) : Text.byteCount digits = digits.length := by
  have hchars := h.chars
  clear h
  induction digits with
  | nil => rfl
  | cons c digits ih =>
      have hsize : c.utf8Size = 1 := by
        rw [Char.utf8Size_eq_one_iff, UInt32.le_iff_toNat_le]
        exact Nat.le_of_lt_succ (toNat_lt_of_isDigit (hchars c List.mem_cons_self))
      rw [Text.byteCount, ih fun d hd => hchars d (List.mem_cons_of_mem c hd), hsize,
        List.length_cons, Nat.add_comm]

theorem HexDigits.read? (h : HexDigits digits) :
    Digits.read? 16 digits = some (Digits.value 16 digits) :=
  read?_eq_some_iff.2 ⟨h.nonempty, h.chars, rfl⟩

/-- The digits behind a sign, if there is one. -/
def unsigned : List Char → List Char
  | '+' :: digits => digits
  | digits => digits

theorem eq_or_eq_plus_cons (piece : List Char) :
    piece = unsigned piece ∨ piece = '+' :: unsigned piece := by
  unfold unsigned
  split
  · exact .inr rfl
  · exact .inl rfl

theorem HexDigits.unsigned_eq (h : HexDigits digits) : unsigned digits = digits := by
  unfold unsigned
  split
  · exact absurd (h.chars '+' List.mem_cons_self) (by decide)
  · rfl

theorem hexDigits_eq (count : Nat) (text : List Char) :
    hexDigits count text = match takeBytes text count with
      | none => malformed text .escapeTruncated
      | some (piece, after) => match Digits.read? 16 (unsigned piece) with
        | some code => .ok (code, after)
        | none => malformed text .hexDigitsBad :=
  rfl

theorem hexDigits_eq_ok_iff :
    hexDigits count text = .ok (code, rest) ↔
      ∃ piece, text = piece ++ rest ∧ Text.byteCount piece = count ∧ HexDigits (unsigned piece) ∧
        code = Digits.value 16 (unsigned piece) := by
  rw [hexDigits_eq]
  constructor
  · intro h
    split at h
    · cases h
    · rename_i piece after htake
      obtain ⟨rfl, hcount⟩ := takeBytes_sound htake
      split at h
      · rename_i value hread
        obtain ⟨hnonempty, hchars, rfl⟩ := read?_eq_some_iff.1 hread
        cases h
        exact ⟨piece, rfl, hcount, ⟨hnonempty, hchars⟩, rfl⟩
      · cases h
  · rintro ⟨piece, rfl, rfl, hdigits, rfl⟩
    rw [takeBytes_append]
    dsimp only
    rw [hdigits.read?]

theorem hexDigits_complete (h : HexCode lax count digits code) (rest : List Char) :
    hexDigits count (digits ++ rest) = .ok (code, rest) := by
  cases h with
  | plain hdigits hlength =>
      refine hexDigits_eq_ok_iff.2 ⟨digits, rfl, hdigits.byteCount.trans hlength, ?_⟩
      rw [hdigits.unsigned_eq]
      exact ⟨hdigits, rfl⟩
  | @signed digits hdigits hlength hplus =>
      refine hexDigits_eq_ok_iff.2 ⟨'+' :: digits, rfl, ?_, hdigits, rfl⟩
      rw [Text.byteCount, hdigits.byteCount, ← hlength, Nat.add_comm]
      rfl

theorem hexDigits_sound (h : hexDigits count text = .ok (code, rest)) :
    ∃ digits, text = digits ++ rest ∧ HexCode .univ count digits code := by
  obtain ⟨piece, htext, hcount, hdigits, rfl⟩ := hexDigits_eq_ok_iff.1 h
  rcases eq_or_eq_plus_cons piece with hpiece | hpiece
  · refine ⟨unsigned piece, hpiece ▸ htext, .plain hdigits ?_⟩
    rw [← hdigits.byteCount, ← hpiece, hcount]
  · refine ⟨'+' :: unsigned piece, hpiece ▸ htext, .signed hdigits ?_ trivial⟩
    rw [hpiece, Text.byteCount, hdigits.byteCount, Nat.add_comm] at hcount
    exact hcount

theorem bracedCode_complete (h : HexDigits digits) (hbound : Digits.value 16 digits < Nat.pow 2 32)
    (rest : List Char) :
    bracedCode (digits ++ '\x7d' :: rest) = .ok (Digits.value 16 digits, rest) := by
  have hend : ∀ c ∈ ('\x7d' :: rest).head?, Digits.isDigit 16 c = false := by
    rintro c hc
    cases hc
    decide
  rw [bracedCode]
  simp only [Text.takeWhile_run h.chars hend, Text.dropWhile_run h.chars hend, h.read?, if_pos hbound]

theorem bracedCode_sound (h : bracedCode text = .ok (code, rest)) :
    ∃ digits, text = digits ++ '\x7d' :: rest ∧ HexDigits digits ∧
      Digits.value 16 digits < Nat.pow 2 32 ∧ code = Digits.value 16 digits := by
  unfold bracedCode at h
  split at h
  · rename_i after hafter
    dsimp only at h
    split at h
    · rename_i value hread
      obtain ⟨hnonempty, hchars, rfl⟩ := read?_eq_some_iff.1 hread
      split at h
      · rename_i hbound
        cases h
        refine ⟨_, ?_, ⟨hnonempty, hchars⟩, hbound, rfl⟩
        rw [← hafter, List.takeWhile_append_dropWhile]
      · cases h
    · cases h
  · cases h

/-- After the first code a second one is read only behind its mark and for a pair. -/
theorem unitCode_of_lead {lead : Nat} (hlead : hexDigits 4 text = .ok (lead, rest)) :
    unitCode text = if unitMark <+: rest ∧ isLeadSurrogate lead = true then
      (hexDigits 4 (rest.drop 2)).map fun second => (joinSurrogates lead second.1, second.2)
    else .ok (lead, rest) := by
  rw [unitCode, hlead]
  dsimp only [bind, Except.bind]
  split
  · rename_i after
    have hmark : unitMark <+: '\\' :: 'u' :: after := ⟨after, rfl⟩
    cases isLeadSurrogate lead with
    | true =>
        rw [if_pos rfl, if_pos ⟨hmark, rfl⟩]
        simp only [List.drop_succ_cons, List.drop_zero]
        cases hexDigits 4 after <;> rfl
    | false =>
        rw [if_neg Bool.false_ne_true, if_neg fun h => Bool.false_ne_true h.2]
        rfl
  · rename_i hmark
    rw [if_neg]
    · rfl
    · rintro ⟨⟨after, rfl⟩, -⟩
      exact hmark after rfl

theorem unitCode_alone (h : HexCode lax 4 digits code)
    (halone : isLeadSurrogate code = true → ¬ unitMark <+: rest) :
    unitCode (digits ++ rest) = .ok (code, rest) := by
  rw [unitCode_of_lead (hexDigits_complete h rest), if_neg fun hpair => halone hpair.2 hpair.1]

theorem unitCode_pair {digits' : List Char} {lead trail : Nat} (hlead : HexCode lax 4 digits lead)
    (hsurrogate : isLeadSurrogate lead = true) (htrail : HexCode lax 4 digits' trail)
    (rest : List Char) :
    unitCode (digits ++ (unitMark ++ (digits' ++ rest))) = .ok (joinSurrogates lead trail, rest) := by
  have hsecond : (unitMark ++ (digits' ++ rest)).drop 2 = digits' ++ rest := rfl
  rw [unitCode_of_lead (hexDigits_complete hlead _), if_pos ⟨List.prefix_append _ _, hsurrogate⟩,
    hsecond, hexDigits_complete htrail]
  rfl

theorem unitCode_sound (h : unitCode text = .ok (code, rest)) :
    (∃ digits, text = digits ++ rest ∧ HexCode .univ 4 digits code ∧
      (isLeadSurrogate code = true → ¬ unitMark <+: rest)) ∨
    ∃ digits digits' lead trail, text = digits ++ (unitMark ++ (digits' ++ rest)) ∧
      HexCode .univ 4 digits lead ∧ isLeadSurrogate lead = true ∧ HexCode .univ 4 digits' trail ∧
      code = joinSurrogates lead trail := by
  obtain ⟨⟨lead, after⟩, hlead, -⟩ := reading_bind_eq_ok.1 h
  obtain ⟨digits, rfl, hdigits⟩ := hexDigits_sound hlead
  rw [unitCode_of_lead hlead] at h
  split at h
  · rename_i hpair
    obtain ⟨⟨second, hsecond⟩, hsurrogate⟩ := hpair
    obtain ⟨⟨trail, final⟩, htrail, hcode⟩ := reading_map_eq_ok.1 h
    cases hcode
    subst hsecond
    obtain ⟨digits', rfl, hdigits'⟩ := hexDigits_sound htrail
    exact .inr ⟨digits, digits', lead, trail, rfl, hdigits, hsurrogate, hdigits', rfl⟩
  · rename_i hpair
    cases h
    exact .inl ⟨digits, rfl, hdigits, fun hsurrogate hmark => hpair ⟨hmark, hsurrogate⟩⟩

/-! ## Escapes -/

theorem escape_single {c : Char} (hmark : c ≠ 'x' ∧ c ≠ 'u') (rest : List Char) :
    escape (c :: rest) = .ok (escaped c, rest) := by
  unfold escape escaped
  split <;> simp_all

theorem HexCode.head_ne (h : HexCode lax 4 digits code) (rest : List Char) :
    ∀ c ∈ (digits ++ rest).head?, c ≠ '\x7b' := by
  rintro c hc rfl
  cases h with
  | plain hdigits _ =>
      obtain ⟨d, digits, rfl⟩ := List.exists_cons_of_ne_nil hdigits.nonempty
      cases hc
      exact absurd (hdigits.chars '\x7b' List.mem_cons_self) (by decide)
  | signed _ _ _ => cases hc

theorem escape_unit (h : ∀ c ∈ text.head?, c ≠ '\x7b') :
    escape ('u' :: text) = (unitCode text).map fun read => ([charOfCode read.1], read.2) := by
  rw [escape]
  · cases unitCode text <;> rfl
  · rintro after rfl
    exact h '\x7b' rfl rfl

theorem escape_complete (h : Escape lax piece shown rest) :
    escape (piece ++ rest) = .ok (shown, rest) := by
  cases h with
  | single hmark _ => exact escape_single hmark rest
  | byte hcode =>
      rw [List.cons_append, escape, hexDigits_complete hcode]
      rfl
  | braced hdigits hbound _ =>
      rw [List.cons_append, List.cons_append, List.append_assoc, escape, List.singleton_append,
        bracedCode_complete hdigits hbound]
      rfl
  | unit hcode halone =>
      rw [List.cons_append, escape_unit (hcode.head_ne rest), unitCode_alone hcode halone]
      rfl
  | pair hlead hsurrogate htrail =>
      rw [List.cons_append, List.append_assoc, List.append_assoc, escape_unit (hlead.head_ne _),
        unitCode_pair hlead hsurrogate htrail]
      rfl

theorem escape_unit_sound (h : escape ('u' :: text) = .ok (shown, rest)) :
    ∃ piece, 'u' :: text = piece ++ rest ∧ Escape .univ piece shown rest := by
  by_cases hbrace : ∃ c ∈ text.head?, c = '\x7b'
  · obtain ⟨c, hhead, rfl⟩ := hbrace
    obtain ⟨after, rfl⟩ := List.head?_eq_some_iff.1 hhead
    rw [escape] at h
    obtain ⟨⟨code, final⟩, hread, hshown⟩ := reading_bind_eq_ok.1 h
    cases hshown
    obtain ⟨digits, rfl, hdigits, hbound, rfl⟩ := bracedCode_sound hread
    exact ⟨_, by simp, .braced hdigits hbound (.inl trivial)⟩
  · rw [escape_unit fun c hc heq => hbrace ⟨c, hc, heq⟩] at h
    obtain ⟨⟨code, final⟩, hread, hshown⟩ := reading_map_eq_ok.1 h
    cases hshown
    rcases unitCode_sound hread with ⟨digits, rfl, hcode, halone⟩ |
      ⟨digits, digits', lead, trail, rfl, hlead, hsurrogate, htrail, rfl⟩
    · exact ⟨_, rfl, .unit hcode halone⟩
    · exact ⟨_, by simp, .pair hlead hsurrogate htrail⟩

theorem escape_sound (h : escape text = .ok (shown, rest)) :
    ∃ piece, text = piece ++ rest ∧ Escape .univ piece shown rest := by
  cases text with
  | nil => cases h
  | cons c text =>
      by_cases hu : c = 'u'
      · subst hu
        exact escape_unit_sound h
      by_cases hx : c = 'x'
      · subst hx
        rw [escape] at h
        obtain ⟨⟨code, after⟩, hread, hshown⟩ := reading_bind_eq_ok.1 h
        cases hshown
        obtain ⟨digits, rfl, hcode⟩ := hexDigits_sound hread
        exact ⟨_, rfl, .byte hcode⟩
      · rw [escape_single ⟨hx, hu⟩] at h
        cases h
        exact ⟨[c], rfl, .single ⟨hx, hu⟩ (.inl trivial)⟩

/-! ## Strings -/

/-- An escape looks ahead for a digit and for the mark of a second code only. -/
theorem Escape.of_lookahead {rest' : List Char} (h : Escape lax piece shown rest)
    (hhead : rest'.head? = rest.head?) (hmark : unitMark <+: rest' → unitMark <+: rest) :
    Escape lax piece shown rest' := by
  cases h with
  | single hne hdigit => exact .single hne (by rw [hhead]; exact hdigit)
  | byte hcode => exact .byte hcode
  | braced hdigits hbound hcode => exact .braced hdigits hbound hcode
  | unit hcode halone => exact .unit hcode fun hlead hprefix => halone hlead (hmark hprefix)
  | pair hlead hsurrogate htrail => exact .pair hlead hsurrogate htrail

theorem StringText.head?_append (h : StringText lax quote text chars) (rest : List Char) :
    (text ++ rest).head? = text.head? := by
  cases h <;> rfl

/-- What follows a string does not make the mark of a second code of how it begins. -/
theorem StringText.mark_prefix (h : StringText lax quote text chars) (hquote : quote ≠ '\\')
    (hmark : unitMark <+: text ++ rest) : unitMark <+: text := by
  cases h with
  | close => exact absurd (List.cons_prefix_cons.1 hmark).1.symm hquote
  | plain hplain _ _ => exact absurd (List.cons_prefix_cons.1 hmark).1.symm hplain.2.2
  | @escape piece _ text _ hpiece _ =>
      obtain ⟨c, piece, rfl⟩ : ∃ c after, piece = c :: after := by
        cases hpiece <;> exact ⟨_, _, rfl⟩
      have hnext := (List.cons_prefix_cons.1 (List.cons_prefix_cons.1 hmark).2).1
      exact List.cons_prefix_cons.2 ⟨rfl, List.cons_prefix_cons.2 ⟨hnext, List.nil_prefix⟩⟩

theorem stringBody_complete (h : StringText lax quote text chars) (hquote : quote ≠ '\\')
    {fuel : Nat} (hfuel : text.length ≤ fuel) (rest : List Char) :
    stringBody quote fuel (text ++ rest) = .ok (chars, rest) := by
  induction h generalizing fuel with
  | close =>
      obtain ⟨fuel, rfl⟩ : ∃ k, fuel = k + 1 := Nat.exists_eq_add_of_le' hfuel
      rw [List.singleton_append, stringBody, if_pos rfl]
  | plain hplain _ _ ih =>
      obtain ⟨fuel, rfl⟩ := Nat.exists_eq_add_of_le' (Nat.le_trans (Nat.le_add_left 1 _) hfuel)
      rw [List.cons_append, stringBody, if_neg hplain.1, if_neg hplain.2.1, if_neg hplain.2.2,
        ih (Nat.le_of_succ_le_succ hfuel)]
      rfl
  | @escape piece shown text chars hpiece htext ih =>
      obtain ⟨fuel, rfl⟩ := Nat.exists_eq_add_of_le' (Nat.le_trans (Nat.le_add_left 1 _) hfuel)
      have hread := escape_complete
        (hpiece.of_lookahead (htext.head?_append rest) (htext.mark_prefix hquote))
      have hlength : text.length ≤ fuel := by
        rw [List.length_cons, List.length_append] at hfuel
        omega
      rw [List.cons_append, List.append_assoc, stringBody, if_neg hquote.symm, if_neg (by decide),
        if_pos rfl, hread]
      change (stringBody quote fuel (text ++ rest) >>= fun read => _) = _
      rw [ih hlength]
      rfl

theorem stringBody_sound {fuel : Nat} (h : stringBody quote fuel text = .ok (chars, rest)) :
    ∃ piece, text = piece ++ rest ∧ StringText .univ quote piece chars := by
  induction fuel generalizing text chars with
  | zero => cases h
  | succ fuel ih =>
      cases text with
      | nil => cases h
      | cons c text =>
          rw [stringBody] at h
          split at h
          · rename_i hclose
            cases h
            exact ⟨[c], rfl, hclose ▸ .close⟩
          rename_i hclose
          split at h
          · cases h
          rename_i hbreak
          split at h
          · rename_i hescape
            obtain ⟨⟨shown, after⟩, hread, hrest⟩ := reading_bind_eq_ok.1 h
            obtain ⟨⟨body, final⟩, hbody, hpair⟩ := reading_bind_eq_ok.1 hrest
            cases hpair
            obtain ⟨piece, rfl, hpiece⟩ := escape_sound hread
            obtain ⟨string, rfl, hstring⟩ := ih hbody
            have hpiece := hpiece.of_lookahead (hstring.head?_append rest).symm
              fun hmark => hmark.trans (List.prefix_append string rest)
            refine ⟨'\\' :: (piece ++ string), ?_, .escape hpiece hstring⟩
            rw [hescape, List.cons_append, List.append_assoc]
          · rename_i hplain
            obtain ⟨⟨body, final⟩, hbody, hpair⟩ := reading_bind_eq_ok.1 h
            cases hpair
            obtain ⟨string, rfl, hstring⟩ := ih hbody
            exact ⟨c :: string, rfl, .plain ⟨hclose, hbreak, hplain⟩ (.inl trivial) hstring⟩

theorem string_complete (h : StringText lax quote text chars) (hquote : quote ≠ '\\')
    (rest : List Char) : string quote (text ++ rest) = .ok (String.ofList chars, rest) := by
  have hfuel : text.length ≤ (text ++ rest).length + 1 := by
    rw [List.length_append]
    omega
  rw [string, stringBody_complete h hquote hfuel]
  rfl

theorem string_sound {s : String} (h : string quote text = .ok (s, rest)) :
    ∃ piece chars, text = piece ++ rest ∧ StringText .univ quote piece chars ∧
      s = String.ofList chars := by
  obtain ⟨⟨chars, after⟩, hbody, hs⟩ := reading_bind_eq_ok.1 h
  cases hs
  obtain ⟨piece, htext, hpiece⟩ := stringBody_sound hbody
  exact ⟨piece, chars, htext, hpiece, rfl⟩

end TypeSchema.Literal
