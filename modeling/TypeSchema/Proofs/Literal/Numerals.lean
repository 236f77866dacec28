import TypeSchema.Literal.Numerals
import TypeSchema.Proofs.Literal.Trivia
import TypeSchema.Text.Split

/-!
# Spelling of numbers

The grammar of numerals, each with the number that it stands for.  A numeral is read wherever
nothing follows that it could go on with, and whatever is read as a number is a numeral.
-/

namespace TypeSchema.Literal

/-! ## The grammar -/

/-- Every underscore stands between two digits. -/
def Separated (digits : List Char) : Prop :=
  ∀ before after, digits = before ++ '_' :: after →
    (∃ c ∈ before.getLast?, c ≠ '_') ∧ ∃ c ∈ after.head?, c ≠ '_'

/-- Digits of a base with underscores among them. -/
structure DigitGroup (lax : Set Laxity) (base : Nat) (digits : List Char) : Prop where
  chars : ∀ c ∈ digits, Digits.isDigit base c = true ∨ c = '_'
  separated : .separator ∈ lax ∨ Separated digits

def baseOf? : Char → Option Nat
  | 'x' | 'X' => some 16
  | 'o' | 'O' => some 8
  | 'b' | 'B' => some 2
  | _ => none

/-- The parts of a decimal numeral as they are written. -/
structure DecimalParts where
  whole : List Char
  /-- What stands behind the point, if there is a point. -/
  fraction : Option (List Char)
  exponent : Option Exponent

structure Exponent.WellFormed (e : Exponent) : Prop where
  mark : e.mark = 'e' ∨ e.mark = 'E'
  sign : e.sign = [] ∨ e.sign = ['+'] ∨ e.sign = ['-']
  nonempty : e.digits ≠ []
  digits : ∀ c ∈ e.digits, c.isDigit = true

namespace DecimalParts

def fractionText (d : DecimalParts) : List Char := (d.fraction.map ('.' :: ·)).getD []

def exponentText (d : DecimalParts) : List Char := (d.exponent.map (·.text)).getD []

def text (d : DecimalParts) : List Char := d.whole ++ (d.fractionText ++ d.exponentText)

def fractionDigits (d : DecimalParts) : List Char := (d.fraction.map dropUnderscores).getD []

structure WellFormed (lax : Set Laxity) (d : DecimalParts) : Prop where
  whole : DigitGroup lax 10 d.whole
  beginning : d.whole.head? ≠ some '_'
  noLeadingZero : .leadingZero ∈ lax ∨ (d.whole.head? = some '0' → d.whole = ['0'])
  fraction : ∀ digits ∈ d.fraction, DigitGroup lax 10 digits
  exponent : ∀ e ∈ d.exponent, e.WellFormed
  nonempty : dropUnderscores d.whole ++ d.fractionDigits ≠ []

/-- The number for which the parts stand: an integer of 63 bits if there is but a whole part, or
else the nearest real number, if it is finite. -/
def number? (d : DecimalParts) : Option Number :=
  let whole := dropUnderscores d.whole
  if d.fraction.isNone && d.exponent.isNone && Digits.value 10 whole < Nat.pow 2 63 then
    some (.int (Digits.value 10 whole))
  else
    let power := (d.exponent.map (·.power)).getD 0 - d.fractionDigits.length
    (Binary64.ofDecimal false (Digits.value 10 (whole ++ d.fractionDigits)) power).map .real

end DecimalParts

inductive Numeral (lax : Set Laxity) : List Char → Number → Prop
  | based {mark : Char} {base : Nat} {digits : List Char} (hbase : baseOf? mark = some base)
      (hdigits : DigitGroup lax base digits) (hnonempty : dropUnderscores digits ≠ [])
      (hbound : Digits.value base (dropUnderscores digits) < Nat.pow 2 64) :
      Numeral lax ('0' :: mark :: digits) (.int (Digits.value base (dropUnderscores digits)))
  | decimal {d : DecimalParts} {n : Number} (hparts : d.WellFormed lax)
      (hnumber : d.number? = some n) : Numeral lax d.text n

variable {lax : Set Laxity} {text rest digits : List Char} {base : Nat} {n : Number}

theorem separated_of_not_mem (h : '_' ∉ digits) : Separated digits := by
  rintro before after rfl
  exact absurd (List.mem_append_right before List.mem_cons_self) h

/-! ## Digits and names -/

theorem toNat_lt_of_isDigit {c : Char} (h : Digits.isDigit 16 c = true) : c.toNat < 128 := by
  have hle {d : Char} (hd : c ≤ d) : c.toNat ≤ d.toNat := by
    simpa [Char.le_def, UInt32.le_iff_toNat_le] using hd
  rw [Digits.isDigit, decide_eq_true_eq, Digits.digitValue] at h
  split at h
  · rename_i hdigit
    exact Nat.lt_of_le_of_lt (hle hdigit.2) (by decide)
  · split at h
    · rename_i hsmall
      exact Nat.lt_of_le_of_lt (hle hsmall.2) (by decide)
    · split at h
      · rename_i hcapital
        exact Nat.lt_of_le_of_lt (hle hcapital.2) (by decide)
      · omega

theorem isNameChar_of_isDigit {c : Char} (h : Digits.isDigit 16 c = true) :
    isNameChar c = true := by
  have hall : ∀ n, n < 128 → Digits.isDigit 16 (Char.ofNat n) = true →
      isNameChar (Char.ofNat n) = true := by decide
  have hchar := hall c.toNat (toNat_lt_of_isDigit h)
  rw [Char.ofNat_toNat] at hchar
  exact hchar h

theorem isDigit_sixteen {c : Char} (h : Digits.isDigit base c = true) (hbase : base ≤ 16) :
    Digits.isDigit 16 c = true := by
  rw [Digits.isDigit, decide_eq_true_eq] at h ⊢
  exact Nat.lt_of_lt_of_le h hbase

theorem Stops.head_ne {d : Char} (h : Stops rest) (hd : isNameChar d = true ∨ d = '.') :
    ∀ c ∈ rest.head?, c ≠ d := by
  rintro c hc rfl
  obtain ⟨hname, hpoint⟩ := h c hc
  rcases hd with hd | hd
  · rw [hname] at hd
    cases hd
  · exact hpoint hd

/-! ## Numbers in a base -/

theorem read?_eq_some_iff {digits : List Char} {value : Nat} :
    Digits.read? base digits = some value ↔
      digits ≠ [] ∧ (∀ c ∈ digits, Digits.isDigit base c = true) ∧
        value = Digits.value base digits := by
  rw [Digits.read?]
  by_cases h : digits ≠ [] ∧ ∀ c ∈ digits, Digits.isDigit base c = true
  · rw [if_pos (by simpa using h), Option.some.injEq]
    exact ⟨fun heq => ⟨h.1, h.2, heq.symm⟩, fun heq => heq.2.2.symm⟩
  · rw [if_neg (by simpa using h)]
    exact ⟨nofun, fun heq => absurd ⟨heq.1, heq.2.1⟩ h⟩

theorem mem_dropUnderscores {c : Char} : c ∈ dropUnderscores digits ↔ c ∈ digits ∧ c ≠ '_' := by
  simp [dropUnderscores]

theorem DigitGroup.read? (h : DigitGroup lax base digits) (hnonempty : dropUnderscores digits ≠ []) :
    Digits.read? base (dropUnderscores digits) =
      some (Digits.value base (dropUnderscores digits)) := by
  refine read?_eq_some_iff.2 ⟨hnonempty, fun c hc => ?_, rfl⟩
  obtain ⟨hmem, hne⟩ := mem_dropUnderscores.1 hc
  exact (h.chars c hmem).resolve_right hne

theorem endsNumber_of_stops (h : Stops rest) : endsNumber rest = true := by
  cases rest with
  | nil => rfl
  | cons c rest => rw [endsNumber, (h c rfl).1, Bool.not_false]

theorem radixNumber_complete (hbase : base ≤ 16) (hdigits : DigitGroup lax base digits)
    (hnonempty : dropUnderscores digits ≠ [])
    (hbound : Digits.value base (dropUnderscores digits) < Nat.pow 2 64) (hrest : Stops rest) :
    radixNumber base (digits ++ rest) =
      .ok (.int (Digits.value base (dropUnderscores digits)), rest) := by
  have hrun : ∀ c ∈ digits, (Digits.isDigit 16 c || c == '_') = true := by
    intro c hc
    rcases hdigits.chars c hc with hdigit | rfl
    · rw [isDigit_sixteen hdigit hbase, Bool.true_or]
    · rfl
  have hend : ∀ c ∈ rest.head?, (Digits.isDigit 16 c || c == '_') = false := by
    intro c hc
    rw [Bool.or_eq_false_iff, beq_eq_false_iff_ne]
    refine ⟨Bool.eq_false_iff.2 fun hdigit => ?_, hrest.head_ne (.inl rfl) c hc⟩
    have hname := (hrest c hc).1
    rw [isNameChar_of_isDigit hdigit] at hname
    cases hname
  rw [radixNumber]
  simp only [Text.takeWhile_run hrun hend, Text.dropWhile_run hrun hend, hdigits.read? hnonempty,
    if_neg (Nat.not_le.2 hbound), endsNumber_of_stops hrest, if_pos]

theorem radixNumber_sound (h : radixNumber base text = .ok (n, rest)) :
    ∃ digits, text = digits ++ rest ∧ DigitGroup .univ base digits ∧
      dropUnderscores digits ≠ [] ∧
      Digits.value base (dropUnderscores digits) < Nat.pow 2 64 ∧
      n = .int (Digits.value base (dropUnderscores digits)) := by
  rw [radixNumber] at h
  split at h
  · rename_i value hread
    obtain ⟨hnonempty, hchars, rfl⟩ := read?_eq_some_iff.1 hread
    split at h
    · cases h
    · rename_i hbound
      split at h
      · cases h
        refine ⟨_, List.takeWhile_append_dropWhile.symm, ⟨fun c hc => ?_, .inl trivial⟩, hnonempty,
          Nat.not_le.1 hbound, rfl⟩
        by_cases hunderscore : c = '_'
        · exact .inr hunderscore
        · exact .inl (hchars c (mem_dropUnderscores.2 ⟨hc, hunderscore⟩))
      · cases h
  · cases h

theorem radix?_eq_some_iff {after : List Char} :
    radix? text = some (base, after) ↔ ∃ mark, text = '0' :: mark :: after ∧ baseOf? mark = some base := by
  constructor
  · intro h
    unfold radix? at h
    split at h <;> cases h <;> exact ⟨_, rfl, rfl⟩
  · rintro ⟨mark, rfl, hmark⟩
    unfold baseOf? at hmark
    split at hmark <;> cases hmark <;> rfl

/-! ## Decimal numbers -/

theorem isDigitPart_iff {c : Char} :
    isDigitPart c = true ↔ Digits.isDigit 10 c = true ∨ c = '_' := by
  rw [isDigitPart, Digits.isDigit_ten, Bool.or_eq_true, beq_iff_eq]

theorem isNameChar_of_isDigitPart {c : Char} (h : isDigitPart c = true) : isNameChar c = true := by
  rcases isDigitPart_iff.1 h with hdigit | rfl
  · exact isNameChar_of_isDigit (isDigit_sixteen hdigit (by omega))
  · rfl

theorem Stops.not_isDigitPart (h : Stops rest) : ∀ c ∈ rest.head?, isDigitPart c = false := by
  intro c hc
  rw [Bool.eq_false_iff]
  intro hpart
  have hname := (h c hc).1
  rw [isNameChar_of_isDigitPart hpart] at hname
  cases hname

theorem isDigitPart_of_isDigit {c : Char} (h : c.isDigit = true) : isDigitPart c = true := by
  rw [isDigitPart, h, Bool.true_or]

/-- A sign that is not followed by a second one, or none. -/
structure SignedBy (sign rest : List Char) : Prop where
  form : sign = [] ∨ sign = ['+'] ∨ sign = ['-']
  unsigned : sign = [] → ∀ c ∈ rest.head?, c ≠ '+' ∧ c ≠ '-'

theorem exists_signedBy (text : List Char) : ∃ sign rest, text = sign ++ rest ∧ SignedBy sign rest := by
  by_cases h : ∃ c ∈ text.head?, c = '+' ∨ c = '-'
  · obtain ⟨c, hc, hsign⟩ := h
    obtain ⟨rest, rfl⟩ := List.head?_eq_some_iff.1 hc
    refine ⟨[c], rest, rfl, .inr ?_, nofun⟩
    rcases hsign with rfl | rfl
    · exact .inl rfl
    · exact .inr rfl
  · refine ⟨[], text, rfl, .inl rfl, fun _ c hc => ?_⟩
    rw [← not_or]
    exact fun hsign => h ⟨c, hc, hsign⟩

theorem exponentPart_signed {mark : Char} (hmark : mark = 'e' ∨ mark = 'E') {sign : List Char}
    (h : SignedBy sign rest) :
    exponentPart (mark :: (sign ++ rest)) =
      (some ⟨mark, sign, rest.takeWhile Char.isDigit⟩, rest.dropWhile Char.isDigit) := by
  simp only [exponentPart.eq_def, if_pos hmark]
  rcases h.form with rfl | rfl | rfl
  · have hne := h.unsigned rfl
    rw [List.nil_append]
    split
    · exact absurd rfl (hne '+' rfl).1
    · exact absurd rfl (hne '-' rfl).2
    · rfl
  · rfl
  · rfl

theorem exponentPart_unmarked (h : ∀ c ∈ text.head?, ¬ (c = 'e' ∨ c = 'E')) :
    exponentPart text = (none, text) := by
  cases text with
  | nil => rfl
  | cons c text => simp only [exponentPart.eq_def, if_neg (h c rfl)]

theorem exponentPart_complete {exponent : Option Exponent} (h : ∀ e ∈ exponent, e.WellFormed)
    (hrest : Stops rest) :
    exponentPart ((exponent.map (·.text)).getD [] ++ rest) = (exponent, rest) := by
  cases exponent with
  | none =>
      refine exponentPart_unmarked fun c hc hmark => ?_
      have hname := (hrest c hc).1
      rcases hmark with rfl | rfl <;> revert hname <;> decide
  | some e =>
      obtain ⟨mark, sign, digits⟩ := e
      obtain ⟨hmark, hsign, hnonempty, hdigits⟩ := h _ rfl
      have hsigned : SignedBy sign (digits ++ rest) := by
        refine ⟨hsign, fun _ c hc => ?_⟩
        obtain ⟨first, digits, rfl⟩ := List.exists_cons_of_ne_nil hnonempty
        cases hc
        have hdigit := hdigits c List.mem_cons_self
        constructor <;> rintro rfl <;> revert hdigit <;> decide
      have hend : ∀ c ∈ rest.head?, c.isDigit = false := fun c hc => by
        have hpart := hrest.not_isDigitPart c hc
        rw [isDigitPart, Bool.or_eq_false_iff] at hpart
        exact hpart.1
      have hread := exponentPart_signed hmark hsigned
      rw [Text.takeWhile_run hdigits hend, Text.dropWhile_run hdigits hend] at hread
      simpa [Exponent.text] using hread

theorem exponentPart_sound {exponent : Option Exponent} (h : exponentPart text = (exponent, rest)) :
    text = (exponent.map (·.text)).getD [] ++ rest ∧
      ∀ e ∈ exponent, e.digits ≠ [] → e.WellFormed := by
  by_cases hmark : ∃ c ∈ text.head?, c = 'e' ∨ c = 'E'
  · obtain ⟨mark, hhead, hmark⟩ := hmark
    obtain ⟨after, rfl⟩ := List.head?_eq_some_iff.1 hhead
    obtain ⟨sign, digits, rfl, hsigned⟩ := exists_signedBy after
    rw [exponentPart_signed hmark hsigned] at h
    cases h
    refine ⟨by simp [Exponent.text], fun e he hnonempty => ?_⟩
    cases he
    exact ⟨hmark, hsigned.form, hnonempty, List.all_eq_true.1 List.all_takeWhile⟩
  · rw [exponentPart_unmarked fun c hc h => hmark ⟨c, hc, h⟩] at h
    cases h
    exact ⟨rfl, nofun⟩

theorem fractionPart_complete {fraction : Option (List Char)}
    (h : ∀ digits ∈ fraction, ∀ c ∈ digits, isDigitPart c = true)
    (hrest : ∀ c ∈ rest.head?, isDigitPart c = false ∧ c ≠ '.') :
    fractionPart ((fraction.map ('.' :: ·)).getD [] ++ rest) =
      (fraction.map dropUnderscores, rest) := by
  cases fraction with
  | none =>
      rw [Option.map_none, Option.getD_none, List.nil_append]
      unfold fractionPart
      split
      · exact absurd rfl (hrest '.' rfl).2
      · rfl
  | some digits =>
      have hend : ∀ c ∈ rest.head?, isDigitPart c = false := fun c hc => (hrest c hc).1
      rw [Option.map_some, Option.getD_some, List.cons_append, fractionPart,
        Text.takeWhile_run (h digits rfl) hend, Text.dropWhile_run (h digits rfl) hend, Option.map_some]

theorem fractionPart_sound {written : Option (List Char)} (h : fractionPart text = (written, rest)) :
    ∃ fraction : Option (List Char), written = fraction.map dropUnderscores ∧
      text = (fraction.map ('.' :: ·)).getD [] ++ rest ∧
      ∀ digits ∈ fraction, ∀ c ∈ digits, isDigitPart c = true := by
  unfold fractionPart at h
  split at h
  · rename_i after
    cases h
    refine ⟨some (after.takeWhile isDigitPart), rfl, by simp, fun digits hdigits => ?_⟩
    cases hdigits
    exact List.all_eq_true.1 List.all_takeWhile
  · cases h
    exact ⟨none, rfl, rfl, nofun⟩

/-- What a decimal number must have to stand for anything. -/
theorem decimalValue_eq_ok_iff {d : DecimalParts} :
    decimalValue (dropUnderscores d.whole) (d.fraction.map dropUnderscores) d.exponent rest = .ok n ↔
      dropUnderscores d.whole ++ d.fractionDigits ≠ [] ∧ (∀ e ∈ d.exponent, e.digits ≠ []) ∧
        d.number? = some n := by
  have hwrong : ((dropUnderscores d.whole ++ d.fractionDigits).isEmpty ||
      d.exponent.any (·.digits.isEmpty)) = false ↔
      dropUnderscores d.whole ++ d.fractionDigits ≠ [] ∧ ∀ e ∈ d.exponent, e.digits ≠ [] := by
    simp [Option.any_eq_false]
  rw [← and_assoc, ← hwrong]
  have hdigits : (d.fraction.map dropUnderscores).getD [] = d.fractionDigits := rfl
  rw [decimalValue, DecimalParts.number?, Option.isNone_map, hdigits]
  dsimp only
  cases ((dropUnderscores d.whole ++ d.fractionDigits).isEmpty ||
      d.exponent.any (·.digits.isEmpty)) with
  | true => simp
  | false =>
      rw [Bool.not_false, Bool.and_true, if_neg Bool.false_ne_true]
      split
      · simp
      · cases Binary64.ofDecimal false _ _ <;> simp

/-! ## Numerals -/

theorem DigitGroup.digitParts (h : DigitGroup lax 10 digits) : ∀ c ∈ digits, isDigitPart c = true :=
  fun c hc => isDigitPart_iff.2 (h.chars c hc)

theorem DigitGroup.of_digitParts (h : ∀ c ∈ digits, isDigitPart c = true) :
    DigitGroup .univ 10 digits := ⟨fun c hc => isDigitPart_iff.1 (h c hc), .inl trivial⟩

theorem of_baseOf?_eq_some {mark : Char} (h : baseOf? mark = some base) :
    base ≤ 16 ∧ isDigitPart mark = false ∧ isNameChar mark = true := by
  unfold baseOf? at h
  split at h <;> cases h <;> decide

namespace DecimalParts

variable {d : DecimalParts}

/-- What may follow a fraction ends it, and is no mark of a base. -/
theorem WellFormed.ends_fraction (h : d.WellFormed lax) (hrest : Stops rest) :
    ∀ c ∈ (d.exponentText ++ rest).head?,
      (isDigitPart c = false ∧ c ≠ '.') ∧ baseOf? c = none := by
  intro c hc
  rw [exponentText] at hc
  cases hexponent : d.exponent with
  | none =>
      rw [hexponent] at hc
      refine ⟨⟨hrest.not_isDigitPart c hc, (hrest c hc).2⟩, ?_⟩
      cases hbase : baseOf? c with
      | none => rfl
      | some base =>
          have hname := (of_baseOf?_eq_some hbase).2.2
          rw [(hrest c hc).1] at hname
          cases hname
  | some e =>
      rw [hexponent] at hc
      cases hc
      rcases (h.exponent e hexponent).mark with hmark | hmark <;> rw [hmark] <;> decide

theorem WellFormed.ends_whole (h : d.WellFormed lax) (hrest : Stops rest) :
    ∀ c ∈ (d.fractionText ++ (d.exponentText ++ rest)).head?,
      isDigitPart c = false ∧ baseOf? c = none := by
  intro c hc
  rw [fractionText] at hc
  cases hfraction : d.fraction with
  | none =>
      rw [hfraction] at hc
      obtain ⟨⟨hpart, -⟩, hbase⟩ := h.ends_fraction hrest c hc
      exact ⟨hpart, hbase⟩
  | some digits =>
      rw [hfraction] at hc
      cases hc
      exact ⟨rfl, rfl⟩

theorem WellFormed.exists_cons (h : d.WellFormed lax) :
    (∃ c whole, d.whole = c :: whole ∧ c.isDigit = true) ∨
      d.whole = [] ∧ ∃ digits, d.fraction = some digits := by
  cases hwhole : d.whole with
  | nil =>
      refine .inr ⟨rfl, Option.ne_none_iff_exists'.1 fun hfraction => h.nonempty ?_⟩
      rw [hwhole, fractionDigits, hfraction]
      rfl
  | cons c whole =>
      have hchar := h.whole.chars c (by rw [hwhole]; exact List.mem_cons_self)
      rw [Digits.isDigit_ten] at hchar
      have hne : c ≠ '_' := by
        rintro rfl
        exact h.beginning (by rw [hwhole]; rfl)
      exact .inl ⟨c, whole, rfl, hchar.resolve_right hne⟩

theorem WellFormed.radix? (h : d.WellFormed lax) (hrest : Stops rest) :
    radix? (d.text ++ rest) = none := by
  rw [Option.eq_none_iff_forall_ne_some]
  rintro ⟨base, after⟩ hradix
  obtain ⟨mark, htext, hmark⟩ := radix?_eq_some_iff.1 hradix
  rw [text, List.append_assoc, List.append_assoc] at htext
  rcases h.exists_cons with ⟨c, whole, hwhole, -⟩ | ⟨hwhole, digits, hfraction⟩
  · rw [hwhole, List.cons_append, List.cons.injEq] at htext
    cases whole with
    | nil =>
        have hhead : mark ∈ (d.fractionText ++ (d.exponentText ++ rest)).head? := by
          rw [← List.nil_append (d.fractionText ++ (d.exponentText ++ rest)), htext.2]
          rfl
        rw [(h.ends_whole hrest mark hhead).2] at hmark
        cases hmark
    | cons d whole =>
        rw [List.cons_append, List.cons.injEq] at htext
        have hpart := h.whole.digitParts d (by rw [hwhole]; simp)
        rw [htext.2.1, (of_baseOf?_eq_some hmark).2.1] at hpart
        cases hpart
  · rw [hwhole, fractionText, hfraction] at htext
    simp at htext

theorem WellFormed.decimalNumber (h : d.WellFormed lax) (hnumber : d.number? = some n)
    (hrest : Stops rest) : decimalNumber (d.text ++ rest) = .ok (n, rest) := by
  have hends := fun c hc => (h.ends_whole hrest c hc).1
  have hfraction := fractionPart_complete (fun digits hdigits => (h.fraction digits hdigits).digitParts)
    fun c hc => (h.ends_fraction hrest c hc).1
  have hexponent := exponentPart_complete h.exponent hrest
  have hvalue : decimalValue _ _ _ rest = .ok n :=
    decimalValue_eq_ok_iff.2 ⟨h.nonempty, fun e he => (h.exponent e he).nonempty, hnumber⟩
  rw [← fractionText] at hfraction
  rw [← exponentText] at hexponent
  rw [text, List.append_assoc, List.append_assoc, Literal.decimalNumber,
    Text.takeWhile_run h.whole.digitParts hends, Text.dropWhile_run h.whole.digitParts hends, hfraction]
  simp only [hexponent, endsNumber_of_stops hrest, if_pos, hvalue]
  rfl

end DecimalParts

/-- A numeral begins with a digit or a point. -/
theorem Numeral.exists_cons (h : Numeral lax text n) :
    ∃ c rest, text = c :: rest ∧ (c.isDigit || c == '.') = true := by
  cases h with
  | based _ _ _ _ => exact ⟨'0', _, rfl, rfl⟩
  | @decimal d _ hparts _ =>
      rw [DecimalParts.text]
      rcases hparts.exists_cons with ⟨c, whole, hwhole, hdigit⟩ | ⟨hwhole, digits, hfraction⟩
      · exact ⟨c, _, by rw [hwhole]; rfl, by rw [hdigit]; rfl⟩
      · exact ⟨'.', _, by rw [hwhole, DecimalParts.fractionText, hfraction]; rfl, rfl⟩

theorem number_complete (h : Numeral lax text n) (hrest : Stops rest) :
    number (text ++ rest) = .ok (n, rest) := by
  cases h with
  | @based mark base digits hbase hdigits hnonempty hbound =>
      have hradix : radix? ('0' :: mark :: (digits ++ rest)) = some (base, digits ++ rest) :=
        radix?_eq_some_iff.2 ⟨mark, rfl, hbase⟩
      rw [List.cons_append, List.cons_append, number, hradix]
      exact radixNumber_complete (of_baseOf?_eq_some hbase).1 hdigits hnonempty hbound hrest
  | decimal hparts hnumber =>
      rw [number, hparts.radix? hrest]
      exact hparts.decimalNumber hnumber hrest

theorem decimalNumber_sound (hhead : ∃ c ∈ text.head?, (c.isDigit || c == '.') = true)
    (h : decimalNumber text = .ok (n, rest)) :
    ∃ piece, text = piece ++ rest ∧ Numeral .univ piece n := by
  unfold decimalNumber at h
  have hwhole : ∀ c ∈ text.takeWhile isDigitPart, isDigitPart c = true :=
    List.all_eq_true.1 List.all_takeWhile
  have hbeginning : (text.takeWhile isDigitPart).head? ≠ some '_' := by
    obtain ⟨c, hc, hfirst⟩ := hhead
    obtain ⟨after, rfl⟩ := List.head?_eq_some_iff.1 hc
    rw [List.takeWhile_cons]
    split
    · rintro hunderscore
      cases hunderscore
      exact absurd hfirst (by decide)
    · nofun
  obtain ⟨⟨written, afterFraction⟩, hfraction⟩ : ∃ p, fractionPart (text.dropWhile isDigitPart) = p :=
    ⟨_, rfl⟩
  obtain ⟨⟨exponent, afterExponent⟩, hexponent⟩ : ∃ p, exponentPart afterFraction = p := ⟨_, rfl⟩
  obtain ⟨fraction, rfl, hfractionText, hfractionDigits⟩ := fractionPart_sound hfraction
  obtain ⟨hexponentText, hexponentDigits⟩ := exponentPart_sound hexponent
  simp only [hfraction, hexponent] at h
  split at h
  · obtain ⟨m, hvalue, hpair⟩ := reading_map_eq_ok.1 h
    cases hpair
    let d : DecimalParts := ⟨text.takeWhile isDigitPart, fraction, exponent⟩
    have htext : text = d.text ++ rest := by
      rw [DecimalParts.text, DecimalParts.fractionText, DecimalParts.exponentText,
        List.append_assoc, List.append_assoc, ← hexponentText, ← hfractionText,
        List.takeWhile_append_dropWhile]
    obtain ⟨hnonempty, hdigits, hnumber⟩ := (decimalValue_eq_ok_iff (d := d)).1 hvalue
    have hparts : d.WellFormed .univ :=
      { whole := .of_digitParts hwhole
        beginning := hbeginning
        noLeadingZero := .inl trivial
        fraction := fun digits hmem => .of_digitParts (hfractionDigits digits hmem)
        exponent := fun e he => hexponentDigits e he (hdigits e he)
        nonempty := hnonempty }
    exact ⟨d.text, htext, .decimal hparts hnumber⟩
  · cases h

theorem number_sound (hhead : ∃ c ∈ text.head?, (c.isDigit || c == '.') = true)
    (h : number text = .ok (n, rest)) : ∃ piece, text = piece ++ rest ∧ Numeral .univ piece n := by
  rw [number] at h
  split at h
  · rename_i base after hradix
    obtain ⟨mark, rfl, hmark⟩ := radix?_eq_some_iff.1 hradix
    obtain ⟨digits, rfl, hdigits, hnonempty, hbound, rfl⟩ := radixNumber_sound h
    exact ⟨'0' :: mark :: digits, rfl, .based hmark hdigits hnonempty hbound⟩
  · exact decimalNumber_sound hhead h

end TypeSchema.Literal
