import Mathlib.Data.Bool.AllAny
import TypeSchema.Proofs.Decimal.Integers
import TypeSchema.Proofs.Literal.RoundTrip

/-!
# Notations of natural numbers

A natural number of 64 bits is read alike however it is written, except that from 63 bits on decimal
digits stand for a real number where those of the other bases stand for an integer.  Behind a minus
it is a real number by any of them.
-/

namespace TypeSchema.Literal

/-- How a natural number is written: with decimal digits, of which the first is zero only if it is
the only one, or behind a mark of another base. -/
inductive Writes (n : Nat) : (decimal : Bool) → List Char → Prop
  | decimal {digits : List Char} (hdigits : DigitGroup .univ 10 digits)
      (hbeginning : digits.head? ≠ some '_') (hzero : digits.head? = some '0' → digits = ['0'])
      (hnonempty : dropUnderscores digits ≠ [])
      (hvalue : Digits.value 10 (dropUnderscores digits) = n) : Writes n true digits
  | based {mark : Char} {base : Nat} {digits : List Char} (hbase : baseOf? mark = some base)
      (hdigits : DigitGroup .univ base digits) (hnonempty : dropUnderscores digits ≠ [])
      (hvalue : Digits.value base (dropUnderscores digits) = n) :
      Writes n false ('0' :: mark :: digits)

/-- What is read where a natural number is written. -/
def numberRead? (n : Nat) (decimal : Bool) : Option Number :=
  if decimal = true ∧ Nat.pow 2 63 ≤ n then (Binary64.ofInt n).map .real else some (.int n)

variable {n : Nat} {decimal decimal' : Bool} {sign text text' : List Char} {number : Number}

theorem numberRead?_small (hn : n < Nat.pow 2 63) (decimal : Bool) :
    numberRead? n decimal = some (.int n) :=
  if_neg fun h => Nat.not_le.2 hn h.2

theorem numberRead?_large (hlarge : Nat.pow 2 63 ≤ n) (hn : n < Nat.pow 2 64) :
    ∃ x, Binary64.ofInt n = some x ∧ ∀ decimal,
      numberRead? n decimal = some (if decimal then .real x else .int n) := by
  obtain ⟨x, hx⟩ := Binary64.exists_ofInt (Nat.lt_of_lt_of_le (by decide) hlarge) hn
  refine ⟨x, hx, fun decimal => ?_⟩
  cases decimal with
  | true => rw [numberRead?, if_pos ⟨rfl, hlarge⟩, hx, Option.map_some, if_pos rfl]
  | false => rfl

theorem exists_numberRead? (hn : n < Nat.pow 2 64) (decimal : Bool) :
    ∃ number, numberRead? n decimal = some number := by
  rcases Nat.lt_or_ge n (Nat.pow 2 63) with hsmall | hlarge
  · exact ⟨_, numberRead?_small hsmall decimal⟩
  · obtain ⟨x, -, hread⟩ := numberRead?_large hlarge hn
    exact ⟨_, hread decimal⟩

/-- A whole part alone stands for the integer, or for the real number nearest to it. -/
theorem number?_whole {digits : List Char}
    (hn : Digits.value 10 (dropUnderscores digits) < Nat.pow 2 64) :
    (DecimalParts.mk digits none none).number? =
      numberRead? (Digits.value 10 (dropUnderscores digits)) true := by
  have hfraction : (DecimalParts.mk digits none none).fractionDigits = [] := rfl
  rw [DecimalParts.number?, numberRead?, hfraction, List.append_nil]
  generalize Digits.value 10 (dropUnderscores digits) = n at hn ⊢
  by_cases hlarge : Nat.pow 2 63 ≤ n
  · rw [if_neg (by simp [hlarge]), if_pos ⟨rfl, hlarge⟩,
      ← Binary64.ofDecimal_eq_ofInt (Nat.lt_of_lt_of_le (by decide) hlarge) hn]
    rfl
  · rw [if_pos (by simpa using hlarge), if_neg fun h => hlarge h.2]

theorem Writes.numeral (h : Writes n decimal text) (hn : n < Nat.pow 2 64)
    (hread : numberRead? n decimal = some number) : Numeral .univ text number := by
  cases h with
  | decimal hdigits hbeginning hzero hnonempty hvalue =>
      subst hvalue
      have hparts : (DecimalParts.mk text none none).WellFormed .univ :=
        { whole := hdigits
          beginning := hbeginning
          noLeadingZero := .inr hzero
          fraction := nofun
          exponent := nofun
          nonempty := List.append_ne_nil_of_left_ne_nil hnonempty _ }
      have hnumeral := Numeral.decimal hparts ((number?_whole hn).trans hread)
      simpa [DecimalParts.text, DecimalParts.fractionText, DecimalParts.exponentText] using hnumeral
  | based hbase hdigits hnonempty hvalue =>
      subst hvalue
      rw [numberRead?, if_neg (by simp), Option.some.injEq] at hread
      rw [← hread]
      exact .based hbase hdigits hnonempty hn

/-! ## Signs -/

def IsSign (sign : List Char) : Prop := sign = [] ∨ sign = ['+'] ∨ sign = ['-']

def signed (sign : List Char) (number : Number) : Number :=
  if sign = ['-'] then negate number else number

theorem evaluateText_signed (hsign : IsSign sign) (h : Numeral .univ text number) :
    evaluateText (String.ofList (sign ++ text)) = .ok (some (.num (signed sign number))) := by
  have hspells : Spells .univ (sign ++ text) (some (.num (signed sign number))) := by
    rcases hsign with rfl | rfl | rfl
    · exact .number h
    · exact .plus .nil h
    · exact .minus .nil h
  refine evaluateText_of_isLiteral ⟨[], sign ++ text, [], ?_, .nil, hspells, .closed .nil⟩
  rw [String.toList_ofList, List.append_nil]
  rfl

/-- An integer beyond 63 bits is negated as the real number nearest to it. -/
theorem negate_large {x : Binary64} (hlarge : Nat.pow 2 63 ≤ n) (hx : Binary64.ofInt n = some x)
    (decimal : Bool) : negate (if decimal then .real x else .int n) = .real x.neg := by
  cases decimal with
  | true => rfl
  | false =>
      rw [if_neg Bool.false_ne_true, negate, if_neg fun h => Nat.not_lt.2 hlarge (Int.ofNat_lt.1 h)]
      simp only [hx]

theorem signed_numberRead?_eq_iff (hn : n < Nat.pow 2 64) {number' : Number}
    (h : numberRead? n decimal = some number) (h' : numberRead? n decimal' = some number') :
    signed sign number = signed sign number' ↔
      n < Nat.pow 2 63 ∨ sign = ['-'] ∨ decimal = decimal' := by
  rcases Nat.lt_or_ge n (Nat.pow 2 63) with hsmall | hlarge
  · rw [numberRead?_small hsmall] at h h'
    simp only [← Option.some.inj h, ← Option.some.inj h', hsmall, true_or]
  obtain ⟨x, hx, hread⟩ := numberRead?_large hlarge hn
  rw [hread] at h h'
  cases h
  cases h'
  rw [signed, signed, or_iff_right (Nat.not_lt.2 hlarge)]
  by_cases hminus : sign = ['-']
  · rw [if_pos hminus, if_pos hminus, negate_large hlarge hx, negate_large hlarge hx]
    simp only [hminus, true_or]
  · rw [if_neg hminus, if_neg hminus, or_iff_right hminus]
    cases decimal <;> cases decimal' <;> simp

/-- Two notations of a number have a value in common if and only if it has no more than 63 bits, or
is negated, or both or none of them are decimal. -/
theorem notations_agree_iff (hn : n < Nat.pow 2 64) (hsign : IsSign sign)
    (h : Writes n decimal text) (h' : Writes n decimal' text') :
    (∃ v, evaluateText (String.ofList (sign ++ text)) = .ok (some v) ∧
      evaluateText (String.ofList (sign ++ text')) = .ok (some v)) ↔
      n < Nat.pow 2 63 ∨ sign = ['-'] ∨ decimal = decimal' := by
  obtain ⟨number, hread⟩ := exists_numberRead? hn decimal
  obtain ⟨number', hread'⟩ := exists_numberRead? hn decimal'
  rw [← signed_numberRead?_eq_iff hn hread hread', evaluateText_signed hsign (h.numeral hn hread),
    evaluateText_signed hsign (h'.numeral hn hread')]
  simp only [Except.ok.injEq, Option.some.injEq, exists_eq_left', Json.num.injEq]
  exact eq_comm

theorem hexadecimal {digits : List Char}
    (hdigits : (digits.all fun c => decide (Digits.isDigit 16 c = true ∨ c = '_')) = true)
    (hnonempty : dropUnderscores digits ≠ [])
    (hvalue : Digits.value 16 (dropUnderscores digits) = n) :
    Writes n false ('0' :: 'x' :: digits) :=
  .based rfl ⟨List.all_iff_forall_prop.1 hdigits, .inl trivial⟩ hnonempty hvalue

theorem notations_agree_iff_byte :
    255 < Nat.pow 2 64 ∧ IsSign ['-'] ∧ Writes 255 true ['2', '5', '5'] ∧
      Writes 255 false ['0', 'x', 'F', '_', 'f'] ∧
      ∃ v, evaluateText "-255" = .ok (some v) ∧ evaluateText "-0xF_f" = .ok (some v) := by
  have hbound : 255 < Nat.pow 2 64 := by decide
  have hsign : IsSign ['-'] := .inr (.inr rfl)
  have hdecimal : Writes 255 true ['2', '5', '5'] :=
    .decimal ⟨List.all_iff_forall_prop.1 (by decide), .inl trivial⟩ (by decide) (by decide) (by decide) (by decide)
  have hbased : Writes 255 false ['0', 'x', 'F', '_', 'f'] :=
    hexadecimal (by decide) (by decide) (by decide)
  exact ⟨hbound, hsign, hdecimal, hbased,
    (notations_agree_iff hbound hsign hdecimal hbased).2 (.inl (by decide))⟩

/-- What the first number of 64 bits stands for behind no sign. -/
theorem notations_may_disagree :
    Writes 9223372036854775808 true "9223372036854775808".toList ∧
      Writes 9223372036854775808 false "0x8000000000000000".toList ∧
      evaluateText "9223372036854775808" = .ok (some (.num (.real leastReal.neg))) ∧
      evaluateText "0x8000000000000000" = .ok (some (.num (.int 9223372036854775808))) ∧
      ¬ ∃ v, evaluateText "9223372036854775808" = .ok (some v) ∧
        evaluateText "0x8000000000000000" = .ok (some v) := by
  have hdecimal : Writes 9223372036854775808 true "9223372036854775808".toList :=
    .decimal ⟨List.all_iff_forall_prop.1 (by decide), .inl trivial⟩ (by decide) (by decide) (by decide) (by decide)
  have hbased : Writes 9223372036854775808 false "0x8000000000000000".toList :=
    hexadecimal (by decide) (by decide) (by decide)
  have hread : numberRead? 9223372036854775808 true = some (.real leastReal.neg) := by
    decide +kernel
  have hread' : numberRead? 9223372036854775808 false = some (.int 9223372036854775808) := rfl
  have hreal := evaluateText_signed (.inl rfl) (hdecimal.numeral (by decide) hread)
  have hinteger := evaluateText_signed (.inl rfl) (hbased.numeral (by decide) hread')
  rw [List.nil_append, String.ofList_toList, signed, if_neg (List.cons_ne_nil _ _).symm]
    at hreal hinteger
  refine ⟨hdecimal, hbased, hreal, hinteger, ?_⟩
  rintro ⟨v, hv, hv'⟩
  rw [hreal, Except.ok.injEq, Option.some.injEq] at hv
  rw [hinteger, ← hv, Except.ok.injEq, Option.some.injEq, Json.num.injEq] at hv'
  simp only [reduceCtorEq] at hv'

end TypeSchema.Literal
