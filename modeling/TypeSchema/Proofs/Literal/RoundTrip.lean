import TypeSchema.Json.Printer
import TypeSchema.Proofs.Literal.Grammar

/-!
# JSON text as a literal

The compact text of a value without objects and reals is a literal, and it is read back as the value
unless it writes the least integer of 64 bits: its magnitude alone is read, as a real, before its
sign.
-/

namespace TypeSchema.Literal

/-- Values of null, booleans, strings, lists and integers with a property. -/
inductive Elementary (allowed : Int → Prop) : Json → Prop
  | null : Elementary allowed .null
  | bool (b : Bool) : Elementary allowed (.bool b)
  | int {i : Int} (hi : allowed i) : Elementary allowed (.int i)
  | str (s : String) : Elementary allowed (.str s)
  | arr {items : List Json} (hitems : ∀ item ∈ items, Elementary allowed item) :
      Elementary allowed (.arr items)

theorem Elementary.of_imp {allowed allowed' : Int → Prop} {v : Json} (h : Elementary allowed v)
    (himp : ∀ i, allowed i → allowed' i) : Elementary allowed' v := by
  induction h with
  | null => exact .null
  | bool b => exact .bool b
  | int hi => exact .int (himp _ hi)
  | str s => exact .str s
  | arr _ ih => exact .arr ih

/-- The least integer of 64 bits. -/
def leastWord : Int := -9223372036854775808

def IsWord (i : Int) : Prop := leastWord ≤ i ∧ i < -leastWord

instance (i : Int) : Decidable (IsWord i) := inferInstanceAs (Decidable (_ ∧ _))

/-- The least integer of 64 bits as a real number. -/
def leastReal : Binary64 := ⟨true, Nat.pow 2 52, 1085, by decide⟩

mutual

/-- The value that is read from the text of a value. -/
def asRead : Json → Json
  | .num (.int i) => if i = leastWord then .num (.real leastReal) else .int i
  | .arr items => .arr (asReadItems items)
  | v => v
termination_by structural v => v

def asReadItems : List Json → List Json
  | [] => []
  | item :: rest => asRead item :: asReadItems rest
termination_by structural items => items

end

theorem asReadItems_eq (items : List Json) : asReadItems items = items.map asRead := by
  induction items with
  | nil => rfl
  | cons item items ih => rw [asReadItems, ih, List.map_cons]

/-! ## Integers -/

theorem dropUnderscores_write (n : Nat) : dropUnderscores (Digits.write n) = Digits.write n := by
  rw [dropUnderscores, List.filter_eq_self]
  intro c hc
  rw [decide_eq_true_eq]
  rintro rfl
  exact absurd (Digits.isDigit_of_mem_write hc) (by decide)

theorem write_numeral {n : Nat} {number : Number}
    (h : (DecimalParts.mk (Digits.write n) none none).number? = some number) :
    Numeral .univ (Digits.write n) number := by
  have hparts : (DecimalParts.mk (Digits.write n) none none).WellFormed .univ :=
    { whole := .of_digitParts fun c hc => isDigitPart_of_isDigit (Digits.isDigit_of_mem_write hc)
      beginning := fun hhead =>
        absurd (Digits.isDigit_of_mem_write (List.mem_of_mem_head? hhead)) (by decide)
      noLeadingZero := .inl trivial
      fraction := nofun
      exponent := nofun
      nonempty := by
        rw [dropUnderscores_write]
        exact List.append_ne_nil_of_left_ne_nil Nat.toDigits_ne_nil _ }
  have hnumeral := Numeral.decimal hparts h
  simpa [DecimalParts.text, DecimalParts.fractionText, DecimalParts.exponentText] using hnumeral

theorem nat_numeral {n : Nat} (h : n < Nat.pow 2 63) : Numeral .univ (Digits.write n) (.int n) := by
  refine write_numeral ?_
  simp [DecimalParts.number?, dropUnderscores_write, Digits.value_write, h]

theorem leastReal_numeral :
    Numeral .univ (Digits.write 9223372036854775808) (.real leastReal.neg) :=
  write_numeral (by decide +kernel)

theorem spells_int {i : Int} (hi : IsWord i) :
    Spells .univ (Digits.writeInt i) (some (asRead (.int i))) := by
  obtain ⟨hlow, hhigh⟩ := hi
  cases i with
  | ofNat n =>
      have hne : Int.ofNat n ≠ leastWord := by
        rw [Int.ofNat_eq_natCast, leastWord]
        omega
      rw [asRead.eq_def]
      simp only [Json.int, if_neg hne]
      exact .number (nat_numeral (Int.ofNat_lt.1 hhigh))
  | negSucc n =>
      rw [Digits.writeInt]
      by_cases hleast : n + 1 = 9223372036854775808
      · obtain rfl : n = 9223372036854775807 := by omega
        exact .minus .nil leastReal_numeral
      · have hne : Int.negSucc n ≠ leastWord := by
          rw [Int.negSucc_eq, leastWord]
          omega
        have hbound : n + 1 < Nat.pow 2 63 := by
          rw [Int.negSucc_eq, leastWord] at hlow
          have hle : n + 1 ≤ 9223372036854775808 := by omega
          exact Nat.lt_of_le_of_ne hle hleast
        have hspells := Spells.minus .nil (nat_numeral hbound)
        rw [asRead.eq_def]
        simp only [Json.int, if_neg hne]
        have hnegate : negate (.int (n + 1 : Nat)) = .int (Int.negSucc n) := by
          rw [negate, if_pos (Int.ofNat_lt.2 hbound)]
          rfl
        rw [hnegate] at hspells
        exact hspells

/-! ## Strings -/

theorem spells_control {n : Nat} (h : n < 0x20) :
    HexCode .univ 4 ['0', '0', Nat.digitChar (n / 16), Nat.digitChar (n % 16)] n := by
  have hall : ∀ n, n < 0x20 →
      ['0', '0', Nat.digitChar (n / 16), Nat.digitChar (n % 16)].all (Digits.isDigit 16) = true ∧
      Digits.value 16 ['0', '0', Nat.digitChar (n / 16), Nat.digitChar (n % 16)] = n := by
    decide
  obtain ⟨hchars, hvalue⟩ := hall n h
  have hcode : HexCode .univ 4 _ _ := .plain ⟨List.cons_ne_nil _ _, List.all_eq_true.1 hchars⟩ rfl
  rwa [hvalue] at hcode

theorem isLeadSurrogate_of_lt {code : Nat} (h : code < 0x20) : isLeadSurrogate code = false := by
  rw [isLeadSurrogate, decide_eq_false (by omega), Bool.false_and]

theorem charOfCode_toNat (c : Char) : charOfCode c.toNat = c := by
  have hvalid : c.toNat.isValidChar := c.valid
  rw [charOfCode, if_pos hvalid, Char.ofNat_toNat]

theorem stringText_escapedChar (c : Char) {text chars : List Char}
    (h : StringText .univ '"' text chars) :
    StringText .univ '"' (Json.escapedChar c ++ text) (c :: chars) := by
  have single {d : Char} (hmark : d ≠ 'x' ∧ d ≠ 'u') :
      StringText .univ '"' ('\\' :: d :: text) (escaped d ++ chars) := by
    have hpiece : Escape .univ [d] (escaped d) text := .single hmark (.inl trivial)
    exact .escape hpiece h
  unfold Json.escapedChar
  split
  · exact single (d := '"') (by decide)
  · exact single (d := '\\') (by decide)
  · exact single (d := 'b') (by decide)
  · exact single (d := 'f') (by decide)
  · exact single (d := 'n') (by decide)
  · exact single (d := 'r') (by decide)
  · exact single (d := 't') (by decide)
  · rename_i hquote hbackslash _ _ hbreak _ _
    split
    · rename_i hcontrol
      have hpiece : Escape .univ _ _ text := .unit (spells_control hcontrol) fun hlead => by
        rw [isLeadSurrogate_of_lt hcontrol] at hlead
        cases hlead
      rw [charOfCode_toNat] at hpiece
      exact .escape hpiece h
    · exact .plain ⟨hquote, hbreak, hbackslash⟩ (.inl trivial) h

theorem stringText_printString (chars : List Char) :
    StringText .univ '"' (chars.flatMap Json.escapedChar ++ ['"']) chars := by
  induction chars with
  | nil => exact .close
  | cons c chars ih =>
      rw [List.flatMap_cons, List.append_assoc]
      exact stringText_escapedChar c ih

/-! ## Values -/

theorem spells_compact {v : Json} (h : Elementary IsWord v) :
    Spells .univ v.compact (some (asRead v)) := by
  induction h with
  | null => exact .word .null
  | bool b =>
      cases b
      · exact .word .false
      · exact .word .true
  | int hi => exact spells_int hi
  | str s =>
      have hstring := Spells.string (.inl rfl) (stringText_printString s.toList)
      rw [String.ofList_toList] at hstring
      exact hstring
  | @arr items _ ih =>
      have hitems : List.Forall₂ (IsItem .univ) (items.map Json.compact)
          (items.map fun item => some (asRead item)) := by
        rw [List.forall₂_map_left_iff, List.forall₂_map_right_iff, List.forall₂_same]
        exact fun item hitem => (ih item hitem).isItem
      have hvalues : (items.map fun item => some (asRead item)).map (·.getD .null) =
          items.map asRead := List.map_map
      have hlist := items_intercalate hitems [] (.inl rfl)
      rw [hvalues] at hlist
      rw [Json.compact, Json.compactItems_eq, asRead, asReadItems_eq, List.cons_append]
      exact .list hlist

theorem evaluateText_text {v : Json} (h : Elementary IsWord v) :
    evaluateText v.text = .ok (some (asRead v)) := by
  have hspells := spells_compact h
  refine evaluateText_of_isLiteral ⟨[], v.compact, [], ?_, .nil, hspells, .closed .nil⟩
  rw [Json.text, String.toList_ofList, List.append_nil]
  rfl

/-! ## The least integer -/

theorem asRead_eq_iff {v : Json} (h : Elementary IsWord v) :
    asRead v = v ↔ Elementary (fun i => IsWord i ∧ i ≠ leastWord) v := by
  induction h with
  | null => exact ⟨fun _ => .null, fun _ => rfl⟩
  | bool b => exact ⟨fun _ => .bool b, fun _ => rfl⟩
  | @int i hi =>
      rw [Json.int, asRead]
      split
      · rename_i hleast
        refine ⟨nofun, fun h => ?_⟩
        cases h with
        | int hallowed => exact absurd hleast hallowed.2
      · rename_i hleast
        exact ⟨fun _ => .int ⟨hi, hleast⟩, fun _ => rfl⟩
  | str s => exact ⟨fun _ => .str s, fun _ => rfl⟩
  | @arr items _ ih =>
      have hmap : items.map asRead = items ↔ ∀ item ∈ items, asRead item = item := by
        simpa using List.map_inj_left (l := items) (f := asRead) (g := id)
      rw [asRead, asReadItems_eq, Json.arr.injEq, hmap]
      constructor
      · exact fun heq => .arr fun item hitem => (ih item hitem).1 (heq item hitem)
      · intro h
        cases h with
        | arr hitems => exact fun item hitem => (ih item hitem).2 (hitems item hitem)

/-- A value is read back from its text if and only if the least integer is nowhere in it. -/
theorem evaluateText_text_eq_iff {v : Json} (h : Elementary IsWord v) :
    evaluateText v.text = .ok (some v) ↔
      Elementary (fun i => IsWord i ∧ i ≠ leastWord) v := by
  rw [evaluateText_text h, ← asRead_eq_iff h, Except.ok.injEq, Option.some.injEq]

def sample : Json :=
  .arr [.null, .int (-9223372036854775807), .arr [.bool true, .str "a\n\"\x01\u2028"], .int 0]

theorem sample_elementary : Elementary (fun i => IsWord i ∧ i ≠ leastWord) sample := by
  refine .arr fun item hitem => ?_
  simp only [List.mem_cons, List.not_mem_nil, or_false] at hitem
  rcases hitem with rfl | rfl | rfl | rfl
  · exact .null
  · exact .int (by decide)
  · refine .arr fun item hitem => ?_
    simp only [List.mem_cons, List.not_mem_nil, or_false] at hitem
    rcases hitem with rfl | rfl
    · exact .bool true
    · exact .str _
  · exact .int (by decide)

theorem evaluateText_text_eq_iff_sample :
    Elementary IsWord sample ∧ evaluateText sample.text = .ok (some sample) := by
  have hword : Elementary IsWord sample := sample_elementary.of_imp fun _ hi => hi.1
  exact ⟨hword, (evaluateText_text_eq_iff hword).2 sample_elementary⟩

theorem least_integer_becomes_real :
    Elementary IsWord (.int leastWord) ∧
      evaluateText (Json.int leastWord).text = .ok (some (.num (.real leastReal))) ∧
      evaluateText (Json.int leastWord).text ≠ .ok (some (.int leastWord)) := by
  have hword : Elementary IsWord (.int leastWord) := .int (by decide)
  have hread := evaluateText_text hword
  refine ⟨hword, hread, ?_⟩
  rw [hread]
  nofun

end TypeSchema.Literal
