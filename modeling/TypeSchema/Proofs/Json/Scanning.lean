import TypeSchema.Json.Draft.OfText
import TypeSchema.Json.Printer
import TypeSchema.Proofs.Json.Parts
import TypeSchema.Text.Split

/-!
# Scanning printed leaves

A printed string or integer is read back, whatever follows it that could not be a part of it.  Of
real numbers it is asked that their text alone be read back (`Number.readsBack`); it then is in
front of any such text.
-/

namespace TypeSchema.Draft

open Json (escapedChar printString printNumber)

variable {text rest : List Char} {n : Number}

/-! ## Strings -/

/-- The piece as which a printed character is read. -/
inductive Piece.Shows (c : Char) : Piece → Prop
  | char : Shows c (.char c)
  | unit (h : c.toNat < 0x20) : Shows c (.unit c.toNat)

theorem read?_control {n : Nat} (h : n < 0x20) :
    Digits.read? 16 ['0', '0', Nat.digitChar (n / 16), Nat.digitChar (n % 16)] = some n := by
  have hall : ∀ n, n < 0x20 →
      Digits.read? 16 ['0', '0', Nat.digitChar (n / 16), Nat.digitChar (n % 16)] = some n := by
    decide
  exact hall n h

theorem scanPieces_escapedChar (c : Char) (text : List Char) :
    ∃ piece, Piece.Shows c piece ∧
      scanPieces (escapedChar c ++ text) =
        (piece :: (scanPieces text).1, (scanPieces text).2) := by
  unfold escapedChar
  split
  · exact ⟨_, .char, rfl⟩
  · exact ⟨_, .char, rfl⟩
  · exact ⟨_, .char, rfl⟩
  · exact ⟨_, .char, rfl⟩
  · exact ⟨_, .char, rfl⟩
  · exact ⟨_, .char, rfl⟩
  · exact ⟨_, .char, rfl⟩
  · rename_i hquote hbackslash _ _ _ _ _
    split
    · rename_i hcontrol
      refine ⟨_, .unit hcontrol, ?_⟩
      simp only [List.cons_append, List.nil_append, scanPieces, read?_control hcontrol]
    · rename_i hplain
      refine ⟨_, .char, ?_⟩
      rw [List.singleton_append, scanPieces.eq_def]
      split <;> simp_all

theorem joinPieces_shows {c : Char} {piece : Piece} (h : piece.Shows c) (pieces : List Piece) :
    joinPieces none (piece :: pieces) = (joinPieces none pieces).map (c :: ·) := by
  cases h with
  | char => rfl
  | unit h =>
    have hlead : isLead c.toNat = false := by
      rw [isLead, decide_eq_false (by omega), Bool.false_and]
    have htrail : isTrail c.toNat = false := by
      rw [isTrail, decide_eq_false (by omega), Bool.false_and]
    rcases pieces with - | ⟨c | code, pieces⟩ <;>
      simp [joinPieces, hlead, htrail, Char.ofNat_toNat]

theorem scanString_escaped (chars rest : List Char) :
    scanString (chars.flatMap escapedChar ++ '"' :: rest) =
      (.str (String.ofList chars), some rest) := by
  have hread : joinPieces none (scanPieces (chars.flatMap escapedChar ++ '"' :: rest)).1 =
        .ok chars ∧
      (scanPieces (chars.flatMap escapedChar ++ '"' :: rest)).2 = .closed rest := by
    induction chars with
    | nil => exact ⟨rfl, rfl⟩
    | cons c chars ih =>
      rw [List.flatMap_cons, List.append_assoc]
      obtain ⟨piece, hshows, hscan⟩ :=
        scanPieces_escapedChar c (chars.flatMap escapedChar ++ '"' :: rest)
      rw [hscan]
      refine ⟨?_, ih.2⟩
      rw [joinPieces_shows hshows, ih.1]
      rfl
  obtain ⟨hpieces, hending⟩ := hread
  rw [scanString]
  generalize scanPieces (chars.flatMap escapedChar ++ '"' :: rest) = scanned at hpieces hending
  obtain ⟨pieces, ending⟩ := scanned
  dsimp only at hpieces hending
  subst hending
  simp only [hpieces]

/-! ## Numbers -/

/-- A number does not go on with the text. -/
def EndsNumber (text : List Char) : Prop :=
  ∀ c ∈ text.head?, c.isDigit = false ∧ c ≠ '.' ∧ c ≠ 'e' ∧ c ≠ 'E'

theorem EndsNumber.nil : EndsNumber [] := nofun

theorem EndsNumber.cons {c : Char} (h : c.isDigit = false ∧ c ≠ '.' ∧ c ≠ 'e' ∧ c ≠ 'E') :
    EndsNumber (c :: rest) := by
  intro d hd
  cases hd
  exact h

theorem EndsNumber.digit (h : EndsNumber rest) : ∀ c ∈ rest.head?, c.isDigit = false :=
  fun c hc => (h c hc).1

/-- What becomes of a number that ends here. -/
def ended (parts : Numeral) (rest : List Char) : Draft × Option (List Char) :=
  match parts.number with
  | some number => (.num number, some rest)
  | none => (.badWord .malformed none, some rest)

theorem ended_eq {parts : Numeral} (h : ended parts text = (.num n, some rest))
    (after : List Char) : rest = text ∧ ended parts after = (.num n, some after) := by
  unfold ended at h ⊢
  split at h
  · cases h
    exact ⟨rfl, rfl⟩
  · cases h

def exponentSign : List Char → Bool × List Char
  | '-' :: text => (true, text)
  | '+' :: text => (false, text)
  | text => (false, text)

theorem exponentSign_append (h : text ≠ []) (rest : List Char) :
    exponentSign (text ++ rest) = ((exponentSign text).1, (exponentSign text).2 ++ rest) := by
  obtain ⟨c, text, rfl⟩ := List.exists_cons_of_ne_nil h
  rw [List.cons_append]
  unfold exponentSign
  split <;> simp_all

/-- Reads the digits of a power of ten and ends the number there. -/
def scanPower (parts : Numeral) (negative : Bool) (text : List Char) : Draft × Option (List Char) :=
  let digits := text.takeWhile Char.isDigit
  let rest := text.dropWhile Char.isDigit
  if digits.isEmpty then missingDigit rest
  else ended { parts with exponentNegative := negative, exponent := digits, plain := false } rest

theorem scanExponent_mark {parts : Numeral} {mark : Char} (h : mark = 'e' ∨ mark = 'E')
    (text : List Char) :
    scanExponent parts (mark :: text) =
      scanPower parts (exponentSign text).1 (exponentSign text).2 := by
  unfold scanExponent
  dsimp only
  rw [if_pos h]
  rfl

theorem scanExponent_ended {parts : Numeral} {c : Char} (h : ¬ (c = 'e' ∨ c = 'E'))
    (text : List Char) : scanExponent parts (c :: text) = ended parts (c :: text) := by
  simp only [scanExponent, h, if_false]
  rfl

theorem EndsNumber.scanExponent (h : EndsNumber rest) (parts : Numeral) :
    scanExponent parts rest = ended parts rest := by
  cases rest with
  | nil => rfl
  | cons c rest => exact scanExponent_ended (not_or.2 (h c rfl).2.2) rest

theorem scanPower_append {parts : Numeral} {negative : Bool} (hrest : EndsNumber rest)
    (h : scanPower parts negative text = (.num n, some [])) :
    scanPower parts negative (text ++ rest) = (.num n, some rest) := by
  unfold scanPower at h ⊢
  rw [Text.takeWhile_before hrest.digit, Text.dropWhile_before hrest.digit]
  dsimp only at h ⊢
  split at h
  · cases h
  · rename_i hdigits
    obtain ⟨hnil, hended⟩ := ended_eq h rest
    rw [if_neg hdigits, ← hnil, List.nil_append, hended]

theorem scanExponent_append {parts : Numeral} (hrest : EndsNumber rest)
    (h : scanExponent parts text = (.num n, some [])) :
    scanExponent parts (text ++ rest) = (.num n, some rest) := by
  rcases text with - | ⟨c, text⟩
  · rw [List.nil_append, hrest.scanExponent]
    exact (ended_eq h rest).2
  · rw [List.cons_append]
    by_cases hmark : c = 'e' ∨ c = 'E'
    · rw [scanExponent_mark hmark] at h ⊢
      have hne : text ≠ [] := by
        rintro rfl
        cases h
      rw [exponentSign_append hne]
      exact scanPower_append hrest h
    · rw [scanExponent_ended hmark] at h
      cases (ended_eq h []).1

theorem scanFraction_append {parts : Numeral} (hrest : EndsNumber rest)
    (h : scanFraction parts text = (.num n, some [])) :
    scanFraction parts (text ++ rest) = (.num n, some rest) := by
  unfold scanFraction at h
  split at h
  · rw [List.cons_append, scanFraction, Text.takeWhile_before hrest.digit,
      Text.dropWhile_before hrest.digit]
    dsimp only at h ⊢
    split at h
    · cases h
    · rename_i hdigits
      rw [if_neg hdigits]
      exact scanExponent_append hrest h
  · rename_i hpoint
    rw [scanFraction.eq_def]
    split
    · rename_i heq
      rcases text with - | ⟨c, text⟩
      · rw [List.nil_append] at heq
        exact absurd rfl (hrest '.' (by rw [heq]; rfl)).2.1
      · rw [List.cons_append] at heq
        cases heq
        exact absurd rfl (hpoint text)
    · exact scanExponent_append hrest h

theorem scanMagnitude_append {negative : Bool} (hrest : EndsNumber rest)
    (h : scanMagnitude negative text = (.num n, some [])) :
    scanMagnitude negative (text ++ rest) = (.num n, some rest) := by
  unfold scanMagnitude at h ⊢
  rw [Text.takeWhile_before hrest.digit, Text.dropWhile_before hrest.digit]
  dsimp only at h ⊢
  split at h
  · cases h
  · cases h
  · exact scanFraction_append hrest h

theorem scanWord_ne_num {word : List Char} {draft : Draft} (h : ∀ n, draft ≠ .num n) :
    (scanWord draft word text).1 ≠ .num n := by
  induction word generalizing text with
  | nil => exact h n
  | cons w word ih =>
    cases text with
    | nil => nofun
    | cons c text =>
      rw [scanWord]
      split
      · exact ih
      · nofun

theorem scanString_ne_num : (scanString text).1 ≠ .num n := by
  unfold scanString
  split
  · split <;> nofun
  · split <;> nofun

theorem skipSpace_skipSpace (text : List Char) : skipSpace (skipSpace text) = skipSpace text := by
  unfold skipSpace
  induction text with
  | nil => rfl
  | cons c text ih =>
    by_cases hc : isSpace c = true
    · rw [List.dropWhile_cons_of_pos hc, ih]
    · rw [List.dropWhile_cons_of_neg hc, List.dropWhile_cons_of_neg hc]

theorem skipSpace_append (h : skipSpace text ≠ []) (rest : List Char) :
    skipSpace (text ++ rest) = skipSpace text ++ rest := by
  unfold skipSpace at h ⊢
  rw [List.dropWhile_append, if_neg (by simpa using h)]

/-- Only what follows the blanks matters. -/
theorem scanValue_congr {text text' : List Char} (h : skipSpace text = skipSpace text')
    (fuel : Nat) : scanValue fuel text = scanValue fuel text' := by
  cases fuel with
  | zero => rfl
  | succ fuel => rw [scanValue, scanValue, h]

theorem scanValue_digit {c : Char} (h : c.isDigit = true) (fuel : Nat) (text : List Char) :
    scanValue (fuel + 1) (c :: text) = scanMagnitude false (c :: text) := by
  have hspace : skipSpace (c :: text) = c :: text := by
    refine List.dropWhile_cons_of_neg fun hblank => ?_
    simp only [isSpace, Bool.or_eq_true, beq_iff_eq] at hblank
    rcases hblank with ((rfl | rfl) | rfl) | rfl <;> cases h
  rw [scanValue, hspace]
  -- No digit begins any of the other values.
  split
  all_goals
    rename_i heq
    cases heq
  all_goals first
    | cases h
    | exact if_pos h

theorem scanValue_append {fuel : Nat} (hrest : EndsNumber rest)
    (h : scanValue fuel text = (.num n, some [])) (fuel' : Nat) :
    scanValue (fuel' + 1) (text ++ rest) = (.num n, some rest) := by
  have hword : ∀ {word draft text}, (∀ n, draft ≠ .num n) →
      scanWord draft word text ≠ (.num n, some []) :=
    fun hdraft heq => scanWord_ne_num hdraft (congrArg Prod.fst heq)
  cases fuel with
  | zero => cases h
  | succ fuel =>
    rw [scanValue] at h
    have hskip : skipSpace text ≠ [] := fun heq => by
      rw [heq] at h
      cases h
    have hcongr : skipSpace (text ++ rest) = skipSpace (skipSpace text ++ rest) := by
      rw [skipSpace_append hskip, skipSpace_append (by rwa [skipSpace_skipSpace]),
        skipSpace_skipSpace]
    rw [scanValue_congr hcongr]
    split at h
    · cases h
    · exact absurd h (hword nofun)
    · exact absurd h (hword nofun)
    · exact absurd h (hword nofun)
    · exact absurd (congrArg Prod.fst h) scanString_ne_num
    · split at h <;> cases h
    · split at h <;> cases h
    · rename_i heq
      rw [heq]
      exact scanMagnitude_append hrest h
    · rename_i heq
      split at h
      · rename_i hdigit
        rw [heq, List.cons_append, scanValue_digit hdigit]
        exact scanMagnitude_append hrest h
      · cases h

/-! ## Printed numbers -/

theorem scanMagnitude_write (negative : Bool) (k : Nat) :
    scanMagnitude negative (Digits.write k) =
      ended ⟨negative, Digits.write k, [], false, [], true⟩ [] := by
  have hdigits : ∀ c ∈ Digits.write k, c.isDigit = true := fun _ => Digits.isDigit_of_mem_write
  have hend : ∀ c ∈ ([] : List Char).head?, c.isDigit = false := nofun
  have htake := Text.takeWhile_run hdigits hend
  have hdrop := Text.dropWhile_run hdigits hend
  rw [List.append_nil] at htake hdrop
  unfold scanMagnitude
  rw [htake, hdrop]
  dsimp only
  split
  · rename_i heq
    exact absurd heq Nat.toDigits_ne_nil
  · rename_i heq
    obtain rfl : k = 0 := Digits.eq_zero_of_head?_write (by rw [heq]; rfl)
    cases heq
  · rfl

theorem number_write {negative : Bool} {k : Nat}
    (h : if negative then 0 < k ∧ k ≤ Nat.pow 2 63 else k < Nat.pow 2 64) :
    Numeral.number ⟨negative, Digits.write k, [], false, [], true⟩ =
      some (.int (if negative then -(k : Int) else k)) := by
  have hvalue : Digits.value 10 (Digits.write k ++ []) = k := by
    rw [List.append_nil, Digits.value_write]
  cases negative <;> simp_all [Numeral.number]

theorem scanMagnitude_int {negative : Bool} {k : Nat}
    (h : if negative then 0 < k ∧ k ≤ Nat.pow 2 63 else k < Nat.pow 2 64) :
    scanMagnitude negative (Digits.write k) =
      (.num (.int (if negative then -(k : Int) else k)), some []) := by
  rw [scanMagnitude_write, ended, number_write h]

end TypeSchema.Draft

namespace TypeSchema.Number

open Draft

/-- The text of the number alone is read as the number. -/
def readsBack (n : Number) : Bool :=
  match scan (Json.printNumber n) with
  | (.num m, some []) => m = n
  | _ => false

theorem scan_of_readsBack {n : Number} (h : n.readsBack = true) :
    scan (Json.printNumber n) = (.num n, some []) := by
  unfold readsBack at h
  split at h
  · rename_i heq
    rw [heq, of_decide_eq_true h]
  · cases h

theorem readsBack_int {i : Int} (h : (Number.int i).isHeld = true) :
    (Number.int i).readsBack = true := by
  simp only [isHeld, Bool.and_eq_true, decide_eq_true_eq] at h
  have hscan : scan (Digits.writeInt i) = (.num (.int i), some []) := by
    unfold Digits.writeInt
    split
    · rename_i k
      obtain ⟨c, digits, heq⟩ := List.exists_cons_of_ne_nil (Nat.toDigits_ne_nil (n := k) (b := 10))
      have hdigit : c.isDigit = true := Digits.isDigit_of_mem_write (n := k) (by
        rw [Digits.write, heq]
        exact List.mem_cons_self)
      have hmagnitude := @scanMagnitude_int false k (Int.ofNat_lt.1 h.2)
      rw [Digits.write, heq] at hmagnitude ⊢
      rw [scan, scanValue_digit hdigit, hmagnitude]
      rfl
    · rename_i k
      have hbound : k + 1 ≤ Nat.pow 2 63 := by
        have := h.1
        omega
      exact @scanMagnitude_int true (k + 1) ⟨Nat.succ_pos k, hbound⟩
  unfold readsBack
  rw [Json.printNumber, hscan]
  exact decide_eq_true rfl

end TypeSchema.Number

namespace TypeSchema.Json

/-- The real numbers in the value are read back from their texts. -/
def RealsReadBack (v : Json) : Prop := ∀ x, .real x ∈ v.numbers → (Number.real x).readsBack = true

theorem NumbersHeld.readsBack {v : Json} (h : v.NumbersHeld) (hreals : v.RealsReadBack) :
    ∀ n ∈ v.numbers, n.readsBack = true := by
  intro n hn
  cases n with
  | int i => exact Number.readsBack_int (h _ hn)
  | real x => exact hreals x hn

end TypeSchema.Json
