import TypeSchema.Text.Units

/-!
# Surrogates

Two sixteen-bit units between U+D800 and U+DFFF, a leading and a trailing one, make a character.  A
unit of this range that is no half of such a pair is replaced in well-formed text.
-/

namespace TypeSchema.Text

def isLead (unit : Nat) : Bool := 0xD800 ≤ unit && unit < 0xDC00

def isTrail (unit : Nat) : Bool := 0xDC00 ≤ unit && unit < 0xE000

def isSurrogate (unit : Nat) : Bool := isLead unit || isTrail unit

/-- The units, with U+FFFD for each surrogate that is not paired. -/
def toWellFormed : List Nat → List Nat
  | [] => []
  | [unit] => [if isSurrogate unit then 0xFFFD else unit]
  | unit :: next :: rest =>
    if isLead unit && isTrail next then unit :: next :: toWellFormed rest
    else (if isSurrogate unit then 0xFFFD else unit) :: toWellFormed (next :: rest)

/-- The units of a character by its code. -/
def unitsOfCode (code : Nat) : List Nat :=
  if code < 0x10000 then [code]
  else [0xD800 + (code - 0x10000) / 0x400, 0xDC00 + (code - 0x10000) % 0x400]

variable {unit next : Nat} {rest : List Nat}

theorem isLead_iff : isLead unit = true ↔ 0xD800 ≤ unit ∧ unit < 0xDC00 := by
  rw [isLead, Bool.and_eq_true, decide_eq_true_iff, decide_eq_true_iff]

theorem isTrail_iff : isTrail unit = true ↔ 0xDC00 ≤ unit ∧ unit < 0xE000 := by
  rw [isTrail, Bool.and_eq_true, decide_eq_true_iff, decide_eq_true_iff]

theorem isSurrogate_of_isLead (h : isLead unit = true) : isSurrogate unit = true := by
  rw [isSurrogate, h, Bool.true_or]

theorem isSurrogate_iff : isSurrogate unit = true ↔ 0xD800 ≤ unit ∧ unit < 0xE000 := by
  rw [isSurrogate, Bool.or_eq_true, isLead_iff, isTrail_iff]
  omega

theorem lt_of_isSurrogate (h : isSurrogate unit = true) : unit < 0x10000 :=
  Nat.lt_trans (isSurrogate_iff.1 h).2 (by decide)

/-! ## Replacing surrogates -/

/-- The first unit stands for a character together with the one behind it. -/
def Pairs (unit : Nat) (rest : List Nat) : Prop :=
  isLead unit = true ∧ ∃ next ∈ rest.head?, isTrail next = true

theorem toWellFormed_pair (hlead : isLead unit = true) (htrail : isTrail next = true)
    (rest : List Nat) :
    toWellFormed (unit :: next :: rest) = unit :: next :: toWellFormed rest := by
  rw [toWellFormed, hlead, htrail, Bool.and_self, if_pos rfl]

theorem toWellFormed_cons (h : ¬ Pairs unit rest) :
    toWellFormed (unit :: rest) =
      (if isSurrogate unit then 0xFFFD else unit) :: toWellFormed rest := by
  cases rest with
  | nil => rfl
  | cons next rest =>
      rw [toWellFormed, if_neg]
      rw [Bool.and_eq_true]
      exact fun hpair => h ⟨hpair.1, next, rfl, hpair.2⟩

theorem toWellFormed_unpaired (hsurrogate : isSurrogate unit = true) (h : ¬ Pairs unit rest) :
    toWellFormed (unit :: rest) = 0xFFFD :: toWellFormed rest := by
  rw [toWellFormed_cons h, if_pos hsurrogate]

theorem toWellFormed_of_pairs (h : Pairs unit rest) :
    ∃ others, toWellFormed (unit :: rest) = unit :: others := by
  obtain ⟨hlead, next, hnext, htrail⟩ := h
  obtain ⟨rest, rfl⟩ := List.head?_eq_some_iff.1 hnext
  exact ⟨_, toWellFormed_pair hlead htrail rest⟩

theorem not_pairs_of_not_isLead (h : isLead unit = false) (rest : List Nat) :
    ¬ Pairs unit rest := by
  rintro ⟨hlead, -⟩
  rw [h] at hlead
  cases hlead

theorem toWellFormed_plain (h : isSurrogate unit = false) (rest : List Nat) :
    toWellFormed (unit :: rest) = unit :: toWellFormed rest := by
  rw [isSurrogate, Bool.or_eq_false_iff] at h
  rw [toWellFormed_cons (not_pairs_of_not_isLead h.1 rest), isSurrogate, h.1, h.2]
  rfl

theorem length_toWellFormed (text : List Nat) : (toWellFormed text).length = text.length := by
  fun_induction toWellFormed text with
  | case1 => rfl
  | case2 => rfl
  | case3 unit next rest _ ih => rw [List.length_cons, List.length_cons, ih]; rfl
  | case4 unit next rest _ ih => rw [List.length_cons, ih]; rfl

/-! ## Units of characters -/

theorem unitsOfCode_of_lt {code : Nat} (h : code < 0x10000) : unitsOfCode code = [code] := if_pos h

theorem unitsOfChar_eq (c : Char) : unitsOfChar c = unitsOfCode c.toNat := rfl

theorem not_isSurrogate_toNat (c : Char) : isSurrogate c.toNat = false := by
  have hvalid : c.toNat.isValidChar := c.valid
  rw [Bool.eq_false_iff]
  intro h
  rw [isSurrogate_iff] at h
  rcases hvalid with hlow | ⟨hhigh, -⟩ <;> omega

theorem toNat_lt (c : Char) : c.toNat < 0x110000 := by
  have hvalid : c.toNat.isValidChar := c.valid
  rcases hvalid with hlow | ⟨-, hmax⟩ <;> omega

theorem unitsOfCode_pair {code : Nat} (hlow : 0x10000 ≤ code) (hhigh : code < 0x110000) :
    ∃ lead trail, unitsOfCode code = [lead, trail] ∧ isLead lead = true ∧ isTrail trail = true := by
  refine ⟨_, _, if_neg (Nat.not_lt.2 hlow), isLead_iff.2 ?_, isTrail_iff.2 ?_⟩ <;> omega

/-- The units of a text stay, whatever follows. -/
theorem toWellFormed_unitsOfChar (c : Char) (rest : List Nat) :
    toWellFormed (unitsOfChar c ++ rest) = unitsOfChar c ++ toWellFormed rest := by
  rw [unitsOfChar_eq]
  rcases Nat.lt_or_ge c.toNat 0x10000 with hlow | hhigh
  · rw [unitsOfCode_of_lt hlow]
    exact toWellFormed_plain (not_isSurrogate_toNat c) rest
  · obtain ⟨lead, trail, hunits, hlead, htrail⟩ := unitsOfCode_pair hhigh (toNat_lt c)
    rw [hunits]
    exact toWellFormed_pair hlead htrail rest

theorem toWellFormed_units_append (text : List Char) (rest : List Nat) :
    toWellFormed (units text ++ rest) = units text ++ toWellFormed rest := by
  induction text with
  | nil => rfl
  | cons c text ih =>
      rw [units, List.flatMap_cons, List.append_assoc, toWellFormed_unitsOfChar, ← units, ih,
        List.append_assoc]

example : toWellFormed [0xD800, 0xD83D, 0xDE00, 0xDE00, 0x41] =
    [0xFFFD, 0xD83D, 0xDE00, 0xFFFD, 0x41] := by decide

end TypeSchema.Text
