/-!
# Digits

Naturals written in a base up to sixteen and read back.  Letters of either case are digits above
nine.
-/

namespace TypeSchema.Digits

def write (n : Nat) : List Char := Nat.toDigits 10 n

def writeInt (i : Int) : List Char :=
  match i with
  | .ofNat n => write n
  | .negSucc n => '-' :: write (n + 1)

def digitValue (c : Char) : Nat :=
  if '0' ≤ c ∧ c ≤ '9' then c.toNat - '0'.toNat
  else if 'a' ≤ c ∧ c ≤ 'f' then c.toNat - 'a'.toNat + 10
  else if 'A' ≤ c ∧ c ≤ 'F' then c.toNat - 'A'.toNat + 10
  else 16

def isDigit (base : Nat) (c : Char) : Bool := decide (digitValue c < base)

def valueFrom (base : Nat) (read : Nat) (digits : List Char) : Nat :=
  digits.foldl (fun n c => base * n + digitValue c) read

def value (base : Nat) (digits : List Char) : Nat := valueFrom base 0 digits

/-- Refuses the empty text and any character that is no digit of the base. -/
def read? (base : Nat) (digits : List Char) : Option Nat :=
  if !digits.isEmpty && digits.all (isDigit base) then some (value base digits) else none

theorem isDigit_ten (c : Char) : isDigit 10 c = c.isDigit := by
  unfold isDigit digitValue Char.isDigit
  by_cases h : '0' ≤ c ∧ c ≤ '9'
  · have h0 : 48 ≤ c.toNat := by simpa [Char.le_def, UInt32.le_iff_toNat_le] using h.1
    have h9 : c.toNat ≤ 57 := by simpa [Char.le_def, UInt32.le_iff_toNat_le] using h.2
    have : c.toNat - 48 < 10 := by omega
    simp only [h, and_self, if_true]
    simp [h0, h9, this, UInt32.le_iff_toNat_le]
  · have h' : ¬ (48 ≤ c.toNat ∧ c.toNat ≤ 57) := by
      simpa [Char.le_def, UInt32.le_iff_toNat_le] using h
    simp only [h, if_false]
    have : ¬ (c.val ≥ 48 ∧ c.val ≤ 57) := by
      simpa [UInt32.le_iff_toNat_le] using h'
    rw [decide_eq_false]
    · simp only [ge_iff_le, Bool.false_eq]
      simpa [UInt32.le_iff_toNat_le] using h'
    · split
      · omega
      · split <;> omega

/-! ## Reading back -/

theorem isDigit_of_mem_write {n : Nat} {c : Char} (h : c ∈ write n) : c.isDigit = true :=
  Nat.isDigit_of_mem_toDigits (by decide) (by decide) h

theorem digitValue_of_isDigit {c : Char} (h : c.isDigit = true) :
    digitValue c = c.toNat - '0'.toNat := by
  rw [digitValue, if_pos]
  simpa [Char.isDigit, Char.le_def] using h

theorem valueFrom_eq_ofDigitChars {digits : List Char} (h : ∀ c ∈ digits, c.isDigit = true)
    (read : Nat) : valueFrom 10 read digits = Nat.ofDigitChars 10 digits read := by
  induction digits generalizing read with
  | nil => rfl
  | cons c rest ih =>
    rw [Nat.ofDigitChars_cons, ← ih (fun d hd => h d (List.mem_cons_of_mem c hd)),
      ← digitValue_of_isDigit (h c List.mem_cons_self)]
    rfl

theorem value_write (n : Nat) : value 10 (write n) = n := by
  rw [value, valueFrom_eq_ofDigitChars fun _ => isDigit_of_mem_write]
  exact Nat.ofDigitChars_ten_toDigits

theorem eq_zero_of_head?_write {n : Nat} (h : (write n).head? = some '0') : n = 0 := by
  induction n using Nat.strongRecOn with
  | _ n ih =>
    by_cases hsmall : n < 10
    · rw [write, Nat.toDigits_of_lt_base hsmall, List.head?_cons, Option.some.injEq] at h
      exact Nat.digitChar_eq_zero.1 h
    · have hhead : (write (n / 10)).head? = some '0' := by
        obtain ⟨c, digits, heq⟩ := List.exists_cons_of_ne_nil (Nat.toDigits_ne_nil (n := n / 10))
        rw [write, Nat.toDigits_of_base_le (by decide) (by omega), heq] at h
        rwa [write, heq]
      have := ih (n / 10) (by omega) hhead
      omega

end TypeSchema.Digits
