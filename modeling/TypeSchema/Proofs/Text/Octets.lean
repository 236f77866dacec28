/-!
# Octets of text

The eight-bit encoding of text, byte by byte.  Bytes are ordered as the characters are that they
encode, so texts compare alike by either.
-/

namespace TypeSchema.Text

def octets (text : String) : List UInt8 := text.toUTF8.data.toList

theorem octets_ofList (chars : List Char) :
    octets (String.ofList chars) = chars.flatMap String.utf8EncodeChar := by
  rw [octets, String.toUTF8_eq_toByteArray, String.toByteArray_ofList, List.utf8Encode]
  exact List.toList_data_toByteArray

theorem octets_eq (text : String) :
    octets text = text.toList.flatMap String.utf8EncodeChar := by
  rw [← octets_ofList, String.ofList_toList]

theorem octets_eq_iff {text : String} {bytes : List UInt8} :
    octets text = bytes ↔ text.toByteArray = ⟨bytes.toArray⟩ := by
  rw [octets, String.toUTF8_eq_toByteArray]
  constructor
  · rintro rfl
    rfl
  · intro h
    rw [h]

theorem fromUTF8?_eq_some_iff {bytes : List UInt8} {text : String} :
    String.fromUTF8? ⟨bytes.toArray⟩ = some text ↔ octets text = bytes := by
  rw [octets_eq_iff]
  unfold String.fromUTF8?
  split
  · rw [Option.some.injEq, ← String.toByteArray_inj, eq_comm]
    rfl
  · rename_i hinvalid
    refine ⟨fun h => absurd h (by simp), fun h => absurd ?_ hinvalid⟩
    rw [← h]
    exact text.isValidUTF8

/-! ## Order -/

/-- Bytes are compared from the left, the later ones where the first ones agree. -/
theorem ofNat_cons_lt {a b : Nat} {s t : List UInt8} (hle : a ≤ b) (hb : b < 256)
    (htail : a = b → s < t) : UInt8.ofNat a :: s < UInt8.ofNat b :: t := by
  rw [List.cons_lt_cons_iff]
  rcases Nat.lt_or_eq_of_le hle with hlt | heq
  · left
    rw [UInt8.lt_iff_toNat_lt, UInt8.toNat_ofNat', UInt8.toNat_ofNat']
    omega
  · exact .inr ⟨congrArg UInt8.ofNat heq, htail heq⟩

/-- The encoding of a smaller character differs in a smaller byte, whatever follows. -/
theorem utf8EncodeChar_append_lt {c d : Char} (h : c < d) (s t : List UInt8) :
    String.utf8EncodeChar c ++ s < String.utf8EncodeChar d ++ t := by
  have hlt : c.val.toNat < d.val.toNat := UInt32.lt_iff_toNat_lt.1 h
  have hmax : d.val.toNat < 0x110000 := by
    have hvalid := d.valid
    simp only [UInt32.isValidChar, Nat.isValidChar] at hvalid
    omega
  unfold String.utf8EncodeChar
  dsimp only
  -- A longer encoding begins with a greater byte; of two as long the first different byte decides.
  repeat' split
  all_goals
    simp only [List.cons_append, List.nil_append]
    repeat (refine ofNat_cons_lt (by omega) (by omega) fun _ => ?_)
    omega

theorem octets_lt {s t : String} (h : s < t) : octets s < octets t := by
  rw [octets_eq, octets_eq]
  replace h : s.toList < t.toList := h
  generalize s.toList = cs at h
  generalize t.toList = ds at h
  induction cs generalizing ds with
  | nil =>
    cases ds with
    | nil => exact absurd h (by decide)
    | cons d ds =>
      obtain ⟨byte, bytes, hbytes⟩ :=
        List.exists_cons_of_ne_nil (String.utf8EncodeChar_ne_nil (c := d))
      rw [List.flatMap_cons, hbytes]
      exact List.nil_lt_cons _ _
  | cons c cs ih =>
    cases ds with
    | nil => cases h
    | cons d ds =>
      rw [List.flatMap_cons, List.flatMap_cons]
      rcases List.cons_lt_cons_iff.1 h with hlt | ⟨rfl, hrest⟩
      · exact utf8EncodeChar_append_lt hlt _ _
      · exact List.append_left_lt (ih ds hrest)

end TypeSchema.Text
