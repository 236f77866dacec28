/-!
# Classes of characters as ranges

A class of characters is a list of code ranges in increasing order, both ends included.
-/

namespace TypeSchema.Text

abbrev Ranges := List (Nat × Nat)

/-- The ranges increase, so the search ends at the first range above the code. -/
def Ranges.contains (code : Nat) : Ranges → Bool
  | [] => false
  | (low, high) :: rest =>
    if code < low then false else if code ≤ high then true else Ranges.contains code rest

theorem Ranges.exists_of_contains {code : Nat} {ranges : Ranges} (h : ranges.contains code = true) :
    ∃ range ∈ ranges, range.1 ≤ code ∧ code ≤ range.2 := by
  induction ranges with
  | nil => cases h
  | cons range rest ih =>
    obtain ⟨low, high⟩ := range
    simp only [contains] at h
    split at h
    · cases h
    · rename_i hlow
      split at h
      · rename_i hhigh
        exact ⟨(low, high), List.mem_cons_self, Nat.not_lt.1 hlow, hhigh⟩
      · obtain ⟨range, hmem, hrange⟩ := ih h
        exact ⟨range, List.mem_cons_of_mem _ hmem, hrange⟩

/-- No code is in a range of each of the two classes. -/
def Ranges.apart (first second : Ranges) : Bool :=
  first.all fun a => second.all fun b => a.2 < b.1 || b.2 < a.1

theorem Ranges.not_contains_of_apart {first second : Ranges} (h : first.apart second = true)
    {code : Nat} (hfirst : first.contains code = true) : second.contains code = false := by
  rw [Bool.eq_false_iff]
  intro hsecond
  obtain ⟨a, ha, hlow, hhigh⟩ := exists_of_contains hfirst
  obtain ⟨b, hb, hlow', hhigh'⟩ := exists_of_contains hsecond
  have hapart := List.all_eq_true.1 (List.all_eq_true.1 h a ha) b hb
  simp only [Bool.or_eq_true, decide_eq_true_eq] at hapart
  omega

end TypeSchema.Text
