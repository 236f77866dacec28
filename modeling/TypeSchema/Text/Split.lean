/-!
# Splitting text

A text cut at every separator: what stands before the first one, and what follows each.  A text cut
behind a run of characters with a property: the run ends where such a character is missing.
-/

namespace TypeSchema.Text

def split (separator : Char) : List Char → List Char × List (List Char)
  | [] => ([], [])
  | c :: rest =>
    let (first, others) := split separator rest
    if c = separator then ([], first :: others) else (c :: first, others)

theorem split_of_not_mem {separator : Char} {text : List Char} (h : separator ∉ text) :
    split separator text = (text, []) := by
  induction text with
  | nil => rfl
  | cons c rest ih =>
    rw [List.mem_cons, not_or] at h
    simp [split, ih h.2, Ne.symm h.1]

theorem split_append_cons (separator : Char) (before after : List Char) :
    split separator (before ++ separator :: after) =
      ((split separator before).1,
        (split separator before).2 ++
          (split separator after).1 :: (split separator after).2) := by
  induction before with
  | nil => simp [split]
  | cons c rest ih =>
    simp only [List.cons_append, split, ih]
    split <;> simp

theorem not_mem_split (separator : Char) (text : List Char) :
    separator ∉ (split separator text).1 ∧
      ∀ part ∈ (split separator text).2, separator ∉ part := by
  induction text with
  | nil => simp [split]
  | cons c rest ih =>
    by_cases h : c = separator
    · simpa [split, h] using ih
    · simpa [split, h, Ne.symm h] using ih

/-- The parts with the separators between them are the text again. -/
theorem intercalate_split (separator : Char) (text : List Char) :
    [separator].intercalate ((split separator text).1 :: (split separator text).2) = text := by
  induction text with
  | nil => rfl
  | cons c rest ih =>
    by_cases h : c = separator
    · simp only [split, h, if_true]
      rw [List.intercalate_cons_cons, ih]
      rfl
    · simp only [split, h, if_false]
      revert ih
      generalize (split separator rest).1 = first
      generalize (split separator rest).2 = others
      intro ih
      cases others with
      | nil => simpa [List.intercalate] using ih
      | cons second others =>
        rw [List.intercalate_cons_cons] at ih ⊢
        simp only [List.cons_append, ih]

/-- A text that has a character is cut where the character stands for the last time. -/
theorem exists_last_of_mem {separator : Char} {text : List Char} (h : separator ∈ text) :
    ∃ before after, text = before ++ separator :: after ∧ separator ∉ after := by
  obtain ⟨after, before, heq, hafter⟩ := List.eq_append_cons_of_mem (List.mem_reverse.2 h)
  refine ⟨before.reverse, after.reverse, ?_, fun hmem => hafter (List.mem_reverse.1 hmem)⟩
  rw [← List.reverse_reverse text, heq]
  simp

/-! ## Runs -/

section

variable {α : Type} {p : α → Bool} {before run after : List α}

theorem takeWhile_before (hafter : ∀ a ∈ after.head?, p a = false) :
    (before ++ after).takeWhile p = before.takeWhile p := by
  induction before with
  | nil =>
    cases after with
    | nil => rfl
    | cons a after => simp [hafter a rfl]
  | cons b before ih =>
    rw [List.cons_append, List.takeWhile_cons, List.takeWhile_cons, ih]

theorem dropWhile_before (hafter : ∀ a ∈ after.head?, p a = false) :
    (before ++ after).dropWhile p = before.dropWhile p ++ after := by
  induction before with
  | nil =>
    cases after with
    | nil => rfl
    | cons a after => simp [hafter a rfl]
  | cons b before ih =>
    rw [List.cons_append, List.dropWhile_cons, List.dropWhile_cons, ih]
    split
    · rfl
    · rw [List.cons_append]

theorem takeWhile_run (hrun : ∀ a ∈ run, p a = true) (hafter : ∀ a ∈ after.head?, p a = false) :
    (run ++ after).takeWhile p = run := by
  rw [takeWhile_before hafter, ← List.append_nil run, List.takeWhile_append_of_pos hrun]
  simp

theorem dropWhile_run (hrun : ∀ a ∈ run, p a = true) (hafter : ∀ a ∈ after.head?, p a = false) :
    (run ++ after).dropWhile p = after := by
  rw [dropWhile_before hafter, ← List.append_nil run, List.dropWhile_append_of_pos hrun]
  simp

end

end TypeSchema.Text
