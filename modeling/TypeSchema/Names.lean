/-!
# Sorted names

Lists of names in strictly increasing order of their codes, built one name at a time.
-/

namespace TypeSchema.Names

def insert (name : String) : List String → List String
  | [] => [name]
  | n :: rest =>
    if name = n then n :: rest
    else if name < n then name :: n :: rest
    else n :: insert name rest

def ofList (names : List String) : List String := names.foldl (fun all name => insert name all) []

theorem mem_insert {name n : String} {names : List String} :
    n ∈ insert name names ↔ n = name ∨ n ∈ names := by
  induction names with
  | nil => simp [insert]
  | cons m rest ih =>
    unfold insert
    split
    · rename_i h
      subst h
      simp
    · split
      · simp
      · simp only [List.mem_cons, ih]
        constructor
        · rintro (h | h | h)
          · exact .inr (.inl h)
          · exact .inl h
          · exact .inr (.inr h)
        · rintro (h | h | h)
          · exact .inr (.inl h)
          · exact .inl h
          · exact .inr (.inr h)

theorem pairwise_insert (name : String) {names : List String} (h : names.Pairwise (· < ·)) :
    (insert name names).Pairwise (· < ·) := by
  induction names with
  | nil => simp [insert]
  | cons m rest ih =>
    obtain ⟨hm, hrest⟩ := List.pairwise_cons.1 h
    unfold insert
    split
    · exact h
    · rename_i hne
      split
      · rename_i hlt
        refine List.pairwise_cons.2 ⟨fun n hn => ?_, h⟩
        rcases List.mem_cons.1 hn with rfl | hn
        · exact hlt
        · exact String.lt_trans hlt (hm n hn)
      · rename_i hlt
        refine List.pairwise_cons.2 ⟨fun n hn => ?_, ih hrest⟩
        rcases mem_insert.1 hn with rfl | hn
        · rcases Decidable.em (m < n) with hmn | hmn
          · exact hmn
          · exact absurd (String.le_antisymm hmn hlt) hne
        · exact hm n hn

end TypeSchema.Names
