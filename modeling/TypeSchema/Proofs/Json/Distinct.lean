import Mathlib.Data.List.Forall2
import Mathlib.Data.List.Induction
import TypeSchema.Proofs.Json.Sameness

/-!
# Removing repeats

Being the same is an equivalence on values whose objects have different keys.  Of the values in a
list that are the same the first one stays, and what stays keeps its order.
-/

namespace TypeSchema

namespace Number

variable {m n o : Number}

theorem same_symm (h : m.same n = true) : n.same m = true := by
  cases m <;> cases n
  · exact beq_iff_eq.2 (eq_of_beq h).symm
  · cases h
  · cases h
  · exact (Binary64.same_symm _ _).trans h

theorem same_trans (h : m.same n = true) (h' : n.same o = true) : m.same o = true := by
  cases m <;> cases n <;> cases o
  case int.int.int => rwa [eq_of_beq h]
  case real.real.real => exact Binary64.same_trans h h'
  all_goals first | cases h | cases h'

end Number

namespace Json

variable {u v w : Json} {items items' values : List Json}

/-! ## Equivalence -/

theorem sameItems_iff : sameItems items items' = true ↔ items.length = items'.length ∧
    ∀ i (h : i < items.length) (h' : i < items'.length), items[i].same items'[i] = true := by
  have hrelated : sameItems items items' = true ↔
      List.Forall₂ (fun item item' => item.same item' = true) items items' := by
    induction items generalizing items' with
    | nil => cases items' <;> simp [sameItems]
    | cons item rest ih => cases items' <;> simp [sameItems, ih]
  rw [hrelated, List.forall₂_iff_get]
  rfl

theorem same_symm (hv : KeysDiffer v) (hw : KeysDiffer w) (h : v.same w = true) :
    w.same v = true := by
  induction v using Json.induction generalizing w with
  | null => cases w <;> first | rfl | cases h
  | bool b =>
      cases w with
      | bool b' => exact beq_iff_eq.2 (eq_of_beq h).symm
      | _ => cases h
  | str s =>
      cases w with
      | str s' => exact beq_iff_eq.2 (eq_of_beq h).symm
      | _ => cases h
  | num n =>
      cases w with
      | num n' => exact Number.same_symm h
      | _ => cases h
  | arr items ih =>
      cases w with
      | arr items' =>
          obtain ⟨hlength, hsame⟩ := sameItems_iff.1 h
          refine sameItems_iff.2 ⟨hlength.symm, fun i hi' hi => ?_⟩
          exact ih _ (List.getElem_mem hi) (everyObject_arr.1 hv _ (List.getElem_mem hi))
            (everyObject_arr.1 hw _ (List.getElem_mem hi')) (hsame i hi hi')
      | _ => cases h
  | obj fields ih =>
      cases w with
      | obj fields' =>
          refine (same_obj_iff hw.nodup hv.nodup).2 fun key => ?_
          have hagree := (same_obj_iff hv.nodup hw.nodup).1 h key
          cases hfield : Entries.find? key fields <;> cases hfield' : Entries.find? key fields' <;>
            simp only [hfield, hfield', agree_none_none, agree_some_some, not_agree_some_none,
              not_agree_none_some] at hagree ⊢
          exact ih _ (Entries.mem_of_find?_eq_some hfield) (hv.find? hfield) (hw.find? hfield')
            hagree
      | _ => cases h

theorem same_trans (hu : KeysDiffer u) (hv : KeysDiffer v) (hw : KeysDiffer w)
    (h : u.same v = true) (h' : v.same w = true) : u.same w = true := by
  induction u using Json.induction generalizing v w with
  | null => cases v <;> first | exact h' | cases h
  | bool b =>
      cases v with
      | bool b' => rwa [eq_of_beq h]
      | _ => cases h
  | str s =>
      cases v with
      | str s' => rwa [eq_of_beq h]
      | _ => cases h
  | num n =>
      cases v with
      | num n' =>
          cases w with
          | num n'' => exact Number.same_trans h h'
          | _ => cases h'
      | _ => cases h
  | arr items ih =>
      cases v with
      | arr items' =>
          cases w with
          | arr items'' =>
              obtain ⟨hlength, hsame⟩ := sameItems_iff.1 h
              obtain ⟨hlength', hsame'⟩ := sameItems_iff.1 h'
              refine sameItems_iff.2 ⟨hlength.trans hlength', fun i hi hi'' => ?_⟩
              have hi' : i < items'.length := hlength ▸ hi
              exact ih _ (List.getElem_mem hi) (everyObject_arr.1 hu _ (List.getElem_mem hi))
                (everyObject_arr.1 hv _ (List.getElem_mem hi'))
                (everyObject_arr.1 hw _ (List.getElem_mem hi'')) (hsame i hi hi')
                (hsame' i hi' hi'')
          | _ => cases h'
      | _ => cases h
  | obj fields ih =>
      cases v with
      | obj fields' =>
          cases w with
          | obj fields'' =>
              refine (same_obj_iff hu.nodup hw.nodup).2 fun key => ?_
              have hagree := (same_obj_iff hu.nodup hv.nodup).1 h key
              have hagree' := (same_obj_iff hv.nodup hw.nodup).1 h' key
              cases hfield : Entries.find? key fields <;>
                cases hfield' : Entries.find? key fields' <;>
                cases hfield'' : Entries.find? key fields'' <;>
                simp only [hfield, hfield', hfield'', agree_none_none, agree_some_some,
                  not_agree_some_none, not_agree_none_some] at hagree hagree' ⊢
              exact ih _ (Entries.mem_of_find?_eq_some hfield) (hu.find? hfield)
                (hv.find? hfield') (hw.find? hfield'') hagree hagree'
          | _ => cases h'
      | _ => cases h

/-! ## What stays -/

theorem distinct_concat (values : List Json) (value : Json) :
    distinct (values ++ [value]) =
      if elem value (distinct values) then distinct values else distinct values ++ [value] := by
  rw [distinct, List.foldl_append]
  rfl

theorem mem_of_mem_distinct (h : v ∈ distinct values) : v ∈ values := by
  unfold distinct at h
  revert h
  refine List.foldlRecOn (motive := fun kept => v ∈ kept → v ∈ values) values _
    (fun h => absurd h List.not_mem_nil) fun kept hkept next hnext h => ?_
  split at h
  · exact hkept h
  · rcases List.mem_append.1 h with hold | hnew
    · exact hkept hold
    · exact List.mem_singleton.1 hnew ▸ hnext

theorem distinct_pairwise (values : List Json) :
    (distinct values).Pairwise fun a b => a.same b = false := by
  unfold distinct
  refine List.foldlRecOn (motive := List.Pairwise fun a b => same a b = false) values _ .nil
    fun kept hkept value _ => ?_
  split
  · exact hkept
  · rename_i hnew
    refine List.pairwise_append.2 ⟨hkept, List.pairwise_singleton _ _, fun old hold new hmem => ?_⟩
    rw [List.mem_singleton.1 hmem]
    exact Bool.eq_false_iff.2 fun hsame => hnew (List.any_eq_true.2 ⟨old, hold, hsame⟩)

theorem distinct_ne_nil (h : values ≠ []) : distinct values ≠ [] := by
  cases values with
  | nil => exact absurd rfl h
  | cons first rest =>
      change List.foldl _ [first] rest ≠ []
      refine List.foldlRecOn (motive := (· ≠ [])) rest _ (List.cons_ne_nil first [])
        fun kept hkept value _ => ?_
      split
      · exact hkept
      · exact List.append_ne_nil_of_left_ne_nil hkept _

theorem any_foldl_distinct {test : Json → Bool} {kept : List Json}
    (h : ∀ a ∈ kept ++ values, ∀ b ∈ values, a.same b = true → test a = test b) :
    (values.foldl (fun kept value => if elem value kept then kept else kept ++ [value]) kept).any
      test = (kept.any test || values.any test) := by
  induction values generalizing kept with
  | nil => rw [List.foldl_nil, List.any_nil, Bool.or_false]
  | cons value rest ih =>
      have hrest : ∀ b ∈ rest, b ∈ value :: rest := fun b => List.mem_cons_of_mem value
      have hkept : kept ++ rest ⊆ kept ++ value :: rest :=
        ((List.sublist_cons_self value rest).append_left kept).subset
      rw [List.foldl_cons, List.any_cons]
      split
      · rename_i hold
        obtain ⟨old, hmem, hsame⟩ := List.any_eq_true.1 hold
        have hvalue := h old (List.mem_append_left _ hmem) value List.mem_cons_self hsame
        rw [ih fun a ha b hb => h a (hkept ha) b (hrest b hb)]
        cases htest : test value with
        | false => rw [Bool.false_or]
        | true =>
            have hany : kept.any test = true := List.any_eq_true.2 ⟨old, hmem, hvalue.trans htest⟩
            rw [hany, Bool.true_or, Bool.true_or]
      · rw [ih fun a ha b hb => h a (by rwa [← List.append_cons] at ha) b (hrest b hb),
          List.any_append, List.any_cons, List.any_nil, Bool.or_false, Bool.or_assoc]

/-- A test that tells no values apart that are the same is not hurt by removing repeats. -/
theorem any_distinct {test : Json → Bool}
    (h : ∀ a ∈ values, ∀ b ∈ values, a.same b = true → test a = test b) :
    (distinct values).any test = values.any test :=
  any_foldl_distinct h

section

variable (hvalues : ∀ value ∈ values, KeysDiffer value)
include hvalues

theorem elem_distinct (hv : KeysDiffer v) : elem v (distinct values) = elem v values := by
  refine any_distinct fun a ha b hb hab => Bool.eq_iff_iff.2 ⟨fun h => ?_, fun h => ?_⟩
  · exact same_trans (hvalues b hb) (hvalues a ha) hv
      (same_symm (hvalues a ha) (hvalues b hb) hab) h
  · exact same_trans (hvalues a ha) (hvalues b hb) hv hab h

theorem distinct_apart : (distinct values).Pairwise fun a b =>
    a.same b = false ∧ b.same a = false := by
  refine (distinct_pairwise values).imp_of_mem fun {a b} ha hb hdiffers => ⟨hdiffers, ?_⟩
  rw [Bool.eq_false_iff] at hdiffers ⊢
  exact fun h => hdiffers (same_symm (hvalues b (mem_of_mem_distinct hb))
    (hvalues a (mem_of_mem_distinct ha)) h)

/-- Each value that occurs stays once. -/
theorem countP_distinct (hv : v ∈ values) : (distinct values).countP (·.same v) = 1 := by
  have hkeys (w : Json) (hw : w ∈ distinct values) : KeysDiffer w :=
    hvalues w (mem_of_mem_distinct hw)
  have helem : elem v (distinct values) = true :=
    (elem_distinct hvalues (hvalues v hv)).trans
      (List.any_eq_true.2 ⟨v, hv, same_refl (hvalues v hv)⟩)
  obtain ⟨w, hw, hsame⟩ := List.any_eq_true.1 helem
  have hkept : w ∈ (distinct values).filter (·.same v) := List.mem_filter.2 ⟨hw, hsame⟩
  have halone : ((distinct values).filter (·.same v)).Pairwise fun _ _ => False := by
    refine ((distinct_pairwise values).filter _).imp_of_mem fun {a b} ha hb hdiffers => ?_
    obtain ⟨ha, hav⟩ := List.mem_filter.1 ha
    obtain ⟨hb, hbv⟩ := List.mem_filter.1 hb
    have hvb := same_symm (hkeys b hb) (hvalues v hv) hbv
    exact Bool.eq_false_iff.1 hdiffers (same_trans (hkeys a ha) (hvalues v hv) (hkeys b hb) hav hvb)
  rw [List.countP_eq_length_filter]
  match hfilter : (distinct values).filter (·.same v) with
  | [] => rw [hfilter] at hkept; cases hkept
  | [_] => rw [hfilter, List.length_singleton]
  | a :: b :: rest =>
      rw [hfilter] at halone
      exact (List.rel_of_pairwise_cons halone List.mem_cons_self).elim

end

theorem distinct_eq_self (h : values.Pairwise fun a b => a.same b = false) :
    distinct values = values := by
  induction values using List.reverseRecOn with
  | nil => rfl
  | append_singleton rest value ih =>
      obtain ⟨hrest, -, hvalue⟩ := List.pairwise_append.1 h
      have hnew : elem value rest = false := List.any_eq_false.2 fun a ha => by
        simp [hvalue a ha value List.mem_cons_self]
      rw [distinct_concat, ih hrest, hnew, if_neg Bool.false_ne_true]

/-! ## Where it stood -/

/-- The place in a list where a value first occurs. -/
def firstPlace (v : Json) (values : List Json) : Nat := values.findIdx (·.same v)

theorem firstPlace_lt (hv : KeysDiffer v) (h : v ∈ values) : firstPlace v values < values.length :=
  List.findIdx_lt_length.2 ⟨v, h, same_refl hv⟩

theorem firstPlace_append (hv : KeysDiffer v) (h : v ∈ values) (later : List Json) :
    firstPlace v (values ++ later) = firstPlace v values := by
  have hlt : values.findIdx (·.same v) < values.length := firstPlace_lt hv h
  rw [firstPlace, List.findIdx_append, if_pos hlt, firstPlace]

theorem le_firstPlace_append (h : elem v values = false) (later : List Json) :
    values.length ≤ firstPlace v (values ++ later) := by
  have hnone : ¬ values.findIdx (·.same v) < values.length := fun hlt => by
    obtain ⟨w, hw, hsame⟩ := List.findIdx_lt_length.1 hlt
    exact List.any_eq_false.1 h w hw hsame
  rw [firstPlace, List.findIdx_append, if_neg hnone]
  exact Nat.le_add_left _ _

/-- What stays stood before all that is the same. -/
theorem find?_of_mem_distinct (hvalues : ∀ value ∈ values, KeysDiffer value)
    (h : v ∈ distinct values) : values.find? (·.same v) = some v := by
  induction values using List.reverseRecOn with
  | nil => cases h
  | append_singleton rest value ih =>
      obtain ⟨hrest, hvalue⟩ := List.forall_mem_append.1 hvalues
      have hkeys := hvalue value List.mem_cons_self
      rw [List.find?_append]
      rw [distinct_concat] at h
      split at h
      · rw [ih hrest h, Option.some_or]
      · rename_i hnew
        rcases List.mem_append.1 h with hold | hlast
        · rw [ih hrest hold, Option.some_or]
        · rw [elem_distinct hrest hkeys, Bool.not_eq_true] at hnew
          rw [List.mem_singleton.1 hlast, List.find?_eq_none.2 (List.any_eq_false.1 hnew),
            Option.none_or]
          exact List.find?_cons_of_pos (same_refl hkeys)

/-- What stays keeps its order. -/
theorem distinct_firstPlace (hvalues : ∀ value ∈ values, KeysDiffer value) :
    (distinct values).Pairwise fun a b => firstPlace a values < firstPlace b values := by
  induction values using List.reverseRecOn with
  | nil => exact .nil
  | append_singleton rest value ih =>
      obtain ⟨hrest, hvalue⟩ := List.forall_mem_append.1 hvalues
      have hplace (a : Json) (ha : a ∈ distinct rest) :
          firstPlace a (rest ++ [value]) = firstPlace a rest :=
        firstPlace_append (hrest a (mem_of_mem_distinct ha)) (mem_of_mem_distinct ha) _
      have hold : (distinct rest).Pairwise fun a b =>
          firstPlace a (rest ++ [value]) < firstPlace b (rest ++ [value]) :=
        (ih hrest).imp_of_mem fun {a b} ha hb hlt => by rwa [hplace a ha, hplace b hb]
      rw [distinct_concat]
      split
      · exact hold
      · rename_i hnew
        rw [elem_distinct hrest (hvalue value List.mem_cons_self), Bool.not_eq_true] at hnew
        refine List.pairwise_append.2 ⟨hold, List.pairwise_singleton _ _, fun a ha b hb => ?_⟩
        rw [List.mem_singleton.1 hb, hplace a ha]
        exact Nat.lt_of_lt_of_le
          (firstPlace_lt (hrest a (mem_of_mem_distinct ha)) (mem_of_mem_distinct ha))
          (le_firstPlace_append hnew _)

end Json

end TypeSchema
