import TypeSchema.Definition.EnumDeclaration
import TypeSchema.Proofs.Json.Distinct
import TypeSchema.Proofs.Text.Order

/-!
# Sorted values

The values of an enum are those of the list without repeats, in the order of their texts, and values
with the same text in the order in which they first came.
-/

namespace TypeSchema

theorem Json.keysDiffer_of_isScalar {v : Json} (h : v.isScalar = true) : v.KeysDiffer := by
  cases v <;> first | rfl | cases h

namespace EnumValues

variable {values result : List Json} {key key' : Json → List Char}

/-- A sort moves nothing among elements of which each may stand before each. -/
theorem filter_mergeSort {α : Type} {le : α → α → Bool} {p : α → Bool}
    (htrans : ∀ a b c, le a b = true → le b c = true → le a c = true)
    (htotal : ∀ a b, (le a b || le b a) = true) (h : ∀ a b, p a = true → p b = true → le a b = true)
    (elements : List α) : (elements.mergeSort le).filter p = elements.filter p := by
  have hordered : (elements.filter p).Pairwise fun a b => le a b = true :=
    List.pairwise_of_forall_mem_list fun a ha b hb =>
      h a b (List.mem_filter.1 ha).2 (List.mem_filter.1 hb).2
  have hsub : (elements.filter p).Sublist ((elements.mergeSort le).filter p) := by
    have hsorted := List.sublist_mergeSort htrans htotal hordered List.filter_sublist
    simpa using hsorted.filter p
  exact (hsub.eq_of_length ((List.mergeSort_perm elements le).filter p).length_eq.symm).symm

/-- Two elements of a list stand in it one before the other. -/
theorem pair_sublist_or {α : Type} {a b : α} {elements : List α} (ha : a ∈ elements)
    (hb : b ∈ elements) (hne : a ≠ b) : [a, b].Sublist elements ∨ [b, a].Sublist elements := by
  induction elements with
  | nil => cases ha
  | cons c rest ih =>
      rcases List.mem_cons.1 ha with rfl | harest
      · have hbrest := (List.mem_cons.1 hb).resolve_left hne.symm
        exact .inl ((List.singleton_sublist.2 hbrest).cons_cons a)
      · rcases List.mem_cons.1 hb with rfl | hbrest
        · exact .inr ((List.singleton_sublist.2 harest).cons_cons b)
        · exact (ih harest hbrest).imp (.cons c) (.cons c)

theorem precedes_trans (a b c : Json) (h : precedes a b = true) (h' : precedes b c = true) :
    precedes a c = true :=
  Text.unitsLE_trans h h'

theorem precedes_total (a b : Json) : (precedes a b || precedes b a) = true :=
  Text.unitsLE_total _ _

theorem sort_perm (values : List Json) : (sort values).Perm (Json.distinct values) :=
  List.mergeSort_perm _ _

/-! ## What an arrangement is -/

/-- The result has every value of the list once, as it first came, in the order of the keys; values
with the same key stand in the order in which they first came. -/
structure Arranges (key : Json → List Char) (values result : List Json) : Prop where
  first : ∀ v ∈ result, values.find? (·.same v) = some v
  once : ∀ v ∈ values, result.countP (·.same v) = 1
  ordered : result.Pairwise fun a b => Text.unitsLE (key a) (key b) = true
  stable : result.Pairwise fun a b =>
    key a = key b → Json.firstPlace a values < Json.firstPlace b values

/-- Only the keys of the values in the list matter. -/
theorem Arranges.congr (h : Arranges key values result) (hkeys : ∀ v ∈ values, key v = key' v) :
    Arranges key' values result := by
  have hmem (v : Json) (hv : v ∈ result) : key v = key' v :=
    hkeys v (List.mem_of_find?_eq_some (h.first v hv))
  exact {
    first := h.first
    once := h.once
    ordered := h.ordered.imp_of_mem fun {a b} ha hb hle => by rwa [← hmem a ha, ← hmem b hb]
    stable := h.stable.imp_of_mem fun {a b} ha hb hplace heq =>
      hplace (by rwa [hmem a ha, hmem b hb]) }

/-! ## Sorting -/

/-- Values with the same text keep their order. -/
theorem filter_sort (text : List Char) (values : List Json) :
    (sort values).filter (fun v => decide (sortKey v = text)) =
      (Json.distinct values).filter fun v => decide (sortKey v = text) := by
  refine filter_mergeSort precedes_trans precedes_total (fun a b ha hb => ?_) _
  rw [precedes, of_decide_eq_true ha, of_decide_eq_true hb]
  exact Text.unitsLE_refl text

theorem arranges_sort (h : ∀ v ∈ values, v.KeysDiffer) : Arranges sortKey values (sort values) where
  first v hv := Json.find?_of_mem_distinct h ((sort_perm values).mem_iff.1 hv)
  once v hv := ((sort_perm values).countP_eq _).trans (Json.countP_distinct h hv)
  ordered := List.pairwise_mergeSort precedes_trans precedes_total _
  stable := by
    rw [List.pairwise_iff_forall_sublist]
    intro a b hpair heq
    -- Within the values of one text nothing moves, and both are among these.
    have hfilter := hpair.filter fun v => decide (sortKey v = sortKey b)
    rw [filter_sort, List.filter_eq_self.2 (by simp [heq])] at hfilter
    exact List.pairwise_iff_forall_sublist.1 (Json.distinct_firstPlace h)
      (hfilter.trans List.filter_sublist)

theorem sort_sort (h : ∀ v ∈ values, v.KeysDiffer) : sort (sort values) = sort values := by
  have hapart : (sort values).Pairwise fun a b => a.same b = false ∧ b.same a = false :=
    ((sort_perm values).pairwise_iff fun hab => hab.symm).2 (Json.distinct_apart h)
  rw [sort, Json.distinct_eq_self (hapart.imp And.left)]
  exact List.mergeSort_of_pairwise (arranges_sort h).ordered

theorem mem_of_mem_sort {v : Json} (hv : v ∈ sort values) : v ∈ values :=
  Json.mem_of_mem_distinct ((sort_perm values).mem_iff.1 hv)

/-- A value that no other value is the same as stays. -/
theorem mem_sort {v : Json} (h : ∀ v ∈ values, v.KeysDiffer) (halone : ∀ w, w.same v = true → w = v)
    (hv : v ∈ values) : v ∈ sort values := by
  have hone := (arranges_sort h).once v hv
  obtain ⟨w, hw, hsame⟩ := List.countP_pos_iff.1 (hone ▸ Nat.one_pos)
  rwa [← halone w hsame]

/-- Texts on which the orders by units and by codes differ stand in the order by units. -/
theorem pair_sublist_sort (h : ∀ v ∈ values, v.KeysDiffer) {s t : String}
    (hdiffer : Text.OrdersDiffer s.toList t.toList) (hs : .str s ∈ values) (ht : .str t ∈ values) :
    [.str t, .str s].Sublist (sort values) := by
  obtain ⟨hbefore, hbehind⟩ := hdiffer.unitsLE
  have hne : Json.str t ≠ .str s := fun heq => by
    rw [Json.str.inj heq, Text.unitsLE_refl] at hbehind
    cases hbehind
  refine (pair_sublist_or (mem_sort h (fun _ => Json.eq_str_of_same) ht)
    (mem_sort h (fun _ => Json.eq_str_of_same) hs) hne).resolve_right fun hpair => ?_
  have hle : Text.unitsLE s.toList t.toList = true :=
    List.pairwise_iff_forall_sublist.1 (arranges_sort h).ordered hpair
  exact Bool.false_ne_true (hbehind.symm.trans hle)

/-- Sorting arranges the values by their texts, once and for all; where the order of the units is
not that of the bytes it is the units that count. -/
theorem sort_arranges (h : ∀ v ∈ values, v.KeysDiffer) :
    Arranges sortKey values (sort values) ∧ sort (sort values) = sort values ∧
      ∀ s t : String, Text.OrdersDiffer s.toList t.toList → .str s ∈ values → .str t ∈ values →
        Text.octets s < Text.octets t ∧ [.str t, .str s].Sublist (sort values) := by
  refine ⟨arranges_sort h, sort_sort h, fun s t hdiffer hs ht => ⟨?_, ?_⟩⟩
  · simpa using hdiffer.octets_lt
  · exact pair_sublist_sort h hdiffer hs ht

/-- Values with repeats, with one text in common, and with texts on which the orders differ. -/
def mixedValues : List Json :=
  [.str "\uE000", .str "1", .int 10, .int 1, .str "😀", .obj [("a", .int 1), ("b", .null)], .int 10,
    .obj [("b", .null), ("a", .int 1)], .arr [.null, .int 1]]

theorem sort_arranges_mixed : (∀ v ∈ mixedValues, v.KeysDiffer) ∧
    Text.OrdersDiffer "\uE000".toList "😀".toList ∧
    Arranges sortKey mixedValues (sort mixedValues) ∧
    sort (sort mixedValues) = sort mixedValues ∧
    Text.octets "\uE000" < Text.octets "😀" ∧
    [.str "😀", .str "\uE000"].Sublist (sort mixedValues) := by
  have hkeys : ∀ v ∈ mixedValues, v.KeysDiffer := by decide +kernel
  have hdiffer : Text.OrdersDiffer "\uE000".toList "😀".toList :=
    .intro [] [] [] (by decide) (by decide) (by decide)
  obtain ⟨harranges, hagain, hunits⟩ := sort_arranges hkeys
  exact ⟨hkeys, hdiffer, harranges, hagain,
    hunits _ _ hdiffer (by simp [mixedValues]) (by simp [mixedValues])⟩

end EnumValues

end TypeSchema
