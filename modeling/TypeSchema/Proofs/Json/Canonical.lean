import TypeSchema.Document
import TypeSchema.Proofs.Json.Reading
import TypeSchema.Proofs.Text.Octets

/-!
# Canonical text

The order of the entries of objects is lost in the text of a document, at any depth, and nothing
else is: the text is read back as the value with the keys of every object in order.
-/

namespace TypeSchema.Json

/-- The second value is the first with entries of objects permuted, at any depth.  The items of
lists stay where they are. -/
inductive Rearranged : Json → Json → Prop
  | refl (v : Json) : Rearranged v v
  | trans {u v w : Json} (h : Rearranged u v) (h' : Rearranged v w) : Rearranged u w
  | entries {fields fields' : List (String × Json)} (h : fields.Perm fields') :
      Rearranged (.obj fields) (.obj fields')
  | item {v w : Json} (before after : List Json) (h : Rearranged v w) :
      Rearranged (.arr (before ++ v :: after)) (.arr (before ++ w :: after))
  | field {v w : Json} (before after : List (String × Json)) (key : String) (h : Rearranged v w) :
      Rearranged (.obj (before ++ (key, v) :: after)) (.obj (before ++ (key, w) :: after))

namespace Rearranged

variable {v w : Json}

/-! ## What is kept -/

theorem mem_numbers (h : Rearranged v w) (n : Number) : n ∈ v.numbers ↔ n ∈ w.numbers := by
  induction h with
  | refl v => rfl
  | trans _ _ ih ih' => rw [ih, ih']
  | entries hperm =>
    simp only [numbers_obj, List.mem_flatMap, hperm.mem_iff]
  | item before after _ ih =>
    simp only [numbers_arr, List.flatMap_append, List.flatMap_cons, List.mem_append, ih]
  | field before after key _ ih =>
    simp only [numbers_obj, List.flatMap_append, List.flatMap_cons, List.mem_append, ih]

theorem keysDiffer_iff (h : Rearranged v w) :
    v.everyObject keysDiffer = true ↔ w.everyObject keysDiffer = true := by
  induction h with
  | refl v => rfl
  | trans _ _ ih ih' => rw [ih, ih']
  | entries hperm =>
    rw [everyObject_obj, everyObject_obj, keysDiffer, keysDiffer, decide_eq_true_eq,
      decide_eq_true_eq]
    exact and_congr (hperm.map Prod.fst).nodup_iff (by simp only [hperm.mem_iff])
  | item before after _ ih =>
    simp only [everyObject_arr, List.forall_mem_append, List.forall_mem_cons, ih]
  | field before after key _ ih =>
    simp only [everyObject_obj, keysDiffer, Entries.keys, List.map_append, List.map_cons,
      List.forall_mem_append, List.forall_mem_cons, ih]

theorem depth_le_iff (h : Rearranged v w) (room : Nat) : v.depth ≤ room ↔ w.depth ≤ room := by
  induction h generalizing room with
  | refl v => rfl
  | trans _ _ ih ih' => rw [ih, ih']
  | entries hperm =>
    cases room with
    | zero => exact iff_of_false (Nat.not_succ_le_zero _) (Nat.not_succ_le_zero _)
    | succ room => simp only [depth_obj_le, hperm.mem_iff]
  | item before after _ ih =>
    cases room with
    | zero => exact iff_of_false (Nat.not_succ_le_zero _) (Nat.not_succ_le_zero _)
    | succ room => simp only [depth_arr_le, List.forall_mem_append, List.forall_mem_cons, ih]
  | field before after key _ ih =>
    cases room with
    | zero => exact iff_of_false (Nat.not_succ_le_zero _) (Nat.not_succ_le_zero _)
    | succ room => simp only [depth_obj_le, List.forall_mem_append, List.forall_mem_cons, ih]

/-! ## Containers of rearranged values -/

theorem items (write : Json → Json) (before : List Json) {items : List Json}
    (h : ∀ item ∈ items, Rearranged item (write item)) :
    Rearranged (.arr (before ++ items)) (.arr (before ++ items.map write)) := by
  induction items generalizing before with
  | nil => exact .refl _
  | cons item items ih =>
    obtain ⟨hitem, hitems⟩ := List.forall_mem_cons.1 h
    have hrest := ih (before ++ [write item]) hitems
    rw [List.append_assoc, List.append_assoc] at hrest
    exact .trans (.item before items hitem) hrest

theorem fields (write : Json → Json) (before : List (String × Json)) {fields : List (String × Json)}
    (h : ∀ field ∈ fields, Rearranged field.2 (write field.2)) :
    Rearranged (.obj (before ++ fields))
      (.obj (before ++ fields.map fun field => (field.1, write field.2))) := by
  induction fields generalizing before with
  | nil => exact .refl _
  | cons field fields ih =>
    obtain ⟨hfield, hfields⟩ := List.forall_mem_cons.1 h
    have hrest := ih (before ++ [(field.1, write field.2)]) hfields
    rw [List.append_assoc, List.append_assoc] at hrest
    exact .trans (.field before fields field.1 hfield) hrest

end Rearranged

/-! ## Sorted keys -/

def byKey (a b : String × Json) : Bool := decide (a.1 ≤ b.1)

theorem sortKeys_arr (items : List Json) : sortKeys (.arr items) = .arr (items.map sortKeys) := by
  have hitems : sortKeysItems items = items.map sortKeys := by
    induction items with
    | nil => rfl
    | cons item items ih => rw [sortKeysItems, ih, List.map_cons]
  rw [sortKeys, hitems]

theorem sortKeys_obj (fields : List (String × Json)) :
    sortKeys (.obj fields) =
      .obj ((fields.map fun field => (field.1, sortKeys field.2)).mergeSort byKey) := by
  have hfields : sortKeysFields fields = fields.map fun field => (field.1, sortKeys field.2) := by
    induction fields with
    | nil => rfl
    | cons field fields ih => rw [sortKeysFields, ih, List.map_cons]
  rw [sortKeys, hfields]
  rfl

theorem sortKeys_rearranged (v : Json) : Rearranged v (sortKeys v) := by
  induction v using Json.induction with
  | null => exact .refl _
  | bool b => exact .refl _
  | num n => exact .refl _
  | str s => exact .refl _
  | arr items ih =>
    rw [sortKeys_arr]
    exact .items sortKeys [] ih
  | obj fields ih =>
    rw [sortKeys_obj]
    exact .trans (.fields sortKeys [] ih) (.entries (List.mergeSort_perm _ _).symm)

theorem pairwise_byKey (fields : List (String × Json)) :
    (fields.mergeSort byKey).Pairwise fun a b => a.1 ≤ b.1 := by
  have htrans : ∀ a b c, byKey a b = true → byKey b c = true → byKey a c = true :=
    fun _ _ _ h h' => decide_eq_true (String.le_trans (of_decide_eq_true h) (of_decide_eq_true h'))
  have htotal : ∀ a b, (byKey a b || byKey b a) = true := fun a b => by
    simpa [byKey] using String.le_total a.1 b.1
  exact (List.pairwise_mergeSort htrans htotal fields).imp of_decide_eq_true

/-- Sorting leaves nothing of the order in which the fields stood, if their keys differ. -/
theorem mergeSort_eq {fields fields' : List (String × Json)} (h : fields.Perm fields')
    (hkeys : (Entries.keys fields).Nodup) : fields.mergeSort byKey = fields'.mergeSort byKey := by
  have hperm : (fields.mergeSort byKey).Perm (fields'.mergeSort byKey) :=
    (List.mergeSort_perm _ _).trans (h.trans (List.mergeSort_perm _ _).symm)
  refine hperm.eq_of_pairwise (fun a b ha hb hle hle' => ?_) (pairwise_byKey fields)
    (pairwise_byKey fields')
  have ha := (List.mergeSort_perm _ _).mem_iff.1 ha
  have hb := h.mem_iff.2 ((List.mergeSort_perm _ _).mem_iff.1 hb)
  obtain ⟨key, v⟩ := a
  obtain ⟨key', w⟩ := b
  obtain rfl : key = key' := String.le_antisymm hle hle'
  rw [← Entries.find?_eq_some_iff_mem hkeys] at ha hb
  rw [Option.some.inj (ha.symm.trans hb)]

theorem sortKeys_eq {v w : Json} (h : Rearranged v w) (hkeys : v.everyObject keysDiffer = true) :
    sortKeys v = sortKeys w := by
  induction h with
  | refl v => rfl
  | trans h _ ih ih' => rw [ih hkeys, ih' (h.keysDiffer_iff.1 hkeys)]
  | @entries fields fields' hperm =>
    have hnodup : (Entries.keys fields).Nodup := of_decide_eq_true (everyObject_obj.1 hkeys).1
    rw [sortKeys_obj, sortKeys_obj, mergeSort_eq (hperm.map _)]
    rw [Entries.keys, List.map_map]
    exact hnodup
  | @item v w before after _ ih =>
    have hv : v.everyObject keysDiffer = true := everyObject_arr.1 hkeys v (by simp)
    rw [sortKeys_arr, sortKeys_arr, List.map_append, List.map_cons, ih hv, List.map_append,
      List.map_cons]
  | @field v w before after key _ ih =>
    have hv : v.everyObject keysDiffer = true := (everyObject_obj.1 hkeys).2 (key, v) (by simp)
    rw [sortKeys_obj, sortKeys_obj, List.map_append, List.map_cons, ih hv, List.map_append,
      List.map_cons]

/-- The keys increase from field to field, compared byte by byte. -/
def keysIncrease (fields : List (String × Json)) : Bool :=
  decide ((Entries.keys fields).Pairwise fun a b => Text.octets a < Text.octets b)

theorem keysIncrease_mergeSort {fields : List (String × Json)}
    (h : (Entries.keys fields).Nodup) : keysIncrease (fields.mergeSort byKey) = true := by
  have hnodup : (Entries.keys (fields.mergeSort byKey)).Nodup :=
    ((List.mergeSort_perm fields byKey).map Prod.fst).nodup_iff.2 h
  refine decide_eq_true (List.pairwise_map.2 ?_)
  refine ((pairwise_byKey fields).and (List.pairwise_map.1 hnodup)).imp ?_
  rintro a b ⟨hle, hne⟩
  have hlt : a.1 < b.1 :=
    Decidable.byContradiction fun h => hne (String.le_antisymm hle (String.not_lt.1 h))
  exact Text.octets_lt hlt

theorem everyObject_sortKeys {v : Json} (hkeys : v.everyObject keysDiffer = true) :
    (sortKeys v).everyObject keysIncrease = true := by
  induction v using Json.induction with
  | null => rfl
  | bool b => rfl
  | num n => rfl
  | str s => rfl
  | arr items ih =>
    rw [sortKeys_arr, everyObject_arr, List.forall_mem_map]
    exact fun item hitem => ih item hitem (everyObject_arr.1 hkeys item hitem)
  | obj fields ih =>
    obtain ⟨hdiffer, hfields⟩ := everyObject_obj.1 hkeys
    rw [sortKeys_obj, everyObject_obj]
    constructor
    · refine keysIncrease_mergeSort ?_
      rw [Entries.keys, List.map_map]
      exact of_decide_eq_true hdiffer
    · intro field hfield
      rw [(List.mergeSort_perm _ _).mem_iff, List.mem_map] at hfield
      obtain ⟨old, hold, rfl⟩ := hfield
      exact ih old hold (hfields old hold)

end TypeSchema.Json

namespace TypeSchema.Document

open Json

variable {d d' : Definition}

theorem text_eq_of_rearranged (hkeys : d.toJson.everyObject keysDiffer = true)
    (h : Rearranged d.toJson d'.toJson) : text d' = text d := by
  rw [text, text, documentText, documentText, sortKeys_eq h hkeys]

theorem parse_text (hheld : d.toJson.IsHeld) (hdepth : d.toJson.depth ≤ Draft.maxDepth)
    (hreals : d.toJson.RealsReadBack) :
    Json.parse (text d).toList = some (sortKeys d.toJson) := by
  have hsorted := sortKeys_rearranged d.toJson
  have hnumbers : ∀ n ∈ (sortKeys d.toJson).numbers, n.readsBack = true := fun n hn =>
    hheld.numbers.readsBack hreals n ((hsorted.mem_numbers n).2 hn)
  rw [text, documentText, String.toList_ofList]
  exact (Draft.scans_indented hnumbers 0).parse (Draft.isBlank_singleton rfl)
    (hsorted.keysDiffer_iff.1 hheld.keys) ((hsorted.depth_le_iff _).1 hdepth)

/--
Definitions that differ in the order of entries alone have the same text, and the text of a
definition is read back as the definition with all keys in order.
-/
theorem text_canonical (hheld : d.toJson.IsHeld) :
    (∀ d' : Definition, Rearranged d.toJson d'.toJson → text d' = text d) ∧
      (d.toJson.depth ≤ Draft.maxDepth → d.toJson.RealsReadBack →
        ∃ v, Json.parse (text d).toList = some v ∧ Rearranged d.toJson v ∧
          v.everyObject keysIncrease = true) :=
  ⟨fun _ => text_eq_of_rearranged hheld.keys, fun hdepth hreals =>
    ⟨_, parse_text hheld hdepth hreals, sortKeys_rearranged _, everyObject_sortKeys hheld.keys⟩⟩

/-! ## A range -/

def oneHalf : Binary64 := ⟨false, Nat.pow 2 52, 1021, by decide⟩

/-- A definition whose keys are out of order on two levels. -/
def rangeDefinition : Definition where
  entries := [
    ("ä\n", .obj [("b", .arr [.int 2, .int (-1)]), ("a", .arr [])]),
    ("minimum", .num (.real oneHalf))]
  nodup := by decide

def sortedRange : Definition where
  entries := [
    ("minimum", .num (.real oneHalf)),
    ("ä\n", .obj [("a", .arr []), ("b", .arr [.int 2, .int (-1)])])]
  nodup := by decide

theorem range_rearranged : Rearranged rangeDefinition.toJson sortedRange.toJson :=
  .trans (.entries (.swap _ _ _))
    (.field [("minimum", .num (.real oneHalf))] [] "ä\n" (.entries (.swap _ _ _)))

theorem text_canonical_range :
    rangeDefinition.toJson.IsHeld ∧ rangeDefinition.toJson.depth ≤ Draft.maxDepth ∧
      rangeDefinition.toJson.RealsReadBack ∧
      Rearranged rangeDefinition.toJson sortedRange.toJson ∧
      text sortedRange = text rangeDefinition ∧
      ∃ v, Json.parse (text rangeDefinition).toList = some v ∧
        Rearranged rangeDefinition.toJson v ∧ v.everyObject keysIncrease = true := by
  have hnumbers : ∀ n ∈ rangeDefinition.toJson.numbers, n.isHeld = true ∧ n.readsBack = true := by
    decide +kernel
  have hheld : rangeDefinition.toJson.IsHeld :=
    ⟨fun n hn => (hnumbers n hn).1, by decide +kernel⟩
  have hdepth : rangeDefinition.toJson.depth ≤ Draft.maxDepth := by decide +kernel
  have hreals : rangeDefinition.toJson.RealsReadBack := fun x hx => (hnumbers (.real x) hx).2
  obtain ⟨hrearranged, hread⟩ := text_canonical hheld
  exact ⟨hheld, hdepth, hreals, range_rearranged, hrearranged _ range_rearranged,
    hread hdepth hreals⟩

end TypeSchema.Document
