import TypeSchema.Proofs.Json.Scanning
import TypeSchema.Run

/-!
# Values that come from texts

The integers in a draft of a text have 64 bits, since longer ones are read as real numbers.  A value
made from such a draft is therefore one that the program can hold, and its containers nest no deeper
than it was allowed to.
-/

namespace TypeSchema

namespace Draft

variable {text : List Char} {d : Draft} {n : Number} {room : Nat} {v : Json}

/-! ## Numbers in drafts -/

mutual

def numbers : Draft → List Number
  | .num value => [value]
  | .arr items _ => numbersOfItems items
  | .obj fields _ => numbersOfFields fields
  | _ => []
termination_by structural draft => draft

def numbersOfItems : List Draft → List Number
  | [] => []
  | item :: rest => numbers item ++ numbersOfItems rest
termination_by structural items => items

/-- What stands in the place of a key is not looked at. -/
def numbersOfFields : List (Draft × Draft) → List Number
  | [] => []
  | (_, draft) :: rest => numbers draft ++ numbersOfFields rest
termination_by structural fields => fields

end

def IsHeld (d : Draft) : Prop := ∀ n ∈ d.numbers, n.isHeld = true

theorem isHeld_num : (Draft.num n).IsHeld ↔ n.isHeld = true := by
  simp [IsHeld, numbers]

theorem isHeld_leaf {d : Draft} (h : d.numbers = []) : d.IsHeld := by
  rw [IsHeld, h]
  exact List.forall_mem_nil _

theorem isHeld_arr {items : List Draft} {cut : Option Cut} :
    (Draft.arr items cut).IsHeld ↔ ∀ item ∈ items, item.IsHeld := by
  change (∀ n ∈ numbersOfItems items, n.isHeld = true) ↔ _
  induction items with
  | nil => simp [numbersOfItems]
  | cons item rest ih =>
    rw [numbersOfItems, List.forall_mem_append, List.forall_mem_cons, ih]
    rfl

theorem isHeld_obj {fields : List (Draft × Draft)} {cut : Option Cut} :
    (Draft.obj fields cut).IsHeld ↔ ∀ field ∈ fields, field.2.IsHeld := by
  change (∀ n ∈ numbersOfFields fields, n.isHeld = true) ↔ _
  induction fields with
  | nil => simp [numbersOfFields]
  | cons field rest ih =>
    rw [numbersOfFields, List.forall_mem_append, List.forall_mem_cons, ih]
    rfl

/-! ## Drafts of texts -/

theorem Numeral.isHeld_number {parts : Numeral} (h : parts.number = some n) : n.isHeld = true := by
  unfold Numeral.number at h
  dsimp only at h
  generalize Digits.value 10 (parts.whole ++ parts.fraction) = digits at h
  have hreal : ∀ {x : Option Binary64}, x.map Number.real = some n → n.isHeld = true := by
    intro x hx
    obtain ⟨x, -, rfl⟩ := Option.map_eq_some_iff.1 hx
    rfl
  split at h
  · split at h
    · rename_i hfits
      cases h
      simp only [Bool.and_eq_true, decide_eq_true_eq] at hfits
      simp only [Number.isHeld, Bool.and_eq_true, decide_eq_true_eq]
      omega
    · exact hreal h
  · split at h
    · rename_i hfits
      cases h
      simp only [Bool.and_eq_true, decide_eq_true_eq] at hfits
      simp only [Number.isHeld, Bool.and_eq_true, decide_eq_true_eq]
      omega
    · exact hreal h

theorem isHeld_missingDigit (rest : List Char) : (missingDigit rest).1.IsHeld :=
  isHeld_leaf rfl

theorem isHeld_ended (parts : Numeral) (rest : List Char) : (ended parts rest).1.IsHeld := by
  unfold ended
  split
  · rename_i hnumber
    exact isHeld_num.2 (Numeral.isHeld_number hnumber)
  · exact isHeld_leaf rfl

theorem isHeld_scanPower (parts : Numeral) (negative : Bool) (text : List Char) :
    (scanPower parts negative text).1.IsHeld := by
  unfold scanPower
  dsimp only
  split
  · exact isHeld_missingDigit _
  · exact isHeld_ended _ _

theorem isHeld_scanExponent (parts : Numeral) (text : List Char) :
    (scanExponent parts text).1.IsHeld := by
  cases text with
  | nil => exact isHeld_ended parts []
  | cons c text =>
    by_cases hmark : c = 'e' ∨ c = 'E'
    · rw [scanExponent_mark hmark]
      exact isHeld_scanPower _ _ _
    · rw [scanExponent_ended hmark]
      exact isHeld_ended _ _

theorem isHeld_scanFraction (parts : Numeral) (text : List Char) :
    (scanFraction parts text).1.IsHeld := by
  unfold scanFraction
  dsimp only
  split
  · split
    · exact isHeld_missingDigit _
    · exact isHeld_scanExponent _ _
  · exact isHeld_scanExponent _ _

theorem isHeld_scanMagnitude (negative : Bool) (text : List Char) :
    (scanMagnitude negative text).1.IsHeld := by
  unfold scanMagnitude
  dsimp only
  split
  · exact isHeld_missingDigit _
  · exact isHeld_leaf rfl
  · exact isHeld_scanFraction _ _

theorem isHeld_scanWord {draft : Draft} (h : draft.IsHeld) (word text : List Char) :
    (scanWord draft word text).1.IsHeld := by
  induction word generalizing text with
  | nil => exact h
  | cons w word ih =>
    cases text with
    | nil => exact isHeld_leaf rfl
    | cons c text =>
      rw [scanWord]
      split
      · exact ih text
      · exact isHeld_leaf rfl

theorem isHeld_scanString (text : List Char) : (scanString text).1.IsHeld := by
  unfold scanString
  split
  · split <;> exact isHeld_leaf rfl
  · split <;> exact isHeld_leaf rfl

theorem isHeld_scan_all (fuel : Nat) :
    (∀ text, (scanValue fuel text).1.IsHeld) ∧
      (∀ text, ∀ item ∈ (scanItems fuel text).1, item.IsHeld) ∧
      (∀ text, ∀ field ∈ (scanFields fuel text).1, field.2.IsHeld) := by
  induction fuel with
  | zero =>
    exact ⟨fun _ => isHeld_leaf rfl, fun _ => List.forall_mem_nil _, fun _ => List.forall_mem_nil _⟩
  | succ fuel ih =>
    obtain ⟨hvalue, hitems, hfields⟩ := ih
    refine ⟨fun text => ?_, fun text => ?_, fun text => ?_⟩
    · rw [scanValue]
      split
      · exact isHeld_leaf rfl
      · exact isHeld_scanWord (isHeld_leaf (show Draft.null.numbers = [] from rfl)) _ _
      · exact isHeld_scanWord (isHeld_leaf (show (Draft.bool true).numbers = [] from rfl)) _ _
      · exact isHeld_scanWord (isHeld_leaf (show (Draft.bool false).numbers = [] from rfl)) _ _
      · exact isHeld_scanString _
      · split
        · exact isHeld_leaf rfl
        · exact isHeld_leaf rfl
        · exact isHeld_arr.2 (hitems _)
      · split
        · exact isHeld_leaf rfl
        · exact isHeld_leaf rfl
        · exact isHeld_obj.2 (hfields _)
      · exact isHeld_scanMagnitude _ _
      · split
        · exact isHeld_scanMagnitude _ _
        · exact isHeld_leaf rfl
    · have hitem := hvalue text
      rw [scanItems]
      generalize scanValue fuel text = scanned at hitem
      dsimp only
      split
      · exact List.forall_mem_singleton.2 hitem
      · exact List.forall_mem_singleton.2 hitem
      · exact List.forall_mem_singleton.2 hitem
      · exact List.forall_mem_cons.2 ⟨hitem, hitems _⟩
      · exact List.forall_mem_singleton.2 hitem
    · have hlost : (Draft.badWord .malformed (some .malformed)).IsHeld := isHeld_leaf rfl
      rw [scanFields.eq_def]
      dsimp only
      split
      · split
        · exact List.forall_mem_singleton.2 hlost
        · split
          · exact List.forall_mem_singleton.2 (isHeld_leaf rfl)
          · rename_i rest _
            have hfield := hvalue rest
            generalize scanValue fuel rest = scanned at hfield
            split
            · exact List.forall_mem_singleton.2 hfield
            · exact List.forall_mem_singleton.2 hfield
            · exact List.forall_mem_singleton.2 hfield
            · exact List.forall_mem_cons.2 ⟨hfield, hfields _⟩
            · exact List.forall_mem_singleton.2 hfield
          · exact List.forall_mem_singleton.2 hlost
      · exact List.forall_mem_singleton.2 hlost

theorem isHeld_ofText (text : String) : (ofText text).IsHeld := (isHeld_scan_all _).1 _

/-! ## Values of drafts -/

/-- What holds of a container if it holds of its parts, keys apart, holds of all drafts. -/
@[elab_as_elim]
theorem induction {motive : Draft → Prop} (null : motive .null) (bool : ∀ b, motive (.bool b))
    (num : ∀ n, motive (.num n)) (str : ∀ s, motive (.str s)) (unset : motive .unset)
    (badText : ∀ read skip, motive (.badText read skip))
    (badWord : ∀ read skip, motive (.badWord read skip))
    (arr : ∀ items cut, (∀ item ∈ items, motive item) → motive (.arr items cut))
    (obj : ∀ fields cut, (∀ field ∈ fields, motive field.2) → motive (.obj fields cut))
    (d : Draft) : motive d :=
  @Draft.rec motive (fun items => ∀ item ∈ items, motive item)
    (fun fields => ∀ field ∈ fields, motive field.2) (fun field => motive field.2)
    null bool num str unset badText badWord arr obj
    (List.forall_mem_nil _) (fun _ _ hitem hrest => List.forall_mem_cons.2 ⟨hitem, hrest⟩)
    (List.forall_mem_nil _) (fun _ _ hfield hrest => List.forall_mem_cons.2 ⟨hfield, hrest⟩)
    (fun _ _ _ hvalue => hvalue) d

theorem forall_toItems {P : Json → Prop} {items : List Draft} {cut : Option Cut}
    {values : List Json} (h : ∀ item ∈ items, ∀ v, item.toJson room = .ok v → P v)
    (hvalues : toItems items cut room = .ok values) : ∀ v ∈ values, P v := by
  induction items generalizing values with
  | nil =>
    cases cut with
    | none =>
      cases hvalues
      exact List.forall_mem_nil _
    | some cut => cases hvalues
  | cons item items ih =>
    obtain ⟨hitem, hitems⟩ := List.forall_mem_cons.1 h
    rw [toItems] at hvalues
    simp only [outcome_bind_eq_ok] at hvalues
    obtain ⟨v, hv, rest, hrest, hvalues⟩ := hvalues
    cases hvalues
    exact List.forall_mem_cons.2 ⟨hitem v hv, ih hitems hrest⟩

/-- Fields with different keys whose values pass a test, built up from such fields. -/
theorem forall_toFields {P : Json → Prop} {fields : List (Draft × Draft)} {cut : Option Cut}
    {read values : Entries String Json} (hkeys : read.keys.Nodup)
    (hread : ∀ field ∈ read, P field.2)
    (h : ∀ field ∈ fields, ∀ v, field.2.toJson room = .ok v → P v)
    (hvalues : toFields fields cut room read = .ok values) :
    values.keys.Nodup ∧ ∀ field ∈ values, P field.2 := by
  induction fields generalizing read with
  | nil =>
    cases cut with
    | none =>
      cases hvalues
      exact ⟨hkeys, hread⟩
    | some cut => cases hvalues
  | cons field fields ih =>
    obtain ⟨hfield, hfields⟩ := List.forall_mem_cons.1 h
    simp only [toFields, outcome_bind_eq_ok] at hvalues
    obtain ⟨key, -, v, hv, hvalues⟩ := hvalues
    refine ih (Entries.nodup_keys_insert hkeys key v) (fun entry hentry => ?_) hfields hvalues
    rcases Entries.mem_of_mem_insert hentry with rfl | hold
    · exact hfield v hv
    · exact hread entry hold

theorem fitsIn_toJson (hd : d.IsHeld) (h : d.toJson room = .ok v) : v.FitsIn room := by
  induction d using Draft.induction generalizing room v with
  | null =>
    cases h
    exact .null
  | bool b =>
    cases h
    exact .bool b
  | str s =>
    cases h
    exact .str s
  | num n =>
    cases h
    exact .num (isHeld_num.1 hd)
  | unset | badText | badWord => cases h
  | arr items cut ih =>
    cases room with
    | zero => cases h
    | succ room =>
      obtain ⟨values, hvalues, rfl⟩ := outcome_map_eq_ok.1 h
      exact .arr (forall_toItems (fun item hitem v => ih item hitem (isHeld_arr.1 hd item hitem))
        hvalues)
  | obj fields cut ih =>
    cases room with
    | zero => cases h
    | succ room =>
      obtain ⟨values, hvalues, rfl⟩ := outcome_map_eq_ok.1 h
      have hnone : (Entries.keys ([] : Entries String Json)).Nodup := List.nodup_nil
      obtain ⟨hkeys, hfits⟩ := forall_toFields hnone (List.forall_mem_nil _)
        (fun field hfield v => ih field hfield (isHeld_obj.1 hd field hfield)) hvalues
      exact .obj hkeys hfits

end Draft

theorem Json.fitsIn_parse {text : List Char} {v : Json} (h : Json.parse text = some v) :
    v.FitsIn Draft.maxDepth := by
  have hheld : (Draft.scan text).1.IsHeld := (Draft.isHeld_scan_all _).1 text
  unfold Json.parse at h
  split at h
  · rename_i draft rest hscan
    rw [hscan] at hheld
    split at h
    · cases hv : draft.toJson Draft.maxDepth with
      | error fault => simp [hv, Except.toOption] at h
      | ok value =>
        rw [hv] at h
        cases h
        exact Draft.fitsIn_toJson hheld hv
    · cases h
  · cases h

end TypeSchema
