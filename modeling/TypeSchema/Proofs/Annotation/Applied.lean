import TypeSchema.Annotation
import TypeSchema.Proofs.Json.Sameness

/-!
# Annotations that are applied

A keyword is laid over what a definition has under it: fields of an object are added to those of an
object that is there, and all else takes its place.
-/

namespace TypeSchema.Annotations

open Json (KeysDiffer)

variable {d : Definition} {notes : Annotations} {key : String} {value : Json} {old : Option Json}

/-- What a value of a keyword becomes in a definition. -/
def overlay : Option Json → Json → Json
  | some (.obj existing), .obj nested => .obj (Entries.merge existing nested)
  | _, value => value

/-- What stands under a keyword once a value is written there, or none. -/
def laid (value old : Option Json) : Option Json := (value.map (overlay old)).or old

theorem applyKeyword_eq (d : Definition) (keyword : String) (value : Json) :
    applyKeyword d keyword value = d.insert keyword (overlay (d.find? keyword) value) := by
  unfold applyKeyword
  split
  · rename_i hexisting
    rw [hexisting, overlay]
  · rename_i hother
    rw [overlay]
    exact fun existing nested hexisting hvalue => hother existing nested hexisting hvalue

/-- The definition with the description, but without the keywords. -/
def withDescription (notes : Annotations) (d : Definition) : Definition :=
  { notes with keywords := ∅ }.applyTo d

theorem find?_foldl_applyKeyword {entries : Entries String Json} (h : entries.keys.Nodup)
    (d : Definition) (key : String) :
    (entries.foldl (fun d entry => applyKeyword d entry.1 entry.2) d).find? key =
      laid (Entries.find? key entries) (d.find? key) := by
  induction entries generalizing d with
  | nil => rfl
  | cons entry rest ih =>
      obtain ⟨name, value⟩ := entry
      obtain ⟨hname, hrest⟩ := List.nodup_cons.1 h
      rw [List.foldl_cons, ih hrest, applyKeyword_eq, Dict.find?_insert]
      by_cases hkey : key = name
      · subst hkey
        simp [laid, Entries.find?, Entries.find?_eq_none_iff.2 hname]
      · simp [Entries.find?, hkey, Ne.symm hkey]

theorem find?_applyTo (notes : Annotations) (d : Definition) (key : String) :
    (notes.applyTo d).find? key =
      laid (notes.keywords.find? key) ((notes.withDescription d).find? key) :=
  find?_foldl_applyKeyword notes.keywords.nodup _ key

theorem overlay_of_not_object (h : ∀ fields, old ≠ some (.obj fields)) (value : Json) :
    overlay old value = value := by
  unfold overlay
  split
  · exact absurd rfl (h _)
  · rfl

theorem find?_withDescription_ne_object (h : ∀ key fields, d.find? key ≠ some (.obj fields))
    (key : String) (fields : Entries String Json) :
    (notes.withDescription d).find? key ≠ some (.obj fields) := by
  unfold withDescription applyTo
  dsimp only
  split
  · change (d.insert _ _).find? key ≠ _
    rw [Dict.find?_insert]
    split
    · simp
    · exact h key fields
  · exact h key fields

/-- Keywords are written as they are where no objects stand that they could be merged into. -/
theorem find?_applyTo_of_not_object (h : ∀ key fields, d.find? key ≠ some (.obj fields))
    (hkey : key ∈ notes.keywords.keys) :
    (notes.applyTo d).find? key = notes.keywords.find? key := by
  obtain ⟨value, hvalue⟩ := Dict.mem_keys_iff.1 hkey
  rw [find?_applyTo, hvalue, laid, Option.map_some, Option.some_or,
    overlay_of_not_object (find?_withDescription_ne_object h key)]

/-! ## Keys that differ -/

theorem keysDiffer_overlay (hold : ∀ v, old = some v → KeysDiffer v) (h : KeysDiffer value) :
    KeysDiffer (overlay old value) := by
  unfold overlay
  split
  · exact (hold _ rfl).merge h
  · exact h

theorem keysDiffer_withDescription (h : KeysDiffer d.toJson) :
    KeysDiffer (notes.withDescription d).toJson := by
  unfold withDescription applyTo
  dsimp only
  split
  · exact h.insert _ rfl
  · exact h

theorem keysDiffer_laid {value : Option Json} (hvalue : ∀ v, value = some v → KeysDiffer v)
    (hold : ∀ v, old = some v → KeysDiffer v) :
    ∀ v, laid value old = some v → KeysDiffer v := by
  intro v hv
  cases value with
  | none => exact hold v hv
  | some value =>
      rw [laid, Option.map_some, Option.some_or, Option.some.injEq] at hv
      exact hv ▸ keysDiffer_overlay hold (hvalue value rfl)

theorem keysDiffer_applyTo (hnotes : KeysDiffer (.ofDict notes.keywords))
    (h : KeysDiffer d.toJson) : KeysDiffer (notes.applyTo d).toJson := by
  refine Json.keysDiffer_obj.2 ⟨(notes.applyTo d).nodup, fun field hfield => ?_⟩
  have hfound := Dict.mem_entries_iff.1 hfield
  rw [find?_applyTo] at hfound
  exact keysDiffer_laid (fun _ => hnotes.find?)
    (fun _ => (keysDiffer_withDescription h).find?) field.2 hfound

/-! ## Fields -/

theorem field?_overlay {nested : Entries String Json} (h : nested.keys.Nodup) (old : Option Json)
    (name : String) :
    (overlay old (.obj nested)).field? name =
      (Entries.find? name nested).or (old.bind (Json.field? name)) := by
  cases old with
  | none => simp [overlay, Json.field?]
  | some v =>
      cases v with
      | obj existing => exact Entries.find?_merge h existing
      | _ => simp [overlay, Json.field?]

theorem laid_of_not_obj (h : ∀ fields, value ≠ .obj fields) (old : Option Json) :
    laid (some value) old = some value := by
  rw [laid, Option.map_some, Option.some_or, overlay]
  exact fun _ nested _ => h nested

theorem bind_field?_laid {nested : Entries String Json} (h : nested.keys.Nodup)
    (old : Option Json) (name : String) :
    (laid (some (.obj nested)) old).bind (Json.field? name) =
      (Entries.find? name nested).or (old.bind (Json.field? name)) :=
  field?_overlay h old name

theorem overlay_obj (old : Option Json) (nested : Entries String Json) :
    ∃ fields, overlay old (.obj nested) = .obj fields := by
  unfold overlay
  split
  · exact ⟨_, rfl⟩
  · exact ⟨_, rfl⟩

end TypeSchema.Annotations
