import TypeSchema.Proofs.Annotation.Applied
import TypeSchema.Proofs.Annotation.Comments
import TypeSchema.Proofs.Annotation.Precedence

/-!
# Annotations applied in turn

A comment that goes on with further annotations says what the two parts say in turn.  But objects
are merged in two ways: within a comment at every level and for names with points only, into a
definition at one level and for every name.  So the two parts, applied one after the other, make the
same definition just if the ways of merging agree on each object that the later part writes.
-/

namespace TypeSchema.Annotations

open Json (KeysDiffer Agree)

variable {extra : List String} {notes notes' : Annotations} {d : Definition} {key name : String}
  {value : Json} {first later joint old : Option Json}

/-! ## Keywords of a comment that goes on -/

/-- What the later annotations alone store under a keyword, and what they store if the first ones
are recorded before them. -/
inductive Layered (first : Option Json) : Option Json → Option Json → Prop
  | untouched : Layered first none first
  | replaced {value : Json} (h : ∀ fields, value ≠ .obj fields) :
      Layered first (some value) (some value)
  | objects {later joint : Entries String Json}
      (hjoint : ∀ name, Entries.find? name joint = none → Entries.find? name later = none)
      (hfirst : ∀ name, Entries.find? name later = none →
        Entries.find? name joint = none ∨
          Entries.find? name joint = first.bind (Json.field? name)) :
      Layered first (some (.obj later)) (some (.obj joint))

namespace Layered

theorem refl (first : Option Json) (value : Json) : Layered first (some value) (some value) := by
  cases value with
  | obj fields => exact .objects (fun _ h => h) fun _ => .inl
  | _ => exact .replaced nofun

theorem field?_joint (h : Layered first later joint) {name : String}
    (hjoint : joint.bind (Json.field? name) = none) : later.bind (Json.field? name) = none := by
  cases h with
  | untouched => rfl
  | replaced _ => exact hjoint
  | objects hfields _ => exact hfields name hjoint

theorem field?_first (h : Layered first later joint) {name : String}
    (hlater : later.bind (Json.field? name) = none) :
    joint.bind (Json.field? name) = none ∨
      joint.bind (Json.field? name) = first.bind (Json.field? name) := by
  cases h with
  | untouched => exact .inr rfl
  | replaced _ => exact .inl hlater
  | objects _ hfirst => exact hfirst name hlater

/-- Whatever an annotation stores is stored on both sides. -/
theorem stored (h : Layered first later joint) (inner : List String) (value : Json) :
    Layered first (some (stored later inner value)) (some (stored joint inner value)) := by
  cases inner with
  | nil => exact refl first value
  | cons name rest =>
      have hlater (other : String) := field?_combine later name other (nest rest value)
      have hjoint (other : String) := field?_combine joint name other (nest rest value)
      change Layered first (some (combine later (.obj [(name, nest rest value)])))
        (some (combine joint (.obj [(name, nest rest value)])))
      obtain ⟨fields, hfields⟩ := combine_obj later [(name, nest rest value)]
      obtain ⟨fields', hfields'⟩ := combine_obj joint [(name, nest rest value)]
      rw [hfields] at hlater
      rw [hfields'] at hjoint
      rw [hfields, hfields']
      refine .objects (fun other hnone => ?_) fun other hnone => ?_
      · refine (hlater other).trans ?_
        have hnone := (hjoint other).symm.trans hnone
        split at hnone
        · cases hnone
        · rename_i hne
          rw [if_neg hne, h.field?_joint hnone]
      · have hnone := (hlater other).symm.trans hnone
        split at hnone
        · cases hnone
        · rename_i hne
          have hother := hjoint other
          rw [if_neg hne] at hother
          exact (h.field?_first hnone).imp hother.trans hother.trans

end Layered

/-! ## One keyword -/

section

variable {before : Option Json}

theorem same_overlay_obj_iff {later joint : Entries String Json}
    (hbefore : ∀ v, before = some v → KeysDiffer v) (hold : ∀ v, old = some v → KeysDiffer v)
    (hlater : KeysDiffer (.obj later)) (hjoint : KeysDiffer (.obj joint)) :
    (overlay before (.obj later)).same (overlay old (.obj joint)) = true ↔
      ∀ name, Agree ((Entries.find? name later).or (before.bind (Json.field? name)))
        ((Entries.find? name joint).or (old.bind (Json.field? name))) := by
  have hleft := keysDiffer_overlay hbefore hlater
  have hright := keysDiffer_overlay hold hjoint
  simp only [← field?_overlay hlater.nodup, ← field?_overlay hjoint.nodup]
  obtain ⟨fields, hfields⟩ := overlay_obj before later
  obtain ⟨fields', hfields'⟩ := overlay_obj old joint
  rw [hfields] at hleft ⊢
  rw [hfields'] at hright ⊢
  exact Json.same_obj_iff hleft.nodup hright.nodup

theorem agree_or_iff {before later joint old : Option Json} (hjoint : joint = none → later = none)
    (hshows : later = none → ∀ part, joint = some part → Agree before (some part)) :
    Agree (later.or before) (joint.or old) ↔
      (∀ value, later = some value → Agree (some value) joint) ∧
        (joint = none → Agree before old) := by
  cases later <;> cases joint <;> simp_all

/-- Writing what a keyword has first and then what it has later gives what it has jointly just if
the later fields are the joint ones and nothing besides them was changed first. -/
theorem agree_laid_iff (h : Layered first later joint)
    (hkeys : ∀ v, first = some v → KeysDiffer v)
    (hold : ∀ v, old = some v → KeysDiffer v) (hlater : ∀ v, later = some v → KeysDiffer v)
    (hjoint : ∀ v, joint = some v → KeysDiffer v) :
    Agree (laid later (laid first old)) (laid joint old) ↔
      (∀ name value, later.bind (Json.field? name) = some value →
        Agree (some value) (joint.bind (Json.field? name))) ∧
      ∀ fields name, later = some (.obj fields) → joint.bind (Json.field? name) = none →
        Agree ((laid first old).bind (Json.field? name)) (old.bind (Json.field? name)) := by
  have hbefore := keysDiffer_laid hkeys hold
  cases h with
  | untouched => exact iff_of_true (Json.agree_refl hbefore) ⟨nofun, nofun⟩
  | @replaced value hvalue =>
      rw [laid_of_not_obj hvalue, laid_of_not_obj hvalue]
      refine iff_of_true (Json.agree_refl hlater)
        ⟨fun name part hpart => ?_, fun fields _ heq => ?_⟩
      · obtain ⟨fields, heq, -⟩ := Json.field?_eq_some hpart
        exact absurd heq (hvalue fields)
      · exact absurd (Option.some.inj heq) (hvalue fields)
  | @objects later joint hfields hfirst =>
      have hshows (name : String) (hnone : Entries.find? name later = none) (part : Json)
          (hpart : Entries.find? name joint = some part) :
          Agree ((laid first old).bind (Json.field? name)) (some part) := by
        have hfield := (hfirst name hnone).resolve_left (by simp [hpart])
        obtain ⟨value, rfl, hvalue⟩ := Option.bind_eq_some_iff.1 (hfield.symm.trans hpart)
        obtain ⟨fields, rfl, hfound⟩ := Json.field?_eq_some hvalue
        rw [bind_field?_laid (hkeys _ rfl).nodup, hfound]
        exact .some (Json.same_refl ((hkeys _ rfl).find? hfound))
      change Agree (some (overlay _ _)) (some (overlay _ _)) ↔ _
      rw [Json.agree_some_some, same_overlay_obj_iff hbefore hold (hlater _ rfl) (hjoint _ rfl)]
      rw [forall_congr' fun name => agree_or_iff (hfields name) (hshows name), forall_and]
      exact and_congr_right' ⟨fun h _ name _ => h name, fun h name => h later name rfl⟩

end

/-! ## Comments that go on -/

theorem record_description (extra : List String) (notes : Annotations) (name : String)
    (text : List Char) : (record extra notes name text).description = notes.description := by
  unfold record
  split
  · rfl
  · split
    · split <;> rfl
    · rfl

theorem recordAll_description (extra : List String) (notes : Annotations)
    (annotations : List (String × List Char)) :
    (recordAll extra notes annotations).description = notes.description := by
  induction annotations generalizing notes with
  | nil => rfl
  | cons a rest ih => exact (ih _).trans (record_description extra notes a.1 a.2)

theorem layered_record {first : Dict String Json} {text : List Char}
    (h : ∀ key, Layered (first.find? key) (notes.keywords.find? key) (notes'.keywords.find? key))
    (key : String) :
    Layered (first.find? key) ((record extra notes name text).keywords.find? key)
      ((record extra notes' name text).keywords.find? key) := by
  cases hname : namesKeyword extra name with
  | false =>
      rw [record_other hname, record_other hname]
      exact h key
  | true =>
      obtain ⟨written, inner, hpath⟩ := path_ne_nil hname
      rw [record_keyword hname hpath, record_keyword hname hpath, Dict.find?_insert,
        Dict.find?_insert]
      split
      · rename_i hkey
        exact hkey ▸ (h key).stored inner (parseValue text)
      · exact h key

theorem layered_recordAll {first : Dict String Json}
    (h : ∀ key, Layered (first.find? key) (notes.keywords.find? key) (notes'.keywords.find? key))
    (annotations : List (String × List Char)) (key : String) :
    Layered (first.find? key) ((recordAll extra notes annotations).keywords.find? key)
      ((recordAll extra notes' annotations).keywords.find? key) := by
  induction annotations generalizing notes notes' with
  | nil => exact h key
  | cons a rest ih => exact ih (layered_record h)

/-- The annotations of a text that stands behind an at-sign. -/
def annotationsOf (text : List Char) : List (String × List Char) :=
  ((Text.split '@' text).1 :: (Text.split '@' text).2).filterMap readAnnotation

variable (extra) (comment rest : List Char)

theorem parse_marker : parse extra (comment ++ '@' :: rest) =
    recordAll extra (parse extra comment) (annotationsOf rest) := by
  rw [parse_append_marker, foldl_recordSegment]
  rfl

theorem parse_line : parse extra (comment ++ '\n' :: '@' :: rest) =
    recordAll extra (parse extra comment) (annotationsOf rest) := by
  have hbreak : parse extra (comment ++ ['\n']) = parse extra comment :=
    parse_append_blank extra comment (List.forall_mem_singleton.2 (by decide))
  rw [List.append_cons, parse_marker, hbreak]

theorem keysDiffer_parse : KeysDiffer (.ofDict (parse extra comment).keywords) := by
  unfold parse
  dsimp only
  rw [foldl_recordSegment]
  exact keysDiffer_recordAll rfl _

theorem layered_parse (key : String) :
    Layered ((parse extra comment).keywords.find? key)
      ((parse extra ('@' :: rest)).keywords.find? key)
      ((parse extra (comment ++ '\n' :: '@' :: rest)).keywords.find? key) := by
  rw [parse_line, ← List.nil_append ('@' :: rest), parse_marker]
  exact layered_recordAll (fun _ => .untouched) _ key

theorem withDescription_later (d : Definition) :
    (parse extra ('@' :: rest)).withDescription d = d := by
  have hnone : (parse extra ('@' :: rest)).description = none := by
    rw [← List.nil_append ('@' :: rest), parse_marker, recordAll_description]
    rfl
  rw [withDescription, applyTo, hnone]
  rfl

theorem withDescription_line (d : Definition) :
    (parse extra (comment ++ '\n' :: '@' :: rest)).withDescription d =
      (parse extra comment).withDescription d := by
  simp only [withDescription, applyTo, parse_line, recordAll_description]

/-- The two ways of merging agree on what the part behind the at-sign writes under a keyword. -/
structure Seamless (extra : List String) (comment rest : List Char) (d : Definition)
    (key : String) : Prop where
  /-- Each field that the part writes by itself is the one that both parts write jointly. -/
  within : ∀ name value,
    (Json.ofDict (parse extra ('@' :: rest)).keywords).follow [key, name] = some value →
    Agree (some value)
      ((Json.ofDict (parse extra (comment ++ '\n' :: '@' :: rest)).keywords).follow [key, name])
  /-- The part in front changes no field of the definition that both parts leave out. -/
  beside : ∀ fields name,
    (parse extra ('@' :: rest)).keywords.find? key = some (.obj fields) →
    (Json.ofDict (parse extra (comment ++ '\n' :: '@' :: rest)).keywords).follow [key, name] =
      none →
    Agree (((parse extra comment).applyTo d).toJson.follow [key, name])
      (((parse extra comment).withDescription d).toJson.follow [key, name])

theorem follow_pair (d : Dict String Json) (key name : String) :
    (Json.ofDict d).follow [key, name] = (d.find? key).bind (Json.field? name) := by
  change (d.find? key).bind (fun value => (value.field? name).bind some) = _
  simp

theorem agree_applyTo_iff (h : KeysDiffer d.toJson) (key : String) :
    Agree (((parse extra ('@' :: rest)).applyTo ((parse extra comment).applyTo d)).find? key)
        (((parse extra (comment ++ '\n' :: '@' :: rest)).applyTo d).find? key) ↔
      Seamless extra comment rest d key := by
  have hfirst := keysDiffer_parse extra comment
  have hlater := keysDiffer_parse extra ('@' :: rest)
  have hjoint := keysDiffer_parse extra (comment ++ '\n' :: '@' :: rest)
  have hdescribed (v : Json) (hv : ((parse extra comment).withDescription d).find? key = some v) :
      KeysDiffer v := (keysDiffer_withDescription h).find? hv
  have hlaid := agree_laid_iff (layered_parse extra comment rest key) (fun _ => hfirst.find?)
    hdescribed (fun _ => hlater.find?) (fun _ => hjoint.find?)
  rw [find?_applyTo, find?_applyTo, withDescription_later, withDescription_line, find?_applyTo]
  refine hlaid.trans ⟨fun ⟨within, beside⟩ => ⟨?_, ?_⟩, fun ⟨within, beside⟩ => ⟨?_, ?_⟩⟩
  · simpa only [follow_pair] using within
  · simpa only [Definition.toJson, follow_pair, find?_applyTo] using beside
  · simpa only [follow_pair] using within
  · simpa only [Definition.toJson, follow_pair, find?_applyTo] using beside

/-- Annotations on a line of their own could be applied after those in front of them just if the two
ways of merging agree on all that they write. -/
theorem applyTo_in_turn_iff (h : KeysDiffer d.toJson) :
    ((parse extra ('@' :: rest)).applyTo ((parse extra comment).applyTo d)).toJson.same
        ((parse extra (comment ++ '\n' :: '@' :: rest)).applyTo d).toJson = true ↔
      ∀ key, Seamless extra comment rest d key := by
  have hfirst : KeysDiffer ((parse extra comment).applyTo d).toJson :=
    keysDiffer_applyTo (keysDiffer_parse extra comment) h
  have hturns := keysDiffer_applyTo (keysDiffer_parse extra ('@' :: rest)) hfirst
  have honce := keysDiffer_applyTo (keysDiffer_parse extra (comment ++ '\n' :: '@' :: rest)) h
  exact (Json.same_obj_iff hturns.nodup honce.nodup).trans
    (forall_congr' (agree_applyTo_iff extra comment rest h))

def listDefinition : Definition :=
  (Definition.ofType "array").insert "items" (.obj [("type", .str "number"), ("minimum", .int 1)])

theorem applyTo_in_turn_iff_list : KeysDiffer listDefinition.toJson ∧
    ∀ key, Seamless [] "Some numbers.\n@items.minimum 0".toList
      "items.maximum 9\n@maxItems 3".toList listDefinition key := by
  have hkeys : KeysDiffer listDefinition.toJson := by decide +kernel
  exact ⟨hkeys, (applyTo_in_turn_iff _ _ _ hkeys).1 (by decide +kernel)⟩

theorem nested_object_is_not_merged :
    ¬ ∀ (extra : List String) (comment rest : List Char) (d : Definition), KeysDiffer d.toJson →
      ((parse extra ('@' :: rest)).applyTo ((parse extra comment).applyTo d)).toJson.same
        ((parse extra (comment ++ '\n' :: '@' :: rest)).applyTo d).toJson = true := by
  intro hclaim
  have hlost := hclaim [] "@items.x.minimum 1".toList "items.x.maximum 2".toList Dict.empty
    (by decide)
  exact absurd hlost (by decide +kernel)

end TypeSchema.Annotations
