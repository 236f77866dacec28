import TypeSchema.Proofs.Definition.Keywords
import TypeSchema.Proofs.Enums.Sorted
import TypeSchema.Proofs.Schema.Describes

/-!
# Rendered enums

A member of an enum has at most one value, and each member without one makes a warning.  The values
are sorted into `enum`, their types are named under `type`, and nothing else changes.
-/

namespace TypeSchema

/-! ## Entries beside the two keywords -/

namespace Definition

variable {d : Definition} {key : String}

/-- The entries under all keys but those given, in their order. -/
def others (keys : List String) (d : Definition) : Entries String Json :=
  d.entries.filter fun entry => decide (entry.1 ∉ keys)

theorem others_insert {keys : List String} (hkey : key ∈ keys) (value : Json) :
    others keys (d.insert key value) = others keys d :=
  Entries.filter_insert (fun _ _ => by simpa using hkey) (by simpa using hkey)

theorem others_setTypes {keys : List String} (hkey : "type" ∈ keys) (tags : List String) :
    others keys (d.setTypes tags) = others keys d := by
  unfold setTypes setType
  split
  · rfl
  · exact others_insert hkey _
  · exact others_insert hkey _

/-- A single tag stands alone, several in a list. -/
def tagsValue : List String → Json
  | [tag] => .str tag
  | tags => Json.strs tags

theorem find?_setTypes {tags : List String} (h : tags ≠ []) :
    (d.setTypes tags).find? "type" = some (tagsValue tags) := by
  match tags with
  | [] => exact absurd rfl h
  | [tag] => exact Dict.find?_insert_self d _ _
  | first :: second :: rest => exact Dict.find?_insert_self d _ _

end Definition

/-! ## Values of members -/

/-- The value of a member is its constant, or else that of its initializer if that is a scalar. -/
inductive EnumMember.Has (m : EnumMember) : Json → Prop
  | constant {v : Json} (h : m.constantValue = some v) : m.Has v
  | initializer {v : Json} {initializer : Initializer} (hconstant : m.constantValue = none)
      (hinitializer : m.initializer = some initializer)
      (hvalue : Literal.evaluate initializer = .ok (some v)) (hscalar : v.isScalar = true) : m.Has v

/-- The notice warns of a member, and names it. -/
structure Notice.Warns (m : EnumMember) (notice : Notice) : Prop where
  level : notice.level = .warn
  member : ("member", m.name) ∈ notice.fields

namespace EnumMember

variable {m : EnumMember} {v : Json} {notice : Notice}

theorem value_eq_ok_iff : m.value = .ok v ↔ m.Has v := by
  unfold value
  constructor
  · intro h
    split at h
    · rename_i hconstant
      cases h
      exact .constant hconstant
    · cases h
    · rename_i hconstant hinitializer
      split at h
      · rename_i value hvalue
        split at h
        · rename_i hscalar
          cases h
          exact .initializer hconstant hinitializer hvalue hscalar
        · cases h
      · cases h
      · cases h
  · intro h
    cases h with
    | constant h => rw [h]
    | initializer hconstant hinitializer hvalue hscalar =>
        simp only [hconstant, hinitializer, hvalue, hscalar, if_pos]

theorem warns_of_value (h : m.value = .error notice) : notice.Warns m := by
  unfold value at h
  split at h
  · cases h
  · cases h
    exact ⟨rfl, List.mem_cons_self⟩
  · split at h
    · split at h
      · cases h
      · cases h
        exact ⟨rfl, List.mem_cons_self⟩
    · cases h
      exact ⟨rfl, List.mem_cons_self⟩
    · cases h
      exact ⟨rfl, List.mem_cons_self⟩

end EnumMember

namespace EnumDeclaration

variable {members : List EnumMember}

/-- The values of the members in their order, and a warning for each member without a value. -/
inductive Collects : List EnumMember → List Json → List Notice → Prop
  | nil : Collects [] [] []
  | value {m v members values notices} (hvalue : EnumMember.Has m v)
      (hrest : Collects members values notices) : Collects (m :: members) (v :: values) notices
  | missing {m notice members values notices} (hnone : ∀ v, ¬ EnumMember.Has m v)
      (hnotice : Notice.Warns m notice) (hrest : Collects members values notices) :
      Collects (m :: members) values (notice :: notices)

theorem collects (members : List EnumMember) :
    Collects members (EnumDeclaration.values members) (EnumDeclaration.notices members) := by
  induction members with
  | nil => exact .nil
  | cons m rest ih =>
      unfold EnumDeclaration.values EnumDeclaration.notices
      cases hvalue : m.value with
      | ok v =>
          rw [List.filterMap_cons_some (by rw [hvalue]; rfl),
            List.filterMap_cons_none (by rw [hvalue])]
          exact .value (EnumMember.value_eq_ok_iff.1 hvalue) ih
      | error notice =>
          rw [List.filterMap_cons_none (by rw [hvalue]; rfl),
            List.filterMap_cons_some (by rw [hvalue])]
          refine .missing (fun v hv => ?_) (EnumMember.warns_of_value hvalue) ih
          rw [EnumMember.value_eq_ok_iff.2 hv] at hvalue
          cases hvalue

theorem Collects.has {listed : List Json} {warnings : List Notice}
    (h : Collects members listed warnings) : ∀ v ∈ listed, ∃ m ∈ members, m.Has v := by
  induction h with
  | nil => exact fun v hv => absurd hv List.not_mem_nil
  | value hvalue _ ih =>
      refine List.forall_mem_cons.2 ⟨⟨_, List.mem_cons_self, hvalue⟩, fun v hv => ?_⟩
      obtain ⟨m, hm, hhas⟩ := ih v hv
      exact ⟨m, List.mem_cons_of_mem _ hm, hhas⟩
  | missing _ _ _ ih =>
      intro v hv
      obtain ⟨m, hm, hhas⟩ := ih v hv
      exact ⟨m, List.mem_cons_of_mem _ hm, hhas⟩

/-! ## Types of values -/

/-- The tags are those of the values, each once, in the order in which they first appear. -/
structure NamesTypes (values : List Json) (tags : List String) : Prop where
  mem_iff : ∀ tag, tag ∈ tags ↔ tag ∈ values.map Definition.primitiveTypeOf
  inOrder : tags.Pairwise fun s t =>
    (values.map Definition.primitiveTypeOf).idxOf s <
      (values.map Definition.primitiveTypeOf).idxOf t

theorem NamesTypes.nodup {values : List Json} {tags : List String} (h : NamesTypes values tags) :
    tags.Nodup := by
  refine h.inOrder.imp fun {s t} hlt => ?_
  rintro rfl
  exact Nat.lt_irrefl _ hlt

theorem types_concat (values : List Json) (v : Json) :
    types (values ++ [v]) = if Definition.primitiveTypeOf v ∈ types values then types values
      else types values ++ [Definition.primitiveTypeOf v] := by
  rw [types, List.map_append, List.foldl_append]
  rfl

theorem mem_types_iff (values : List Json) (tag : String) :
    tag ∈ types values ↔ tag ∈ values.map Definition.primitiveTypeOf := by
  induction values using List.reverseRecOn with
  | nil => rfl
  | append_singleton values v ih =>
      rw [types_concat, List.map_append, List.mem_append, ← ih, List.map_singleton,
        List.mem_singleton]
      split
      · rename_i hold
        exact ⟨.inl, fun h => h.elim id fun heq => heq ▸ hold⟩
      · rw [List.mem_append, List.mem_singleton]

theorem types_inOrder (values : List Json) : (types values).Pairwise fun s t =>
    (values.map Definition.primitiveTypeOf).idxOf s <
      (values.map Definition.primitiveTypeOf).idxOf t := by
  induction values using List.reverseRecOn with
  | nil => exact .nil
  | append_singleton values v ih =>
      have hplace (tag : String) (htag : tag ∈ types values) :
          ((values ++ [v]).map Definition.primitiveTypeOf).idxOf tag =
            (values.map Definition.primitiveTypeOf).idxOf tag := by
        rw [List.map_append, List.idxOf_append_of_mem ((mem_types_iff values tag).1 htag)]
      have hold := ih.imp_of_mem fun {s t} hs ht hlt => by
        rwa [← hplace s hs, ← hplace t ht] at hlt
      rw [types_concat]
      split
      · exact hold
      · rename_i hnew
        refine List.pairwise_append.2 ⟨hold, List.pairwise_singleton _ _, fun s hs t ht => ?_⟩
        have hbefore := (mem_types_iff values s).1 hs
        rw [mem_types_iff] at hnew
        rw [hplace s hs, List.mem_singleton.1 ht, List.map_append,
          List.idxOf_append_of_notMem hnew]
        exact Nat.lt_of_lt_of_le (List.idxOf_lt_length_iff.2 hbefore) (Nat.le_add_right _ _)

theorem namesTypes (values : List Json) : NamesTypes values (types values) :=
  ⟨mem_types_iff values, types_inOrder values⟩

/-! ## Rendering -/

/-- What a definition becomes by the values of an enum: the values sorted, their types, a single one
as such, and every other entry as it was. -/
structure Renders (values : List Json) (d d' : Definition) : Prop where
  sorted : ∃ result, d'.find? "enum" = some (.arr result) ∧
    EnumValues.Arranges EnumValues.sortKey values result
  typed : ∃ tags, NamesTypes values tags ∧ d'.find? "type" = some (Definition.tagsValue tags)
  others : Definition.others ["type", "enum"] d' = Definition.others ["type", "enum"] d

theorem describe_of_values_eq_nil (h : values members = []) (d : Definition) :
    describe members d = d := by
  rw [describe, h]
  rfl

theorem renders_describe (hvalues : ∀ v ∈ values members, v.KeysDiffer)
    (hne : values members ≠ []) (d : Definition) :
    Renders (values members) d (describe members d) where
  sorted := by
    refine ⟨_, ?_, EnumValues.arranges_sort hvalues⟩
    rw [describe, Definition.find?_insertIf_self, if_pos (by simpa using hne)]
  typed := by
    refine ⟨_, namesTypes _, ?_⟩
    rw [describe, Definition.find?_insertIf_of_ne _ _ (by decide)]
    refine Definition.find?_setTypes fun hnil => ?_
    obtain ⟨v, hv⟩ := List.exists_mem_of_ne_nil _ hne
    exact List.ne_nil_of_mem ((mem_types_iff _ _).2 (List.mem_map_of_mem hv)) hnil
  others := by
    rw [describe, Definition.insertIf, if_pos (by simpa using hne),
      Definition.others_insert (List.mem_cons_of_mem _ List.mem_cons_self),
      Definition.others_setTypes List.mem_cons_self]

theorem keysDiffer_of_has {m : EnumMember} {v : Json}
    (hconstant : ∀ v, m.constantValue = some v → v.KeysDiffer) (h : m.Has v) : v.KeysDiffer := by
  cases h with
  | constant h => exact hconstant v h
  | initializer _ _ _ hscalar => exact Json.keysDiffer_of_isScalar hscalar

end EnumDeclaration

namespace Schema

open EnumDeclaration (Collects Renders)

/-- An enum declaration is rendered by the values of its members, and warns of each member without a
value; without any values the definition stays. -/
theorem enumDefinition_renders {declaration : Declaration}
    (hconstants : ∀ m ∈ declaration.enumMembers, ∀ v, m.constantValue = some v → v.KeysDiffer)
    (d : Definition) (p : Progress) :
    ∃ values notices d', Collects declaration.enumMembers values notices ∧
      (enumDefinition declaration d).on p =
        (.ok d', { p with notices := p.notices ++ notices }) ∧
      (values = [] → d' = d) ∧ (values ≠ [] → Renders values d d') := by
  have hcollects := EnumDeclaration.collects declaration.enumMembers
  refine ⟨_, _, EnumDeclaration.describe declaration.enumMembers d, hcollects, ?_,
    fun hnil => EnumDeclaration.describe_of_values_eq_nil hnil d,
    fun hne => EnumDeclaration.renders_describe (fun v hv => ?_) hne d⟩
  · rw [enumDefinition, Run.on_bind, on_forM_notice]
    rfl
  · obtain ⟨m, hm, hhas⟩ := hcollects.has v hv
    exact EnumDeclaration.keysDiffer_of_has (hconstants m hm) hhas

/-- An enum `Switch` with a constant, an initializer, a repeat, and members without a value. -/
def switchEnum : Declaration :=
  { Declaration.blank with
    kind := .enum
    enumMembers := [
      ⟨"Off", some (.int 0), none⟩, ⟨"On", none, some ⟨"'on'", .literal⟩⟩,
      ⟨"Down", some (.int 0), none⟩, ⟨"Broken", none, none⟩,
      ⟨"Both", none, some ⟨"[0, 1]", .literal⟩⟩] }

theorem enumDefinition_renders_switch :
    (∀ m ∈ switchEnum.enumMembers, ∀ v, m.constantValue = some v → v.KeysDiffer) ∧
      ∃ values notices d', Collects switchEnum.enumMembers values notices ∧
        (enumDefinition switchEnum Dict.empty).on .initial =
          (.ok d', { Progress.initial with notices := notices }) ∧
        values ≠ [] ∧ Renders values Dict.empty d' := by
  have hconstants : ∀ m ∈ switchEnum.enumMembers, ∀ v, m.constantValue = some v →
      v.KeysDiffer := by
    simp [switchEnum, Json.int, Json.KeysDiffer, Json.everyObject]
  obtain ⟨values, notices, d', hcollects, hrun, -, hrenders⟩ :=
    enumDefinition_renders hconstants Dict.empty .initial
  have hne : values ≠ [] := by
    cases hcollects with
    | value => exact List.cons_ne_nil _ _
    | missing hnone => exact absurd (.constant rfl) (hnone (.int 0))
  exact ⟨hconstants, values, notices, d', hcollects, hrun, hne, hrenders hne⟩

end Schema

end TypeSchema
