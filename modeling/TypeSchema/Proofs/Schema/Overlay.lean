import TypeSchema.Proofs.Objects.Properties

/-!
# What shapes write over definitions

A shape finds out what it has to write without a look at the definition it completes, and what it
writes takes the place of what is there.  Only objects leave it to a definition whether there are
additional properties.
-/

namespace TypeSchema

/-! ## Overlays -/

namespace Definition

variable {key : String} {d written result : Definition}

/-- Under the key stands what the second definition has there, or else what the first one has. -/
def Overlays (key : String) (d written result : Definition) : Prop :=
  result.find? key = (written.find? key).or (d.find? key)

namespace Overlays

theorem empty (key : String) (d : Definition) : Overlays key d Dict.empty d := rfl

theorem insert (h : Overlays key d written result) (other : String) (value : Json) :
    Overlays key d (written.insert other value) (result.insert other value) := by
  unfold Overlays
  rw [Dict.find?_insert, Dict.find?_insert]
  split
  · rfl
  · exact h

theorem insertIf (h : Overlays key d written result) (condition : Bool) (other : String)
    (value : Json) :
    Overlays key d (written.insertIf condition other value)
      (result.insertIf condition other value) := by
  unfold Definition.insertIf
  split
  · exact h.insert other value
  · exact h

theorem insertIf_of_ne (h : Overlays key d written result) {other : String} (hne : key ≠ other)
    (condition condition' : Bool) (value value' : Json) :
    Overlays key d (written.insertIf condition other value)
      (result.insertIf condition' other value') := by
  unfold Overlays
  rwa [find?_insertIf_of_ne _ _ hne, find?_insertIf_of_ne _ _ hne]

theorem setType (h : Overlays key d written result) (tag : String) :
    Overlays key d (written.setType tag) (result.setType tag) := h.insert _ _

theorem setTypes (h : Overlays key d written result) (tags : List String) :
    Overlays key d (written.setTypes tags) (result.setTypes tags) := by
  unfold Definition.setTypes
  split
  · exact h
  · exact h.setType _
  · exact h.insert _ _

theorem merge (h : Overlays key d written result) (later : Definition) :
    Overlays key d (written.merge later) (result.merge later) := by
  unfold Overlays at h ⊢
  rw [Dict.find?_merge, Dict.find?_merge, h, Option.or_assoc]

end Overlays

end Definition

/-! ## Shapes -/

namespace Shape

/-- Where an annotation of this keyword is kept, whatever the shape writes. -/
def keeps : Shape → String → Bool
  | .function, key => key == "additionalProperties"
  | .object _, key => key == "additionalProperties"
  | _, _ => false

def objectKeywords : List String :=
  ["type", "properties", "defaultProperties", "additionalProperties", "propertyOrder", "required"]

/-- Whether the shape may write this keyword, under some settings and for some components.  A union
that comes down to one branch takes over all that the branch has. -/
def mayWrite : Shape → String → Bool
  | .union _, _ => true
  | .intersection _, key => key == "allOf"
  | .tuple _, key => ["type", "items", "minItems", "additionalItems"].contains key
  | .primitive _, key => key == "type"
  | .literal _, key => ["type", "enum"].contains key
  | .array _, key => ["type", "items"].contains key
  | .date, key => ["type", "format"].contains key
  | .nonPrimitive, key => ["type", "properties", "additionalProperties"].contains key
  | .unconstrained, _ => false
  | .unsupported, _ => false
  | .enum _, key => ["type", "enum"].contains key
  | .emptyObject, key => ["type", "properties"].contains key
  | .function, key => ("typeof" :: objectKeywords).contains key
  | .map .string _, key => ["type", "additionalProperties"].contains key
  | .map .number _, key => ["type", "items"].contains key
  | .abstract, key => key == "oneOf"
  | .object _, key => objectKeywords.contains key

end Shape

namespace Schema

open Definition (Overlays)

variable {env : Environment} {describe : Describe} {node : TypeNode} {ctx : Context} {shape : Shape}
  {p p' : Progress} {d d' : Definition} {key : String}

theorem find?_setTypes_of_ne (d : Definition) (hkey : key ≠ "type") (tags : List String) :
    (d.setTypes tags).find? key = d.find? key := by
  unfold Definition.setTypes
  split
  · rfl
  · exact Definition.find?_setType_of_ne d hkey _
  · exact Dict.find?_insert_of_ne d hkey _

theorem find?_write_of_ne (parts : ObjectParts) (settings : Settings)
    (hkey : ∀ other ∈ Shape.objectKeywords, key ≠ other) :
    (parts.write settings d).find? key = d.find? key := by
  simp (disch := exact hkey _ (by decide)) only [ObjectParts.write,
    Definition.find?_insertIf_of_ne, find?_ofType_object]

/-- A shape leaves alone what it may not write. -/
theorem find?_of_not_mayWrite {made : List Described} (h : Rendered env node ctx d shape made d')
    (hkey : shape.mayWrite key = false) : d'.find? key = d.find? key := by
  have hne (other : String) (hother : shape.mayWrite other = true) : key ≠ other := by
    rintro rfl
    rw [hkey] at hother
    cases hother
  cases h with
  | union => cases hkey
  | unconstrained | unsupported => rfl
  | object =>
      exact find?_write_of_ne _ _ fun other hmem => hne other (List.contains_iff_mem.2 hmem)
  | function =>
      exact find?_write_of_ne _ _ fun other hmem =>
        hne other (List.contains_iff_mem.2 (List.mem_cons_of_mem _ hmem))
  | enum declaration =>
      rw [EnumDeclaration.describe, Definition.find?_insertIf_of_ne _ _ (hne "enum" rfl),
        find?_setTypes_of_ne d (hne "type" rfl)]
  | map index value items =>
      cases index <;>
        simp (disch := exact hne _ rfl) only [mapped, Definition.setType, Dict.find?_insert_of_ne]
  | _ =>
      simp (disch := exact hne _ rfl) only [tupled, Definition.literal, Definition.setType,
        Dict.find?_insert_of_ne]

/-- How a shape writes over a definition that has no type yet. -/
structure WritesOver (shape : Shape) (write : Definition → Definition) : Prop where
  writes : ∀ d key, d.hasType = false → shape.keeps key = false →
    Overlays key d (write Dict.empty) (write d)
  kept : ∀ d key, shape.keeps key = true → d.contains key = true →
    (write d).find? key = d.find? key

/-- Nothing is kept, and whatever the shape writes is written over all definitions alike. -/
theorem WritesOver.of_overlays {write : Definition → Definition}
    (hkeeps : ∀ key, shape.keeps key = false)
    (h : ∀ d key, Overlays key d (write Dict.empty) (write d)) : WritesOver shape write :=
  ⟨fun d key _ _ => h d key, fun d key hkept => by rw [hkeeps key] at hkept; cases hkept⟩

theorem union_overlays (parts : UnionParts) (keyword : UnionKeyword) (d : Definition)
    (key : String) : Overlays key d (parts.write keyword Dict.empty) (parts.write keyword d) := by
  unfold UnionParts.write
  split
  · exact .empty key d
  · exact (Overlays.empty key d).merge _
  · exact (Overlays.empty key d).insert _ _

theorem object_overlays (parts : ObjectParts) (settings : Settings) (hd : d.hasType = false)
    (hkey : key ≠ "additionalProperties") :
    Overlays key d (parts.write settings Dict.empty) (parts.write settings d) := by
  have hempty : Definition.hasType Dict.empty = false := rfl
  unfold ObjectParts.write
  simp only [hd, hempty, if_neg Bool.false_ne_true]
  exact ((((((Overlays.empty key d).setType _).insertIf _ _ _).insertIf _ _ _).insertIf_of_ne hkey
    _ _ _ _).insertIf _ _ _).insertIf _ _ _

theorem find?_write_additional (parts : ObjectParts) (settings : Settings)
    (hd : d.contains "additionalProperties" = true) :
    (parts.write settings d).find? "additionalProperties" = d.find? "additionalProperties" := by
  let typed := if d.hasType then d else d.setType "object"
  let before := (typed.insertIf (!parts.properties.isEmpty) "properties"
    (.ofDict parts.properties)).insertIf settings.useDefaultProperties "defaultProperties" (.arr [])
  have hsame : before.find? "additionalProperties" = d.find? "additionalProperties" := by
    rw [Definition.find?_insertIf_of_ne _ _ (by decide),
      Definition.find?_insertIf_of_ne _ _ (by decide), find?_ofType_object d (by decide)]
  have hcontains : before.contains "additionalProperties" = true :=
    (congrArg Option.isSome hsame).trans hd
  rw [ObjectParts.write, Definition.find?_insertIf_of_ne _ _ (by decide),
    Definition.find?_insertIf_of_ne _ _ (by decide), Definition.find?_insertIf_self]
  change (if settings.disableExtraProperties && !before.contains "additionalProperties" then _
    else before.find? _) = _
  rwa [hcontains, Bool.not_true, Bool.and_false, if_neg Bool.false_ne_true]

theorem object_writesOver (parts : ObjectParts) (settings : Settings)
    (hkeeps : shape.keeps = (· == "additionalProperties")) :
    WritesOver shape (parts.write settings) := by
  refine ⟨fun d key hd hkey => object_overlays parts settings hd ?_, fun d key hkey hd => ?_⟩
  · simpa [hkeeps] using hkey
  · have hkey : key = "additionalProperties" := by simpa [hkeeps] using hkey
    subst hkey
    exact find?_write_additional parts settings hd

/-- The run that finds out what a shape writes does not depend on the definition. -/
def Factors (env : Environment) (describe : Describe) (node : TypeNode) (ctx : Context)
    (shape : Shape) : Prop :=
  ∃ (α : Type) (core : Describing α) (write : α → Definition → Definition),
    (∀ d, render env describe node ctx shape d = core >>= fun a => pure (write a d)) ∧
      ∀ a, WritesOver shape (write a)

theorem Factors.of_pure {write : Definition → Definition}
    (hrender : ∀ d, render env describe node ctx shape d = pure (write d))
    (hwrite : WritesOver shape write) : Factors env describe node ctx shape :=
  ⟨Unit, pure (), fun _ => write, hrender, fun _ => hwrite⟩

theorem function_factors (env : Environment) (describe : Describe) (node : TypeNode)
    (ctx : Context) : Factors env describe node ctx .function := by
  cases hsetting : env.settings.useTypeOfKeyword with
  | true =>
      have hwrite : WritesOver .function fun d => d.insert "typeof" (.str "function") := by
        refine ⟨fun d key _ _ => (Overlays.empty key d).insert _ _, fun d key hkey _ => ?_⟩
        rw [beq_iff_eq.1 hkey]
        exact Dict.find?_insert_of_ne d (by decide) _
      refine .of_pure (fun d => ?_) hwrite
      rw [render, functionDefinition, hsetting, if_pos rfl]
  | false =>
      refine ⟨_, Describing.notice (.functionAsObject node.name),
        fun _ => ObjectParts.empty.write env.settings, fun d => ?_,
        fun _ => object_writesOver _ _ rfl⟩
      rw [render, functionDefinition, hsetting, if_neg Bool.false_ne_true]
      rfl

theorem render_factors (env : Environment) (describe : Describe) (node : TypeNode) (ctx : Context)
    (shape : Shape) : Factors env describe node ctx shape := by
  cases shape with
  | union members =>
      exact ⟨_, unionMembers env describe ctx.property .empty members,
        fun parts d => parts.write ctx.unionKeyword d, fun _ => rfl,
        fun parts => .of_overlays (fun _ => rfl) (union_overlays parts _)⟩
  | intersection members =>
      exact ⟨_, parts env describe members, fun items d => d.insert "allOf" (.arr items),
        fun _ => rfl, fun items => .of_overlays (fun _ => rfl) fun d key =>
          (Overlays.empty key d).insert _ _⟩
  | tuple elements =>
      exact ⟨_, parts env describe elements, tupled, fun _ => rfl,
        fun items => .of_overlays (fun _ => rfl) fun d key =>
          ((((Overlays.empty key d).setType _).insert _ _).insert _ _).insert _ _⟩
  | primitive tag =>
      exact .of_pure (fun _ => rfl) (.of_overlays (fun _ => rfl) fun d key =>
        (Overlays.empty key d).setType tag)
  | literal value =>
      exact .of_pure (fun _ => rfl) (.of_overlays (fun _ => rfl) fun d key =>
        ((Overlays.empty key d).setType _).insert _ _)
  | array element =>
      exact ⟨_, describe element (Context.nested env.settings),
        fun items d => (d.setType "array").insert "items" items.toJson, fun _ => rfl,
        fun items => .of_overlays (fun _ => rfl) fun d key =>
          ((Overlays.empty key d).setType _).insert _ _⟩
  | date =>
      exact .of_pure (fun _ => rfl) (.of_overlays (fun _ => rfl) fun d key =>
        ((Overlays.empty key d).setType _).insert _ _)
  | nonPrimitive =>
      exact .of_pure (fun _ => rfl) (.of_overlays (fun _ => rfl) fun d key =>
        (((Overlays.empty key d).setType _).insert _ _).insert _ _)
  | unconstrained =>
      exact .of_pure (fun _ => rfl) (.of_overlays (fun _ => rfl) fun d key => .empty key d)
  | unsupported =>
      exact ⟨_, Describing.notice (.unsupportedType node.name), fun _ d => d, fun _ => rfl,
        fun _ => .of_overlays (fun _ => rfl) fun d key => .empty key d⟩
  | enum declaration =>
      exact ⟨_, (EnumDeclaration.notices declaration.enumMembers).forM Describing.notice,
        fun _ => EnumDeclaration.describe declaration.enumMembers, fun _ => rfl,
        fun _ => .of_overlays (fun _ => rfl) fun d key =>
          ((Overlays.empty key d).setTypes _).insertIf _ _ _⟩
  | emptyObject =>
      exact .of_pure (fun _ => rfl) (.of_overlays (fun _ => rfl) fun d key =>
        ((Overlays.empty key d).setType _).insert _ _)
  | function => exact function_factors env describe node ctx
  | map key value =>
      refine ⟨_, describe value { Context.nested env.settings with unionKeyword := .anyOf },
        mapped key, fun d => ?_, fun value => .of_overlays (fun _ => rfl) fun d key' => ?_⟩
      · cases key <;> rfl
      · cases key <;> exact ((Overlays.empty key' d).setType _).insert _ _
  | abstract =>
      refine ⟨_, Run.ofExcept (subtypes env node) >>=
          Describing.forEach (subtypeDefinition env describe),
        fun branches d => d.insert "oneOf" (.arr branches), fun d => (bind_assoc _ _ _).symm,
        fun branches => .of_overlays (fun _ => rfl) fun d key =>
          (Overlays.empty key d).insert _ _⟩
  | object properties =>
      exact ⟨_, objectProperties env describe ObjectParts.empty properties,
        fun parts => parts.write env.settings, fun _ => rfl, fun parts =>
          object_writesOver parts _ rfl⟩

/-- What a shape makes of a definition, compared with what it makes of the empty one. -/
theorem exists_bare (hd : d.hasType = false)
    (h : (render env describe node ctx shape d).on p = (.ok d', p')) :
    ∃ bare, (render env describe node ctx shape Dict.empty).on p = (.ok bare, p') ∧
      ∀ key, (shape.keeps key = false → Overlays key d bare d') ∧
        (shape.keeps key = true → d.contains key = true → d'.find? key = d.find? key) := by
  obtain ⟨α, core, write, hrender, hwrite⟩ := render_factors env describe node ctx shape
  rw [hrender, Run.on_bind_eq_ok] at h
  obtain ⟨a, p₁, hcore, hpure⟩ := h
  cases hpure
  refine ⟨write a Dict.empty, ?_, fun key => ⟨(hwrite a).writes d key hd, (hwrite a).kept d key⟩⟩
  rw [hrender, Run.on_bind_eq_ok]
  exact ⟨a, _, hcore, rfl⟩

end Schema

end TypeSchema
