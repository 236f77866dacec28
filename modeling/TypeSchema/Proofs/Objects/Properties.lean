import TypeSchema.Proofs.Schema.Absence

/-!
# How the properties of an object run

The description of an object goes through its properties one by one.  Each is described in its own
place, and after that it is known whether the property is ignored and whether it is marked.
-/

namespace TypeSchema.Schema

variable {env : Environment} {describe : Describe} {p p' : Progress} {id : SymbolId}
  {type : TypeId} {ctx : Context} {d d' : Definition} {parts parts' : ObjectParts}

theorem exists_place (h : placeOf env id = .ok (some (type, ctx))) :
    ∃ declaration, PropertyPlace env id declaration type ctx := by
  simp only [placeOf, outcome_bind_eq_ok] at h
  obtain ⟨property, hproperty, declaration, hdeclared, h⟩ := h
  split at h
  · cases h
  · rename_i htype
    obtain ⟨reffed, hreffed, hpure⟩ := outcome_bind_eq_ok.1 h
    cases hpure
    exact ⟨declaration, ⟨property, hproperty, htype⟩, hdeclared, reffed, hreffed, rfl⟩

theorem PropertyPlace.property {declaration : Option Declaration}
    (h : PropertyPlace env id declaration type ctx) : ctx.property = some id := by
  obtain ⟨reffed, -, rfl⟩ := h.isWritten
  rfl

/-! ## One property -/

/-- Between progresses only notices are given. -/
structure OnlyNotices (p p' : Progress) : Prop where
  quiet : Quiet p p'
  marks : p'.mayBeAbsent = p.mayBeAbsent

theorem addDefault_run {property : Symbol} {initializer : Option Initializer}
    (h : (addDefault property initializer d).on p = (.ok d', p')) :
    OnlyNotices p p' ∧ d' = withDefault initializer d := by
  obtain ⟨quiet, heq⟩ := addDefault_ok h
  refine ⟨⟨quiet, ?_⟩, heq⟩
  unfold addDefault at h
  split at h
  · cases h
    rfl
  · split at h
    · cases h
      rfl
    · cases h
      rfl
    · cases h
      rfl

/-- How the description of a property runs. -/
inductive PropertyRun (env : Environment) (describe : Describe) (id : SymbolId) :
    Progress → Option Definition → Progress → Prop where
  | untyped {p p' property} (hproperty : env.graph.symbol id = .ok property)
      (htype : property.type = none) (quiet : OnlyNotices p p') :
      PropertyRun env describe id p (some Dict.empty) p'
  | ignored {p p' declaration type ctx} {d : Definition}
      (place : PropertyPlace env id declaration type ctx)
      (hrun : (describe type ctx).on p = (.ok d, p')) (hd : d.isIgnored = true) :
      PropertyRun env describe id p none p'
  | kept {p p₁ p' declaration type ctx} {d : Definition}
      (place : PropertyPlace env id declaration type ctx)
      (hrun : (describe type ctx).on p = (.ok d, p₁)) (hd : d.isIgnored = false)
      (quiet : OnlyNotices p₁ p') :
      PropertyRun env describe id p
        (some (withDefault (declaration.bind (·.initializer)) d)) p'

theorem propertyDefinition_run {result : Option Definition}
    (h : (propertyDefinition env describe id).on p = (.ok result, p')) :
    PropertyRun env describe id p result p' := by
  simp only [propertyDefinition, Run.on_bind_eq_ok, Run.on_ofExcept_eq_ok] at h
  obtain ⟨property, _, ⟨hproperty, rfl⟩, declaration, _, ⟨hdeclaration, rfl⟩, h⟩ := h
  split at h
  · rename_i htype
    cases h
    exact .untyped hproperty htype ⟨quiet_notice _ _, rfl⟩
  · rename_i type htype
    simp only [Run.on_bind_eq_ok, Run.on_ofExcept_eq_ok] at h
    obtain ⟨reffed, _, ⟨hreffed, rfl⟩, d, p₁, hd, h⟩ := h
    have place : PropertyPlace env id declaration type
        ⟨env.settings.useRef, .oneOf, some id, reffed⟩ :=
      ⟨⟨property, hproperty, htype⟩, hdeclaration, reffed, hreffed, rfl⟩
    split at h
    · rename_i hignored
      cases h
      exact .ignored place hd hignored
    · rename_i hignored
      obtain ⟨d', hdefault, rfl⟩ := Run.on_map_eq_ok.1 h
      obtain ⟨quiet, rfl⟩ := addDefault_run hdefault
      exact .kept place hd (Bool.eq_false_iff.2 hignored) quiet

/-! ## All properties -/

/-- How a property goes into the parts of its object. -/
def ObjectParts.addResult (parts : ObjectParts) (property : Symbol) (absent : Bool) :
    Option Definition → ObjectParts
  | none => parts
  | some d =>
    parts.add property.name d (!property.isOptional && !property.isMethod && !absent)

theorem objectProperty_ok
    (h : (objectProperty env describe parts id).on p = (.ok parts', p')) :
    ∃ property result, env.graph.symbol id = .ok property ∧
      (propertyDefinition env describe id).on p = (.ok result, p') ∧
      parts' = parts.addResult property (decide (id ∈ p'.mayBeAbsent)) result := by
  simp only [objectProperty, Run.on_bind_eq_ok, Run.on_ofExcept_eq_ok] at h
  obtain ⟨property, _, ⟨hproperty, rfl⟩, result, p₁, hresult, h⟩ := h
  cases result with
  | none =>
      cases h
      exact ⟨property, none, hproperty, hresult, rfl⟩
  | some d =>
      rw [Run.on_bind_eq_ok] at h
      obtain ⟨absent, p₂, habsent, hpure⟩ := h
      cases habsent
      cases hpure
      exact ⟨property, some d, hproperty, hresult, rfl⟩

theorem objectProperty_run
    (h : (objectProperty env describe parts id).on p = (.ok parts', p')) :
    ∃ property result, env.graph.symbol id = .ok property ∧
      PropertyRun env describe id p result p' ∧
      parts' = parts.addResult property (decide (id ∈ p'.mayBeAbsent)) result := by
  obtain ⟨property, result, hproperty, hresult, hparts⟩ := objectProperty_ok h
  exact ⟨property, result, hproperty, propertyDefinition_run hresult, hparts⟩

theorem objectProperties_cons {rest : List SymbolId} :
    (objectProperties env describe parts (id :: rest)).on p = (.ok parts', p') ↔
      ∃ parts₁ p₁, (objectProperty env describe parts id).on p = (.ok parts₁, p₁) ∧
        (objectProperties env describe parts₁ rest).on p₁ = (.ok parts', p') :=
  Run.on_bind_eq_ok

theorem objectProperties_append {before after : List SymbolId} :
    (objectProperties env describe parts (before ++ after)).on p = (.ok parts', p') ↔
      ∃ parts₁ p₁, (objectProperties env describe parts before).on p = (.ok parts₁, p₁) ∧
        (objectProperties env describe parts₁ after).on p₁ = (.ok parts', p') := by
  induction before generalizing parts p with
  | nil =>
      constructor
      · exact fun h => ⟨parts, p, rfl, h⟩
      · rintro ⟨_, _, hnil, h⟩
        cases hnil
        exact h
  | cons first rest ih =>
      simp only [List.cons_append, objectProperties_cons, ih]
      constructor
      · rintro ⟨parts₁, p₁, hfirst, parts₂, p₂, hrest, hafter⟩
        exact ⟨parts₂, p₂, ⟨parts₁, p₁, hfirst, hrest⟩, hafter⟩
      · rintro ⟨parts₂, p₂, ⟨parts₁, p₁, hfirst, hrest⟩, hafter⟩
        exact ⟨parts₁, p₁, hfirst, parts₂, p₂, hrest, hafter⟩

/-! ## The definition of an object -/

theorem find?_ofType_object (d : Definition) {key : String} (h : key ≠ "type") :
    Dict.find? (if d.hasType then d else d.setType "object") key = d.find? key := by
  split
  · rfl
  · exact Definition.find?_setType_of_ne d h "object"

theorem find?_write_properties (parts : ObjectParts) (settings : Settings) (d : Definition) :
    (parts.write settings d).find? "properties" =
      if !parts.properties.isEmpty then some (.ofDict parts.properties)
      else d.find? "properties" := by
  unfold ObjectParts.write
  iterate 4 rw [Definition.find?_insertIf_of_ne _ _ (by decide)]
  rw [Definition.find?_insertIf_self, find?_ofType_object d (by decide)]

theorem find?_write_propertyOrder (parts : ObjectParts) (settings : Settings) (d : Definition) :
    (parts.write settings d).find? "propertyOrder" =
      if settings.usePropertyOrder then some (Json.strs parts.order)
      else d.find? "propertyOrder" := by
  unfold ObjectParts.write
  rw [Definition.find?_insertIf_of_ne _ _ (by decide), Definition.find?_insertIf_self]
  iterate 3 rw [Definition.find?_insertIf_of_ne _ _ (by decide)]
  rw [find?_ofType_object d (by decide)]

theorem find?_write_required (parts : ObjectParts) (settings : Settings) (d : Definition) :
    (parts.write settings d).find? "required" =
      if settings.generateRequired && !parts.required.isEmpty then
        some (Json.strs parts.required)
      else d.find? "required" := by
  unfold ObjectParts.write
  rw [Definition.find?_insertIf_self]
  iterate 4 rw [Definition.find?_insertIf_of_ne _ _ (by decide)]
  rw [find?_ofType_object d (by decide)]

/-! ## One property among others -/

/-- The properties have other names than the one given. -/
def OthersNamed (g : Graph) (name : String) (others : List SymbolId) : Prop :=
  ∀ other ∈ others, ∀ symbol, g.symbol other = .ok symbol → symbol.name ≠ name

/-- What is said of one name in the parts of an object does not depend on properties of other
names. -/
theorem objectProperties_of_others {name : String} {others : List SymbolId}
    (tells : ObjectParts → Prop)
    (htells : ∀ {parts other d isRequired}, other ≠ name →
      (tells (parts.add other d isRequired) ↔ tells parts))
    (hothers : OthersNamed env.graph name others)
    (h : (objectProperties env describe parts others).on p = (.ok parts', p')) :
    tells parts' ↔ tells parts := by
  induction others generalizing parts p with
  | nil =>
      cases h
      rfl
  | cons first rest ih =>
      obtain ⟨parts₁, p₁, hfirst, hrest⟩ := objectProperties_cons.1 h
      obtain ⟨property, result, hproperty, -, rfl⟩ := objectProperty_run hfirst
      obtain ⟨hne, hothers⟩ := List.forall_mem_cons.1 hothers
      rw [ih hothers hrest]
      cases result with
      | none => rfl
      | some d => exact htells (hne property hproperty)

/-- The one property of its name is described on the progress that the properties before it leave
behind, and what is said of its name in the parts of the object is what is said once it is added. -/
theorem objectProperties_at {before after : List SymbolId} {property : Symbol}
    (tells : ObjectParts → Prop)
    (htells : ∀ {parts other d isRequired}, other ≠ property.name →
      (tells (parts.add other d isRequired) ↔ tells parts))
    (hproperty : env.graph.symbol id = .ok property)
    (hothers : OthersNamed env.graph property.name (before ++ after))
    (h : (objectProperties env describe parts (before ++ id :: after)).on p = (.ok parts', p')) :
    ∃ parts₁ reached result p₁,
      (objectProperties env describe parts before).on p = (.ok parts₁, reached) ∧
      (tells parts₁ ↔ tells parts) ∧ PropertyRun env describe id reached result p₁ ∧
      (tells parts' ↔ tells (parts₁.addResult property (decide (id ∈ p₁.mayBeAbsent)) result)) := by
  obtain ⟨parts₁, reached, hbefore, hrest⟩ := objectProperties_append.1 h
  obtain ⟨parts₂, p₁, hid, hafter⟩ := objectProperties_cons.1 hrest
  obtain ⟨property', result, hproperty', hrun, rfl⟩ := objectProperty_run hid
  cases hproperty.symm.trans hproperty'
  refine ⟨parts₁, reached, result, p₁, hbefore, ?_, hrun, ?_⟩
  · exact objectProperties_of_others tells htells
      (fun other hother => hothers other (List.mem_append_left _ hother)) hbefore
  · exact objectProperties_of_others tells htells
      (fun other hother => hothers other (List.mem_append_right _ hother)) hafter

end TypeSchema.Schema
