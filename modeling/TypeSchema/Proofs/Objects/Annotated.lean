import TypeSchema.Proofs.Objects.Ignored
import TypeSchema.Proofs.Schema.Overlay

/-!
# Annotated properties

The annotations of a property are written into its definition first, and the shape of its type
afterwards.  So an annotated keyword is lost where the shape writes a keyword of the same name; a
path of keys is lost with its first key, since nothing is written inside what is there.
-/

namespace TypeSchema

theorem Definition.follow_toJson (d : Definition) (key : String) (rest : List String) :
    d.toJson.follow (key :: rest) = (d.find? key).bind (Json.follow rest) := rfl

namespace Schema

variable {env : Environment} {p p' : Progress} {id : SymbolId} {property : Symbol} {d : Definition}
  {key : String} {rest : List String} {depth : Nat} {value value' : Option Json}

/-! ## What is written over annotations -/

/-- The annotations of the property alone concern its definition: it is not nullable and has no
initializer, and nothing is annotated on its type and on the alias that is written for it. -/
structure AnnotatedAlone (env : Environment) (id : SymbolId) : Prop where
  notNullable : ∀ property, env.graph.symbol id = .ok property →
    (Annotations.ofSymbol env.settings.validationKeywords property).isNullable = false
  uninitialized : ∀ declaration, env.graph.firstDeclaration id = .ok (some declaration) →
    declaration.initializer = none
  others : ∀ type ctx node remarks, placeOf env id = .ok (some (type, ctx)) →
    env.graph.typeNode type = .ok node → Remarks.of env node ctx = .ok remarks →
    remarks.own = .empty ∧ remarks.reffed = .empty

/-- The type of the property is described where it stands, has no annotated type, and its shape
makes this of the empty definition. -/
inductive Inferred (env : Environment) (id : SymbolId) (p : Progress) :
    Nat → Shape → Definition → Prop where
  | intro {depth type ctx node remarks shape bare p'}
      (hplace : placeOf env id = .ok (some (type, ctx)))
      (hnode : env.graph.typeNode type = .ok node)
      (hname : referenceOf env type ctx = .ok none)
      (hremarks : Remarks.of env node ctx = .ok remarks)
      (htype : (remarks.onType true).hasType = false)
      (hshape : Shape.ofNode env.graph node ctx.reffed = .ok shape)
      (hbare : (render env (typeDefinition env depth) node ctx shape Dict.empty).on p =
        (.ok bare, p')) :
      Inferred env id p (depth + 1) shape bare

/-- What stands under the keyword in the definition of the property, whatever is annotated: nothing
if the property has no type, or else what the shape of its type writes there. -/
inductive Overwritten (env : Environment) (depth : Nat) (id : SymbolId) (p : Progress)
    (key : String) : Option Json → Prop where
  | untyped {symbol} (hsymbol : env.graph.symbol id = .ok symbol) (htype : symbol.type = none) :
      Overwritten env depth id p key none
  | inferred {shape bare written} (hinferred : Inferred env id p depth shape bare)
      (hkeeps : shape.keeps key = false) (hwritten : bare.find? key = some written) :
      Overwritten env depth id p key (some written)

theorem type_ne_none {type : TypeId} {ctx : Context}
    (hplace : placeOf env id = .ok (some (type, ctx)))
    (hproperty : env.graph.symbol id = .ok property) : property.type ≠ none := by
  obtain ⟨declaration, place⟩ := exists_place hplace
  obtain ⟨property', hproperty', htype⟩ := place.hasType
  cases hproperty.symm.trans hproperty'
  simp [htype]

theorem Inferred.unique {shape shape' : Shape} {bare bare' : Definition}
    (h : Inferred env id p depth shape bare) (h' : Inferred env id p depth shape' bare') :
    shape' = shape ∧ bare' = bare := by
  cases h with
  | intro hplace hnode _ _ _ hshape hbare =>
      cases h' with
      | intro hplace' hnode' _ _ _ hshape' hbare' =>
          cases hplace.symm.trans hplace'
          cases hnode.symm.trans hnode'
          cases hshape.symm.trans hshape'
          cases hbare.symm.trans hbare'
          exact ⟨rfl, rfl⟩

theorem Inferred.typed {shape : Shape} {bare : Definition}
    (h : Inferred env id p depth shape bare) (hproperty : env.graph.symbol id = .ok property) :
    property.type ≠ none := by
  cases h with
  | intro hplace => exact type_ne_none hplace hproperty

theorem Overwritten.unique (h : Overwritten env depth id p key value)
    (h' : Overwritten env depth id p key value') : value' = value := by
  cases h with
  | untyped hsymbol htype =>
      cases h' with
      | untyped => rfl
      | inferred hinferred => exact absurd htype (hinferred.typed hsymbol)
  | inferred hinferred _ hwritten =>
      cases h' with
      | untyped hsymbol htype => exact absurd htype (hinferred.typed hsymbol)
      | inferred hinferred' _ hwritten' =>
          obtain ⟨-, rfl⟩ := hinferred.unique hinferred'
          exact hwritten'.symm.trans hwritten

theorem not_overwritten (hproperty : env.graph.symbol id = .ok property)
    (htyped : property.type ≠ none)
    (h : ∀ shape bare, Inferred env id p depth shape bare →
      shape.keeps key = true ∨ bare.find? key = none) (value : Option Json) :
    ¬ Overwritten env depth id p key value := by
  intro hover
  cases hover with
  | untyped hsymbol htype =>
      cases hproperty.symm.trans hsymbol
      exact htyped htype
  | inferred hinferred hkeeps hwritten =>
      rcases h _ _ hinferred with hkept | hnone
      · rw [hkeeps] at hkept
        cases hkept
      · rw [hwritten] at hnone
        cases hnone

/-! ## What is left of annotations -/

theorem onType_alone {remarks : Remarks} (hown : remarks.own = .empty)
    (hreffed : remarks.reffed = .empty) :
    remarks.onType true = remarks.property.applyTo Dict.empty := by
  rw [Remarks.onType, hown, hreffed]
  rfl

theorem widen_alone {remarks : Remarks} (hown : remarks.own = .empty)
    (hreffed : remarks.reffed = .empty) (hnullable : remarks.property.isNullable = false)
    (d : Definition) : remarks.widen d = d := by
  rw [Remarks.widen, Remarks.isNullable, hown, hreffed, hnullable]
  rfl

/-- The value is what is written over the keyword, or what is annotated if nothing is. -/
def OverwrittenOrKept (env : Environment) (depth : Nat) (id : SymbolId) (p : Progress)
    (notes : Annotations) (key : String) (value : Option Json) : Prop :=
  Overwritten env depth id p key value ∨
    (∀ other, ¬ Overwritten env depth id p key other) ∧ value = notes.keywords.find? key

section

variable {type : TypeId} {ctx : Context} {node : TypeNode} {remarks : Remarks}
  {notes : Annotations} (hproperty : env.graph.symbol id = .ok property)
  (hplace : placeOf env id = .ok (some (type, ctx)))

include hproperty hplace

/-- A definition that is completed by a shape. -/
theorem find?_complete (hnode : env.graph.typeNode type = .ok node)
    (hremarks : Remarks.of env node ctx = .ok remarks)
    (hname : referenceOf env type ctx = .ok none)
    (hannotated : (remarks.onType true).find? key = notes.keywords.find? key)
    (hkey : key ∈ notes.keywords.keys)
    (h : (complete env (typeDefinition env depth) node ctx (remarks.onType true)).on p =
      (.ok d, p')) :
    OverwrittenOrKept env (depth + 1) id p notes key (d.find? key) := by
  have htyped := type_ne_none hplace hproperty
  unfold complete at h
  split at h
  · rename_i htype
    cases h
    refine .inr ⟨not_overwritten hproperty htyped fun shape bare hinferred => ?_, hannotated⟩
    cases hinferred with
    | intro hplace' hnode' _ hremarks' htype' =>
        cases hplace.symm.trans hplace'
        cases hnode.symm.trans hnode'
        cases hremarks.symm.trans hremarks'
        rw [htype] at htype'
        cases htype'
  · rename_i htype
    simp only [Run.on_bind_eq_ok, Run.on_ofExcept_eq_ok] at h
    obtain ⟨shape, p₁, ⟨hshape, heq⟩, h⟩ := h
    rw [heq] at h
    -- What the shape writes is found out on the empty definition, from the same progress.
    obtain ⟨bare, hbare, hover⟩ := exists_bare (Bool.eq_false_iff.2 htype) h
    have hinferred : Inferred env id p (depth + 1) shape bare :=
      .intro hplace hnode hname hremarks (Bool.eq_false_iff.2 htype) hshape hbare
    have hnot (hkept : shape.keeps key = true ∨ bare.find? key = none) :
        ∀ value, ¬ Overwritten env (depth + 1) id p key value := by
      refine not_overwritten hproperty htyped fun shape' bare' hinferred' => ?_
      obtain ⟨rfl, rfl⟩ := hinferred.unique hinferred'
      exact hkept
    cases hkeeps : shape.keeps key with
    | true =>
        have hcontains : (remarks.onType true).contains key = true := by
          obtain ⟨value, hvalue⟩ := Dict.mem_keys_iff.1 hkey
          exact congrArg Option.isSome (hannotated.trans hvalue)
        refine .inr ⟨hnot (.inl hkeeps), ?_⟩
        rw [(hover key).2 hkeeps hcontains, hannotated]
    | false =>
        rw [(hover key).1 hkeeps]
        cases hwritten : bare.find? key with
        | some value => exact .inl (.inferred hinferred hkeeps hwritten)
        | none => exact .inr ⟨hnot (.inr hwritten), hannotated⟩

theorem find?_typeDefinition (halone : AnnotatedAlone env id) (hid : ctx.property = some id)
    (hkey : key ∈ (Annotations.ofSymbol env.settings.validationKeywords property).keywords.keys)
    (h : (typeDefinition env depth type ctx).on p = (.ok d, p')) :
    OverwrittenOrKept env depth id p
      (.ofSymbol env.settings.validationKeywords property) key (d.find? key) := by
  have hnullable := halone.notNullable property hproperty
  have hreference {name : String} {node : TypeNode} {remarks : Remarks}
      (hnode : env.graph.typeNode type = .ok node)
      (hremarks : Remarks.of env node ctx = .ok remarks)
      (hname : referenceOf env type ctx = .ok (some name)) :
      OverwrittenOrKept env depth id p (.ofSymbol env.settings.validationKeywords property) key
        ((remarks.widen (remarks.onReference name)).find? key) := by
    obtain ⟨hown, hreffed⟩ := halone.others type ctx node remarks hplace hnode hremarks
    have hnotes := remarks_property hremarks hid hproperty
    refine .inr ⟨not_overwritten hproperty (type_ne_none hplace hproperty) ?_, ?_⟩
    · intro shape bare hinferred
      cases hinferred with
      | intro hplace' _ hname' =>
          cases hplace.symm.trans hplace'
          cases hname.symm.trans hname'
    · rw [widen_alone hown hreffed (by rw [hnotes]; exact hnullable), Remarks.onReference, hnotes]
      refine Annotations.find?_applyTo_of_not_object (fun other nested => ?_) hkey
      rw [Definition.reference, Dict.find?_insert]
      split
      · exact fun h => by cases h
      · exact fun h => by cases h
  obtain ⟨below, rfl, hrun⟩ := typeDefinition_run h
  cases hrun with
  | inlined hnode hremarks hname hcomplete =>
      obtain ⟨hown, hreffed⟩ := halone.others type ctx _ _ hplace hnode hremarks
      have hnotes := remarks_property hremarks hid hproperty
      rw [widen_alone hown hreffed (by rw [hnotes]; exact hnullable)]
      refine find?_complete hproperty hplace hnode hremarks hname ?_ hkey hcomplete
      rw [onType_alone hown hreffed, hnotes]
      exact Annotations.find?_applyTo_of_not_object (fun _ _ h => by cases h) hkey
  | known hnode hremarks hname => exact hreference hnode hremarks hname
  | new hnode hremarks hname => exact hreference hnode hremarks hname

end

theorem find?_property (hproperty : env.graph.symbol id = .ok property)
    (halone : AnnotatedAlone env id)
    (hkey : key ∈ (Annotations.ofSymbol env.settings.validationKeywords property).keywords.keys)
    (h : (propertyDefinition env (typeDefinition env depth) id).on p = (.ok (some d), p')) :
    OverwrittenOrKept env depth id p (.ofSymbol env.settings.validationKeywords property) key
      (d.find? key) := by
  have huninitialized {declaration : Option Declaration}
      (hdeclared : env.graph.firstDeclaration id = .ok declaration) :
      declaration.bind (·.initializer) = none := by
    cases declaration with
    | none => rfl
    | some declaration => exact halone.uninitialized declaration hdeclared
  generalize hresult : some d = result at h
  cases propertyDefinition_run h with
  | untyped hsymbol htype =>
      cases hresult
      exact .inl (.untyped hsymbol htype)
  | ignored => cases hresult
  | kept place hrun =>
      rw [huninitialized place.isDeclared] at hresult
      cases hresult
      exact find?_typeDefinition hproperty (placeOf_eq place) halone place.property hkey hrun

/-- What is annotated at a path of keywords stands there in the definition of the property just if
whatever is written over the first keyword has the same at the rest of the path. -/
theorem annotation_survives_iff (halone : AnnotatedAlone env id)
    (hproperty : env.graph.symbol id = .ok property)
    (hpath : key :: rest ∈ Annotations.writtenPaths env.settings.validationKeywords property)
    (h : (propertyDefinition env (typeDefinition env depth) id).on p = (.ok (some d), p')) :
    d.toJson.follow (key :: rest) =
        (Json.ofDict (Annotations.ofSymbol env.settings.validationKeywords
          property).keywords).follow (key :: rest) ↔
      ∀ value, Overwritten env depth id p key value →
        value.bind (Json.follow rest) =
          (Json.ofDict (Annotations.ofSymbol env.settings.validationKeywords
            property).keywords).follow (key :: rest) := by
  rw [Definition.follow_toJson]
  obtain hover | ⟨hnot, hkept⟩ := find?_property hproperty halone (Annotations.ofSymbol_key hpath) h
  · constructor
    · intro hsame value hvalue
      rwa [hover.unique hvalue]
    · exact fun hsame => hsame _ hover
  · constructor
    · exact fun _ value hvalue => absurd hvalue (hnot value)
    · intro _
      rw [hkept]
      rfl

/-- What is annotated at a path of keywords stands there if the property has a type whose shape may
not write the first of them. -/
theorem annotation_stays (halone : AnnotatedAlone env id)
    (hproperty : env.graph.symbol id = .ok property) (htyped : property.type ≠ none)
    (hpath : key :: rest ∈ Annotations.writtenPaths env.settings.validationKeywords property)
    (hshape : ∀ type ctx node shape, placeOf env id = .ok (some (type, ctx)) →
      env.graph.typeNode type = .ok node → Shape.ofNode env.graph node ctx.reffed = .ok shape →
      shape.mayWrite key = false)
    (h : (propertyDefinition env (typeDefinition env depth) id).on p = (.ok (some d), p')) :
    d.toJson.follow (key :: rest) =
      (Json.ofDict (Annotations.ofSymbol env.settings.validationKeywords
        property).keywords).follow (key :: rest) := by
  have hbare (shape : Shape) (bare : Definition) (hinferred : Inferred env id p depth shape bare) :
      bare.find? key = none := by
    cases hinferred with
    | intro hplace hnode _ _ _ hof hrender =>
        obtain ⟨made, -, hrendered⟩ := render_ok hrender
        exact find?_of_not_mayWrite hrendered (hshape _ _ _ _ hplace hnode hof)
  rw [Definition.follow_toJson]
  obtain hover | ⟨-, hkept⟩ := find?_property hproperty halone (Annotations.ofSymbol_key hpath) h
  · exact absurd hover
      (not_overwritten hproperty htyped (fun shape bare hinferred => .inr (hbare _ _ hinferred)) _)
  · rw [hkept]
    rfl

/-! ## Numbers that are bounded from below -/

def scoresSymbol : Symbol :=
  { Symbol.blank with
    name := "scores", type := some ⟨"number[]"⟩, documentation := ["@items.minimum 0"] }

/-- A property `scores` for a list of numbers that are annotated not to be negative. -/
def scoreGraph : Graph where
  modules := []
  declarations := ∅
  symbols := .ofEntries [
    (⟨"scores"⟩, scoresSymbol), (⟨"Array"⟩, { Symbol.blank with name := "Array" })]
  types := .ofEntries [
    (⟨"number"⟩, ⟨"number", none, .number⟩),
    (⟨"number[]"⟩, ⟨"number[]", some ⟨"Array"⟩,
      .object { ObjectType.blank with typeArguments := [⟨"number"⟩] }⟩)]
  diagnostics := []
  strictNullChecks := false

def scoreEnvironment : Environment := ⟨scoreGraph, .default, .empty⟩

def scoreKeywords : Json :=
  .ofDict (Annotations.ofSymbol scoreEnvironment.settings.validationKeywords scoresSymbol).keywords

def describeScores : Describing (Option Definition) :=
  propertyDefinition scoreEnvironment (typeDefinition scoreEnvironment maxDepth) ⟨"scores"⟩

theorem scores_annotated_alone : AnnotatedAlone scoreEnvironment ⟨"scores"⟩ := by
  refine ⟨fun property hproperty => ?_, fun declaration hdeclared => ?_,
    fun type ctx node remarks hplace hnode hremarks => ?_⟩
  · cases hproperty
    decide +kernel
  · cases hdeclared
  · cases hplace
    cases hnode
    cases hremarks
    exact ⟨rfl, rfl⟩

theorem scores_written :
    ["items", "minimum"] ∈
      Annotations.writtenPaths scoreEnvironment.settings.validationKeywords scoresSymbol := by
  decide +kernel

theorem scores_described :
    ∃ d p, describeScores.on .initial = (.ok (some d), p) ∧
      d.toJson.follow ["items", "minimum"] = none ∧
      scoreKeywords.follow ["items", "minimum"] ≠ none := by
  obtain ⟨result, p, hrun, hcheck⟩ : ∃ result p, describeScores.on .initial = (.ok result, p) ∧
      result.any (fun d => (d.toJson.follow ["items", "minimum"]).isNone) = true :=
    Run.exists_ok (by decide +kernel)
  cases result with
  | none => cases hcheck
  | some d =>
      exact ⟨d, p, hrun, Option.isNone_iff_eq_none.1 hcheck,
        Option.isSome_iff_ne_none.1 (by decide +kernel)⟩

theorem annotation_survives_iff_scores :
    ∃ d p, describeScores.on .initial = (.ok (some d), p) ∧
      (d.toJson.follow ["items", "minimum"] = scoreKeywords.follow ["items", "minimum"] ↔
        ∀ value, Overwritten scoreEnvironment maxDepth ⟨"scores"⟩ .initial "items" value →
          value.bind (Json.follow ["minimum"]) = scoreKeywords.follow ["items", "minimum"]) := by
  obtain ⟨d, p, hrun, -⟩ := scores_described
  exact ⟨d, p, hrun, annotation_survives_iff scores_annotated_alone rfl scores_written hrun⟩

/-- An annotation of a property may be missing from its definition. -/
theorem annotation_may_be_lost :
    ¬ ∀ (env : Environment) (depth : Nat) (p p' : Progress) (id : SymbolId) (property : Symbol)
        (d : Definition) (key : String) (rest : List String), AnnotatedAlone env id →
      env.graph.symbol id = .ok property →
      key :: rest ∈ Annotations.writtenPaths env.settings.validationKeywords property →
      (propertyDefinition env (typeDefinition env depth) id).on p = (.ok (some d), p') →
      d.toJson.follow (key :: rest) =
        (Json.ofDict (Annotations.ofSymbol env.settings.validationKeywords
          property).keywords).follow (key :: rest) := by
  intro hclaim
  obtain ⟨d, p, hrun, hlost, hannotated⟩ := scores_described
  have hsame := hclaim scoreEnvironment maxDepth .initial p ⟨"scores"⟩ scoresSymbol d "items"
    ["minimum"] scores_annotated_alone rfl scores_written hrun
  exact hannotated (hsame.symm.trans hlost)

end Schema

end TypeSchema
