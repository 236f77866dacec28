import TypeSchema.Proofs.Annotation.Applied
import TypeSchema.Proofs.Annotation.Written
import TypeSchema.Proofs.Objects.Required

/-!
# Ignored properties

The annotation `ignore` is written into the definition of a property and looked for when the
definition is finished.  No shape takes a keyword away, so it is found, with two exceptions: a
property without a type has no definition that it could be written into, and a definition that is
widened by a new union keeps the keyword inside the union.
-/

namespace TypeSchema

/-! ## Annotations that say to ignore a symbol -/

namespace Annotations

/-- A comment or a tag of the symbol says to ignore it, with or without the vendor's mark. -/
inductive SaysIgnore (symbol : Symbol) : Prop where
  | comment {segment rest}
      (hmem : segment ∈ (Text.split '@' (joinDocumentation symbol.documentation)).2)
      (hname : segment = "ignore".toList ++ rest ∨ segment = "TJS-ignore".toList ++ rest)
      (hend : rest.takeWhile isNameChar = [])
  | tag {tag} (hmem : tag ∈ symbol.tags) (hname : tag.name = "ignore" ∨ tag.name = "TJS-ignore")
  | vendorTag {tag text rest} (hmem : tag ∈ symbol.tags) (hname : tag.name = "TJS")
      (htext : tag.text = some text) (hignore : text.toList = "-ignore".toList ++ rest)
      (hend : rest.takeWhile (!Text.isBlank ·) = [])

theorem readAnnotation_ignore {rest : List Char} (hend : rest.takeWhile isNameChar = []) :
    readAnnotation ("ignore".toList ++ rest) = some ("ignore", rest.dropWhile isNameChar) := by
  have hname : ∀ c ∈ "ignore".toList, isNameChar c = true :=
    List.all_eq_true.1 (by decide +kernel)
  have hdrop : dropVendor ("ignore".toList ++ rest) = "ignore".toList ++ rest := rfl
  have hbegins : ("ignore".toList ++ rest).head?.any beginsName = true := rfl
  unfold readAnnotation
  rw [hdrop, if_pos hbegins, List.takeWhile_append_of_pos hname,
    List.dropWhile_append_of_pos hname, hend, List.append_nil]
  rfl

theorem readAnnotation_vendor {rest : List Char} :
    readAnnotation ("TJS-ignore".toList ++ rest) = readAnnotation ("ignore".toList ++ rest) := by
  have hdrop : dropVendor ("TJS-ignore".toList ++ rest) = dropVendor ("ignore".toList ++ rest) :=
    rfl
  unfold readAnnotation
  rw [hdrop]

theorem readTag_of_ne {tag : DocTag} (h : tag.name ≠ "TJS") :
    (readTag tag).1 = readTag.plainName tag.name := by
  unfold readTag
  dsimp only
  split
  · rw [if_neg h]
  · rfl

theorem SaysIgnore.written {symbol : Symbol} (h : SaysIgnore symbol) :
    ∃ text, ("ignore", text) ∈ written symbol := by
  unfold Annotations.written
  cases h with
  | @comment segment rest hmem hname hend =>
      refine ⟨rest.dropWhile isNameChar, List.mem_append_left _ (List.mem_filterMap.2
        ⟨segment, hmem, ?_⟩)⟩
      rcases hname with rfl | rfl
      · exact readAnnotation_ignore hend
      · exact readAnnotation_vendor.trans (readAnnotation_ignore hend)
  | @tag tag hmem hname =>
      refine ⟨(readTag tag).2, List.mem_append_right _ (List.mem_map.2 ⟨tag, hmem, ?_⟩)⟩
      have hplain : (readTag tag).1 = "ignore" := by
        rcases hname with hname | hname
        · rw [readTag_of_ne (by rw [hname]; decide), hname]
          rfl
        · rw [readTag_of_ne (by rw [hname]; decide), hname]
          rfl
      rw [← hplain]
  | @vendorTag tag text rest hmem hname htext hignore hend =>
      refine ⟨(readTag tag).2, List.mem_append_right _ (List.mem_map.2 ⟨tag, hmem, ?_⟩)⟩
      have hblank : ∀ c ∈ "ignore".toList, (!Text.isBlank c) = true :=
        List.all_eq_true.1 (by decide +kernel)
      have hread : (readTag tag).1 = "ignore" := by
        unfold readTag
        rw [htext, Option.getD_some, hignore]
        change (if tag.name = "TJS" then _ else _ : String × List Char).1 = _
        rw [if_pos hname]
        change String.ofList (("ignore".toList ++ rest).takeWhile fun c => !Text.isBlank c) = _
        rw [List.takeWhile_append_of_pos hblank, hend, List.append_nil]
        rfl
      rw [← hread]

theorem ofSymbol_ignore {extra : List String} {symbol : Symbol} (h : SaysIgnore symbol) :
    "ignore" ∈ (ofSymbol extra symbol).keywords.keys := by
  obtain ⟨text, htext⟩ := h.written
  have hpath : path "ignore" = ["ignore"] := by decide +kernel
  refine ofSymbol_key (mem_writtenPaths.2 ⟨_, htext, ?_, hpath⟩)
  simp [namesKeyword, hpath, isKeyword, builtinKeywords]

end Annotations

/-! ## Keywords that stay -/

namespace Definition

variable {d : Definition} {key : String}

def Has (key : String) (d : Definition) : Prop := key ∈ d.keys

namespace Has

theorem insert (h : Has key d) (other : String) (value : Json) : Has key (d.insert other value) :=
  Dict.mem_keys_insert.2 (.inr h)

theorem insertIf (h : Has key d) (condition : Bool) (other : String) (value : Json) :
    Has key (d.insertIf condition other value) := by
  unfold Definition.insertIf
  split
  · exact h.insert other value
  · exact h

theorem setType (h : Has key d) (tag : String) : Has key (d.setType tag) := h.insert _ _

theorem setTypes (h : Has key d) (tags : List String) : Has key (d.setTypes tags) := by
  unfold Definition.setTypes
  split
  · exact h
  · exact h.setType _
  · exact h.insert _ _

theorem merge (h : Has key d) (later : Definition) : Has key (d.merge later) := by
  obtain ⟨value, hvalue⟩ := Dict.mem_keys_iff.1 h
  refine Dict.mem_keys_iff.2 ?_
  rw [Dict.find?_merge, hvalue]
  cases later.find? key with
  | none => exact ⟨value, rfl⟩
  | some other => exact ⟨other, rfl⟩

theorem applyKeyword (h : Has key d) (keyword : String) (value : Json) :
    Has key (Annotations.applyKeyword d keyword value) := by
  rw [Annotations.applyKeyword_eq]
  exact h.insert _ _

theorem applyTo (h : Has key d) (notes : Annotations) : Has key (notes.applyTo d) := by
  unfold Annotations.applyTo
  refine List.foldlRecOn (motive := Has key) _ _ ?_
    fun _ ih entry _ => ih.applyKeyword entry.1 entry.2
  split
  · exact h.insert _ _
  · exact h

end Has

/-- Annotations write all of their keywords. -/
theorem has_of_applyTo {notes : Annotations} (h : key ∈ notes.keywords.keys) (d : Definition) :
    Has key (notes.applyTo d) := by
  obtain ⟨value, hvalue⟩ := Dict.mem_keys_iff.1 h
  have hwritten : (notes.applyTo d).find? key =
      some (Annotations.overlay ((notes.withDescription d).find? key) value) := by
    rw [Annotations.find?_applyTo, hvalue]
    rfl
  exact Dict.mem_keys_iff.2 ⟨_, hwritten⟩

theorem isIgnored_iff : d.isIgnored = true ↔ Has "ignore" d := Dict.contains_iff_mem_keys

/-- An ignored definition that is widened stays ignored only if it is a union already. -/
theorem isIgnored_makeNullable (h : d.isIgnored = true) :
    d.makeNullable.isIgnored = true ↔ d.unionKeyword ≠ none := by
  have hplain : d.isPlain = false := by
    refine Bool.eq_false_iff.2 fun hplain => ?_
    have hkey := List.all_eq_true.1 hplain "ignore" (isIgnored_iff.1 h)
    revert hkey
    decide
  simp only [makeNullable, hplain, Bool.false_eq_true, if_false, addNullBranch]
  cases hunion : d.unionKeyword with
  | none =>
      simp only [ne_eq, not_true_eq_false, iff_false]
      exact Bool.false_ne_true
  | some union =>
      simp only [ne_eq, reduceCtorEq, not_false_eq_true, iff_true]
      split
      · exact h
      · exact isIgnored_iff.2 ((isIgnored_iff.1 h).insert _ _)

end Definition

namespace Schema

open Definition (Has)

variable {env : Environment} {describe : Describe} {p p' : Progress} {id : SymbolId}
  {type : TypeId} {node : TypeNode} {ctx : Context} {d d' : Definition} {parts parts' : ObjectParts}
  {made : List Described} {key name : String} {depth : Nat}

theorem union_has (parts : UnionParts) (keyword : UnionKeyword) (hd : Has key d) :
    Has key (parts.write keyword d) := by
  unfold UnionParts.write
  split
  · exact hd
  · exact hd.merge _
  · exact hd.insert _ _

theorem object_has (parts : ObjectParts) (settings : Settings) (hd : Has key d) :
    Has key (parts.write settings d) := by
  have htype : Has key (if d.hasType then d else d.setType "object") := by
    split
    · exact hd
    · exact hd.setType _
  exact ((((htype.insertIf _ _ _).insertIf _ _ _).insertIf _ _ _).insertIf _ _ _).insertIf _ _ _

/-- No shape takes a keyword away from what is annotated. -/
theorem rendered_has {shape : Shape} (h : Rendered env node ctx d shape made d')
    (hd : Has key d) : Has key d' := by
  cases h with
  | union => exact union_has _ _ hd
  | intersection | abstract | typeof => exact hd.insert _ _
  | tuple => exact (((hd.setType _).insert _ _).insert _ _).insert _ _
  | primitive => exact hd.setType _
  | literal | array | date | emptyObject => exact (hd.setType _).insert _ _
  | nonPrimitive => exact ((hd.setType _).insert _ _).insert _ _
  | unconstrained | unsupported => exact hd
  | enum declaration => exact (hd.setTypes _).insertIf _ _ _
  | function | object => exact object_has _ _ hd
  | map key value items => cases key <;> exact (hd.setType _).insert _ _

theorem completed_has (h : Completed env node ctx d made d') (hd : Has key d) :
    Has key d' := by
  cases h with
  | annotated => exact hd
  | shaped _ _ hrendered => exact rendered_has hrendered hd

theorem remarks_property {remarks : Remarks} (h : Remarks.of env node ctx = .ok remarks)
    (hid : ctx.property = some id) {property : Symbol}
    (hproperty : env.graph.symbol id = .ok property) :
    remarks.property = .ofSymbol env.settings.validationKeywords property := by
  simp only [Remarks.of, outcome_bind_eq_ok] at h
  obtain ⟨reffed, -, notes, hnotes, own, -, hpure⟩ := h
  cases hpure
  rw [hid] at hnotes
  simp only [annotationsOf, hproperty, bind, Except.bind, pure, Except.pure] at hnotes
  cases hnotes
  rfl

/-- A property that is annotated to be ignored is so until its definition is widened. -/
theorem exists_ignored (h : (typeDefinition env depth type ctx).on p = (.ok d, p'))
    {property : Symbol} (hid : ctx.property = some id)
    (hproperty : env.graph.symbol id = .ok property)
    (hignore : Annotations.SaysIgnore property) :
    ∃ node remarks base, env.graph.typeNode type = .ok node ∧
      Remarks.of env node ctx = .ok remarks ∧ d = remarks.widen base ∧ base.isIgnored = true := by
  have hannotated {node : TypeNode} {remarks : Remarks}
      (h : Remarks.of env node ctx = .ok remarks) (d : Definition) :
      Has "ignore" (remarks.property.applyTo d) := by
    rw [remarks_property h hid hproperty]
    exact Definition.has_of_applyTo (Annotations.ofSymbol_ignore hignore) d
  obtain ⟨rest, -, hdescribed⟩ := typeDefinition_ok h
  cases hdescribed with
  | inlined hnode hremarks _ _ hd =>
      refine ⟨_, _, _, hnode, hremarks, rfl, Definition.isIgnored_iff.2 (completed_has hd ?_)⟩
      exact (hannotated hremarks _).applyTo _
  | known hnode hremarks | new hnode hremarks =>
      exact ⟨_, _, _, hnode, hremarks, rfl, Definition.isIgnored_iff.2 (hannotated hremarks _)⟩

/-! ## Names that an object mentions -/

/-- The names of the properties that a definition describes. -/
def propertyNames (d : Definition) : List String :=
  match d.find? "properties" with
  | some (.obj fields) => Entries.keys fields
  | _ => []

def propertyOrder (d : Definition) : List String :=
  match d.find? "propertyOrder" with
  | some (.arr items) => items.filterMap Json.str?
  | _ => []

def Mentions (name : String) (d : Definition) : Prop :=
  name ∈ propertyNames d ∨ name ∈ propertyOrder d ∨ name ∈ d.required

/-- The definition has no keyword yet that mentions properties. -/
structure MentionsNothing (d : Definition) : Prop where
  properties : d.find? "properties" = none
  order : d.find? "propertyOrder" = none
  required : d.find? "required" = none

/-- Only names of properties are ordered or required. -/
structure OrdersProperties (parts : ObjectParts) : Prop where
  order : parts.order ⊆ parts.properties.keys
  required : parts.required ⊆ parts.properties.keys

theorem OrdersProperties.add (h : OrdersProperties parts) (name : String) (d : Definition)
    (isRequired : Bool) : OrdersProperties (parts.add name d isRequired) := by
  have hkeep : parts.properties.keys ⊆ (parts.add name d isRequired).properties.keys :=
    fun other hother => Dict.mem_keys_insert.2 (.inr hother)
  have hname : name ∈ (parts.add name d isRequired).properties.keys :=
    Dict.mem_keys_insert.2 (.inl rfl)
  constructor
  · intro other hother
    rcases List.mem_append.1 hother with hother | hother
    · exact hkeep (h.order hother)
    · rwa [List.mem_singleton.1 hother]
  · intro other hother
    unfold ObjectParts.add at hother
    dsimp only at hother
    split at hother
    · rcases Names.mem_insert.1 hother with rfl | hother
      · exact hname
      · exact hkeep (h.required hother)
    · exact hkeep (h.required hother)

theorem objectProperties_orders {properties : List SymbolId} (hparts : OrdersProperties parts)
    (h : (objectProperties env describe parts properties).on p = (.ok parts', p')) :
    OrdersProperties parts' := by
  induction properties generalizing parts p with
  | nil =>
      cases h
      exact hparts
  | cons first rest ih =>
      obtain ⟨parts₁, p₁, hfirst, hrest⟩ := objectProperties_cons.1 h
      obtain ⟨property, result, -, -, rfl⟩ := objectProperty_run hfirst
      refine ih ?_ hrest
      cases result with
      | none => exact hparts
      | some d => exact hparts.add _ _ _

theorem propertyNames_write (settings : Settings) (hd : d.find? "properties" = none) :
    propertyNames (parts.write settings d) = parts.properties.keys := by
  rw [propertyNames, find?_write_properties]
  cases hempty : parts.properties.isEmpty with
  | false => rfl
  | true => simp [hd, Dict.keys_eq_nil_iff.2 hempty]

theorem propertyOrder_write (settings : Settings) (hd : d.find? "propertyOrder" = none) :
    propertyOrder (parts.write settings d) =
      if settings.usePropertyOrder then parts.order else [] := by
  rw [propertyOrder, find?_write_propertyOrder]
  cases settings.usePropertyOrder with
  | false => simp [hd]
  | true => exact Json.filterMap_strs parts.order

theorem mentions_write (settings : Settings) (hd : MentionsNothing d)
    (hparts : OrdersProperties parts) :
    Mentions name (parts.write settings d) ↔ name ∈ parts.properties.keys := by
  rw [Mentions, propertyNames_write settings hd.properties, propertyOrder_write settings hd.order,
    required_write settings hd.required]
  refine or_iff_left_of_imp ?_
  rintro (horder | hrequired)
  · split at horder
    · exact hparts.order horder
    · exact absurd horder List.not_mem_nil
  · split at hrequired
    · exact hparts.required hrequired
    · exact absurd hrequired List.not_mem_nil

theorem mem_properties_add {other : String} {isRequired : Bool} (hother : other ≠ name) :
    name ∈ (parts.add other d isRequired).properties.keys ↔ name ∈ parts.properties.keys :=
  Dict.mem_keys_insert.trans (or_iff_right hother.symm)

theorem mem_properties_addResult {property : Symbol} {absent : Bool} {result : Option Definition} :
    name ∈ (parts.addResult property absent result).properties.keys ↔
      name ∈ parts.properties.keys ∨ name = property.name ∧ result.isSome = true := by
  cases result with
  | none => simp [ObjectParts.addResult]
  | some d =>
      rw [ObjectParts.addResult, ObjectParts.add, Dict.mem_keys_insert, or_comm]
      simp

/-- Null is admitted to the definition of the property by a union that is made around it. -/
def IsWrapped (env : Environment) (describe : Describe) (before : List SymbolId) (id : SymbolId)
    (p : Progress) : Prop :=
  ∃ type ctx parts reached node remarks base p₁, placeOf env id = .ok (some (type, ctx)) ∧
    (objectProperties env describe .empty before).on p = (.ok parts, reached) ∧
    (describe type ctx).on reached = (.ok (remarks.widen base), p₁) ∧
    env.graph.typeNode type = .ok node ∧ Remarks.of env node ctx = .ok remarks ∧
    remarks.isNullable = true ∧ base.isIgnored = true ∧ base.unionKeyword = none

theorem isIgnored_widen {remarks : Remarks} {base : Definition} (hbase : base.isIgnored = true) :
    (remarks.widen base).isIgnored = false ↔
      remarks.isNullable = true ∧ base.unionKeyword = none := by
  unfold Remarks.widen
  split
  · rename_i hnullable
    rw [← Bool.not_eq_true, Definition.isIgnored_makeNullable hbase, not_not]
    exact (and_iff_right hnullable).symm
  · rename_i hnullable
    simp [hbase, hnullable]

/-- An object mentions a property that is annotated to be ignored just if the property has no type
or null is admitted to its definition by a union that is made around it. -/
theorem ignored_property_mentioned_iff (before after : List SymbolId) {property : Symbol}
    (hd : MentionsNothing d) (hproperty : env.graph.symbol id = .ok property)
    (hothers : OthersNamed env.graph property.name (before ++ after))
    (hignore : Annotations.SaysIgnore property)
    (h : (objectDefinition env (typeDefinition env depth) (before ++ id :: after) d).on p =
      (.ok d', p')) :
    Mentions property.name d' ↔
      property.type = none ∨ IsWrapped env (typeDefinition env depth) before id p := by
  rw [objectDefinition, Run.on_bind_eq_ok] at h
  obtain ⟨parts', p₂, hall, hpure⟩ := h
  cases hpure
  have horders : OrdersProperties parts' :=
    objectProperties_orders ⟨List.nil_subset _, List.nil_subset _⟩ hall
  obtain ⟨parts, reached, result, p₁, hbefore, hnone, hrun, hfinal⟩ :=
    objectProperties_at (property.name ∈ ·.properties.keys) mem_properties_add hproperty hothers
      hall
  have hbefore' : property.name ∉ parts.properties.keys := fun h => List.not_mem_nil (hnone.1 h)
  have hmentions : Mentions property.name (parts'.write env.settings d) ↔
      result.isSome = true := by
    rw [mentions_write env.settings hd horders, hfinal, mem_properties_addResult]
    simp [hbefore']
  rw [hmentions]
  -- Both the run and what is said of it describe the property on the same progress.
  have hwrapped {type : TypeId} {ctx : Context} {own : Definition} {p₁ : Progress}
      (hplace : placeOf env id = .ok (some (type, ctx))) (hid : ctx.property = some id)
      (hown : (typeDefinition env depth type ctx).on reached = (.ok own, p₁)) :
      IsWrapped env (typeDefinition env depth) before id p ↔ own.isIgnored = false := by
    constructor
    · rintro ⟨_, _, _, _, _, remarks, base, _, hplace', hbefore', hown', -, -, hwiden⟩
      cases hplace.symm.trans hplace'
      cases hbefore.symm.trans hbefore'
      cases hown.symm.trans hown'
      exact (isIgnored_widen hwiden.2.1).2 ⟨hwiden.1, hwiden.2.2⟩
    · intro hkept
      obtain ⟨node, remarks, base, hnode, hremarks, rfl, hbase⟩ :=
        exists_ignored hown hid hproperty hignore
      obtain ⟨hnullable, hunion⟩ := (isIgnored_widen hbase).1 hkept
      exact ⟨_, _, _, _, _, remarks, base, _, hplace, hbefore, hown, hnode, hremarks, hnullable,
        hbase, hunion⟩
  have htyped {declaration : Option Declaration} {type : TypeId} {ctx : Context}
      (place : PropertyPlace env id declaration type ctx) : property.type ≠ none := by
    obtain ⟨property', hproperty', htype⟩ := place.hasType
    cases hproperty.symm.trans hproperty'
    simp [htype]
  cases hrun with
  | untyped hproperty' htype =>
      cases hproperty.symm.trans hproperty'
      simp [htype]
  | ignored place hrun hd =>
      rw [hwrapped (placeOf_eq place) place.property hrun]
      simp [htyped place, hd]
  | kept place hrun hd =>
      rw [hwrapped (placeOf_eq place) place.property hrun]
      simp [hd]

/-! ## Ignored and nullable -/

/-- An interface `Account` with a property `secret` that is to be ignored and is nullable. -/
def accountGraph : Graph where
  modules := []
  declarations := ∅
  symbols := .ofEntries [
    (⟨"name"⟩, { Symbol.blank with name := "name", type := some ⟨"string"⟩ }),
    (⟨"secret"⟩, { Symbol.blank with
      name := "secret", type := some ⟨"string"⟩, documentation := ["@ignore\n@nullable"] })]
  types := .ofEntries [(⟨"string"⟩, ⟨"string", none, .string⟩)]
  diagnostics := []
  strictNullChecks := false

def accountEnvironment : Environment := ⟨accountGraph, .default, .empty⟩

def secretSymbol : Symbol :=
  { Symbol.blank with
    name := "secret", type := some ⟨"string"⟩, documentation := ["@ignore\n@nullable"] }

theorem secret_ignored : Annotations.SaysIgnore secretSymbol := by
  have hsegment : "ignore\n".toList ∈
      (Text.split '@' (Annotations.joinDocumentation secretSymbol.documentation)).2 := by
    decide +kernel
  have hname : "ignore\n".toList = "ignore".toList ++ ['\n'] := rfl
  exact .comment hsegment (.inl hname) rfl

theorem name_named : OthersNamed accountGraph "secret" [⟨"name"⟩] := by
  intro other hother symbol hsymbol
  cases List.mem_singleton.1 hother
  cases hsymbol
  decide

def describeAccount : Describing Definition :=
  objectDefinition accountEnvironment (typeDefinition accountEnvironment maxDepth)
    [⟨"name"⟩, ⟨"secret"⟩] Dict.empty

theorem account_mentions_secret :
    ∃ d p, describeAccount.on .initial = (.ok d, p) ∧ Mentions "secret" d := by
  obtain ⟨d, p, hrun, hcheck⟩ : ∃ d p, describeAccount.on .initial = (.ok d, p) ∧
      decide (propertyNames d = ["name", "secret"]) = true := Run.exists_ok (by decide +kernel)
  refine ⟨d, p, hrun, .inl ?_⟩
  rw [of_decide_eq_true hcheck]
  decide

theorem ignored_property_mentioned_iff_secret :
    ∃ d p, describeAccount.on .initial = (.ok d, p) ∧
      (Mentions "secret" d ↔ secretSymbol.type = none ∨ IsWrapped accountEnvironment
        (typeDefinition accountEnvironment maxDepth) [⟨"name"⟩] ⟨"secret"⟩ .initial) := by
  obtain ⟨d, p, hrun, -⟩ := account_mentions_secret
  exact ⟨d, p, hrun, ignored_property_mentioned_iff [⟨"name"⟩] [] ⟨rfl, rfl, rfl⟩ rfl name_named
    secret_ignored hrun⟩

/-- A property that is annotated to be ignored may stand in the definition of its object. -/
theorem ignored_property_may_be_mentioned :
    ¬ ∀ (env : Environment) (depth : Nat) (p p' : Progress) (before after : List SymbolId)
        (id : SymbolId) (property : Symbol) (d d' : Definition), MentionsNothing d →
      env.graph.symbol id = .ok property →
      OthersNamed env.graph property.name (before ++ after) → Annotations.SaysIgnore property →
      (objectDefinition env (typeDefinition env depth) (before ++ id :: after) d).on p =
        (.ok d', p') → ¬ Mentions property.name d' := by
  intro hclaim
  obtain ⟨d, p, hrun, hmentions⟩ := account_mentions_secret
  exact hclaim accountEnvironment maxDepth .initial p [⟨"name"⟩] [] ⟨"secret"⟩ secretSymbol
    Dict.empty d ⟨rfl, rfl, rfl⟩ rfl name_named secret_ignored hrun hmentions

end Schema

end TypeSchema
