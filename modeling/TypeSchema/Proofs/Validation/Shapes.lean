import TypeSchema.Proofs.Validation.Unions

/-!
# Types with and without references

A type is described twice, once where types may be referred to by name and once where all of them
are inlined.  If the definitions of its parts have the same verdicts, so do the two definitions of
the type; properties, items and branches match one by one.
-/

namespace TypeSchema

/-- The environment in which no type inside another is referred to. -/
def Environment.withoutRefs (env : Environment) : Environment :=
  { env with settings := { env.settings with useRef := false } }

def Context.withoutRef (ctx : Context) : Context := { ctx with asRef := false }

namespace Schema

variable {env : Environment} {refers refers' : String → TypeId → Context → Prop} {type : TypeId}
  {node : TypeNode} {ctx : Context} {d d' : Definition} {id : SymbolId}

/-! ## Programs without annotations -/

def IsPlain (g : Graph) : Prop :=
  ∀ symbol ∈ g.symbols.values, symbol.documentation = [] ∧ symbol.tags = []

instance (g : Graph) : Decidable (IsPlain g) :=
  inferInstanceAs (Decidable (∀ symbol ∈ g.symbols.values, _))

theorem remarks_plain {remarks : Remarks} (hplain : IsPlain env.graph)
    (h : Remarks.of env node ctx = .ok remarks) : remarks = ⟨.empty, .empty, .empty⟩ := by
  obtain ⟨reffed, property, own⟩ := remarks
  obtain ⟨rfl, rfl, rfl⟩ := remarks_induction (P := (· = .empty)) rfl (fun symbol hsymbol => by
    obtain ⟨hdocumentation, htags⟩ := hplain symbol hsymbol
    rw [Annotations.ofSymbol, hdocumentation, htags]
    rfl) h
  rfl

theorem Given.plain (hplain : IsPlain env.graph) (h : Given env refers type ctx d) :
    (referenceOf env type ctx = .ok none ∧ ∃ node made, env.graph.typeNode type = .ok node ∧
      AllGiven env refers made ∧ Completes env node ctx Dict.empty made d) ∨
    ∃ name, referenceOf env type ctx = .ok (some name) ∧ refers name type ctx ∧
      d = Definition.reference name := by
  cases h with
  | inlined hnode hremarks hname hmade hd =>
      cases remarks_plain hplain hremarks
      exact .inl ⟨hname, _, _, hnode, hmade, hd⟩
  | referred hnode hremarks hname href =>
      cases remarks_plain hplain hremarks
      exact .inr ⟨_, hname, href, rfl⟩

theorem leavesOut_plain (hplain : IsPlain env.graph) (h : Given env refers type ctx d) :
    leavesOut env type ctx = true ↔ ∃ node members, env.graph.typeNode type = .ok node ∧
      node.kind = .union members ∧ ∃ member ∈ members, isLeftOut env member = true := by
  rw [leavesOut_iff]
  constructor
  · rintro ⟨node, name, remarks, members, hnode, -, -, hkind, -, hmember⟩
    exact ⟨node, members, hnode, hkind, hmember⟩
  · rintro ⟨node, members, hnode, hkind, hmember⟩
    obtain ⟨name, remarks, hname, hremarks⟩ : ∃ name remarks,
        referenceOf env type ctx = .ok name ∧ Remarks.of env node ctx = .ok remarks := by
      cases h with
      | inlined hnode' hremarks hname | referred hnode' hremarks hname =>
          cases hnode.symm.trans hnode'
          exact ⟨_, _, hname, hremarks⟩
    refine ⟨node, name, remarks, members, hnode, hname, hremarks, hkind, ?_, hmember⟩
    cases remarks_plain hplain hremarks
    cases name <;> rfl

/-- A member of a union is left out for being undefined with references just if it is without. -/
def SameAbsent (env : Environment) : Prop :=
  ∀ type node members, env.graph.typeNode type = .ok node → node.kind = .union members →
    ∀ member ∈ members, isLeftOut env.withoutRefs member = isLeftOut env member

theorem PropertyPlace.withoutRef {declaration : Option Declaration}
    (h : PropertyPlace env id declaration type ctx) :
    PropertyPlace env.withoutRefs id declaration type ctx.withoutRef := by
  obtain ⟨htype, hdeclared, reffed, hreffed, rfl⟩ := h
  exact ⟨htype, hdeclared, reffed, hreffed, rfl⟩

theorem mayBeAbsent_withoutRefs (hplain : IsPlain env.graph) (habsent : SameAbsent env)
    {declaration : Option Declaration} (place : PropertyPlace env id declaration type ctx)
    (h : Given env refers type ctx d) (h' : Given env.withoutRefs refers' type ctx.withoutRef d') :
    mayBeAbsent env.withoutRefs id = mayBeAbsent env id := by
  have hplain' : IsPlain env.withoutRefs.graph := hplain
  rw [mayBeAbsent_eq (placeOf_eq place), mayBeAbsent_eq (placeOf_eq place.withoutRef),
    Bool.eq_iff_iff, leavesOut_plain hplain h, leavesOut_plain hplain' h']
  refine exists_congr fun node => exists_congr fun members => and_congr_right fun hnode =>
    and_congr_right fun hkind => exists_congr fun member => and_congr_right fun hmember => ?_
  rw [habsent type node members hnode hkind member hmember]

end Schema

namespace Validation

open Schema

variable {dialect : Dialect} {definitions definitions' : Entries String Json} {depth depth' : Nat}
  {exempt : List String} {d d' e e' : Definition} {env : Environment}

/-! ## Definitions that match -/

/-- The definitions have the same verdicts.  What is a bare type with references is the same bare
type without them, and neither definition is to be ignored. -/
structure Matches (dialect : Dialect) (definitions definitions' : Entries String Json)
    (exempt : List String) (depth : Nat) (d d' : Definition) : Prop where
  agrees : AgreeAt dialect definitions definitions' depth d.toJson d'.toJson
  bare : exempt = [] → ∀ tag, d.bareType = some tag → d'.bareType = some tag
  kept : d.isIgnored = false ∧ d'.isIgnored = false

theorem Matches.mono (h : Matches dialect definitions definitions' exempt depth d d')
    (hle : depth ≤ depth') : Matches dialect definitions definitions' exempt depth' d d' :=
  ⟨h.agrees.mono hle, h.bare, h.kept⟩

/-- Keywords that are neither read nor decide what becomes of a definition. -/
def Unread (exempt : List String) : Prop :=
  ∀ key ∈ exempt, key ∉ "ignore" :: readKeywords

theorem Unread.not_mem (h : Unread exempt) {key : String} (hkey : key ∈ "ignore" :: readKeywords) :
    key ∉ exempt := fun hmem => h key hmem hkey

theorem Unread.reads (h : Unread exempt) : ∀ key ∈ readKeywords, key ∉ exempt :=
  fun _ hkey => h.not_mem (List.mem_cons_of_mem _ hkey)

theorem isIgnored_eq_false_iff : d.isIgnored = false ↔ d.find? "ignore" = none := by
  rw [Definition.isIgnored, Definition.contains_eq_isSome, Option.isSome_eq_false_iff,
    Option.isNone_iff_eq_none]

theorem LooksAlike.kept {related : Json → Json → Prop} (h : LooksAlike exempt related d d')
    (hexempt : "ignore" ∉ exempt) : d.isIgnored = false ∧ d'.isIgnored = false := by
  rw [isIgnored_eq_false_iff, isIgnored_eq_false_iff]
  exact h.find?_eq_none hexempt (by decide) (by decide) (by decide) (by decide)

theorem LooksAlike.matches (hexempt : Unread exempt)
    (h : LooksAlike exempt (AgreeAt dialect definitions definitions' depth) d d') :
    Matches dialect definitions definitions' exempt (depth + 1) d d' where
  agrees := h.agreeAt hexempt.reads
  bare hnil tag := by
    subst hnil
    exact h.bareType_eq
  kept := h.kept (hexempt.not_mem List.mem_cons_self)

theorem AgreeAt.congr (h : AgreeAt dialect definitions definitions' depth d.toJson d'.toJson)
    (hd : ∀ key ∈ readKeywords, e.find? key = d.find? key)
    (hd' : ∀ key ∈ readKeywords, e'.find? key = d'.find? key) :
    AgreeAt dialect definitions definitions' depth e.toJson e'.toJson := by
  intro v
  rw [validate_congr hd, validate_congr hd']
  exact h v

/-- Descriptions of one type in one place, with and without references. -/
structure Paired (m m' : Described) : Prop where
  type : m'.type = m.type
  ctx : m'.ctx = m.ctx.withoutRef

/-- What was described in one place has the same verdicts. -/
def AllMatch (dialect : Dialect) (definitions definitions' : Entries String Json) (depth : Nat)
    (made made' : List Described) : Prop :=
  ∀ m ∈ made, ∀ m' ∈ made', Paired m m' →
    Matches dialect definitions definitions' [] depth m.definition m'.definition

section

variable {made made' : List Described} {m m' : Described}

theorem AllMatch.of_subset {part part' : List Described}
    (h : AllMatch dialect definitions definitions' depth made made') (hpart : part ⊆ made)
    (hpart' : part' ⊆ made') : AllMatch dialect definitions definitions' depth part part' :=
  fun _ hm _ hm' => h _ (hpart hm) _ (hpart' hm')

theorem AllMatch.tail
    (h : AllMatch dialect definitions definitions' depth (m :: made) (m' :: made')) :
    AllMatch dialect definitions definitions' depth made made' :=
  h.of_subset (List.subset_cons_self _ _) (List.subset_cons_self _ _)

theorem AllMatch.head
    (h : AllMatch dialect definitions definitions' depth (m :: made) (m' :: made'))
    (hpaired : Paired m m') :
    Matches dialect definitions definitions' [] depth m.definition m'.definition :=
  h _ List.mem_cons_self _ List.mem_cons_self hpaired

/-! ## Parts -/

theorem definitions_agree {types : List TypeId} (h : ofParts env types made)
    (h' : ofParts env.withoutRefs types made')
    (hmatch : AllMatch dialect definitions definitions' depth made made') :
    List.Forall₂ (AgreeAt dialect definitions definitions' depth) (Schema.definitions made)
      (Schema.definitions made') := by
  induction types generalizing made made' with
  | nil =>
      rw [List.map_eq_nil_iff.1 h, List.map_eq_nil_iff.1 h']
      exact .nil
  | cons type rest ih =>
      obtain ⟨m, made, rfl, hm, hmade⟩ := List.map_eq_cons_iff.1 h
      obtain ⟨m', made', rfl, hm', hmade'⟩ := List.map_eq_cons_iff.1 h'
      have hpaired : Paired m m' := by
        simp only [Prod.mk.injEq] at hm hm'
        exact ⟨hm'.1.trans hm.1.symm, by rw [hm'.2, hm.2]; rfl⟩
      exact .cons (hmatch.head hpaired).agrees (ih hmade hmade' hmatch.tail)

end

/-! ## Objects -/

theorem forall₂_insert {related : Json → Json → Prop} {fields fields' : Entries String Json}
    {value value' : Json}
    (h : List.Forall₂ (fun field field' => field.1 = field'.1 ∧ related field.2 field'.2)
      fields fields') (name : String) (hvalue : related value value') :
    List.Forall₂ (fun field field' => field.1 = field'.1 ∧ related field.2 field'.2)
      (Entries.insert name value fields) (Entries.insert name value' fields') := by
  induction h with
  | nil => exact .cons ⟨rfl, hvalue⟩ .nil
  | @cons field field' _ _ hfirst hrest ih =>
      obtain ⟨key, schema⟩ := field
      obtain ⟨key', schema'⟩ := field'
      obtain ⟨rfl, hschema⟩ := hfirst
      unfold Entries.insert
      split
      · exact .cons ⟨rfl, hvalue⟩ hrest
      · exact .cons ⟨rfl, hschema⟩ ih

structure PartsAlike (settings : Settings) (related : Json → Json → Prop)
    (parts parts' : ObjectParts) : Prop where
  properties : List.Forall₂ (fun field field' => field.1 = field'.1 ∧ related field.2 field'.2)
    parts.properties.entries parts'.properties.entries
  order : parts.order = parts'.order
  required : settings.generateRequired = true → parts.required = parts'.required

theorem PartsAlike.add {settings : Settings} {related : Json → Json → Prop}
    {parts parts' : ObjectParts} (h : PartsAlike settings related parts parts') (name : String)
    (hd : related d.toJson d'.toJson) {isRequired isRequired' : Bool}
    (hrequired : settings.generateRequired = true → isRequired = isRequired') :
    PartsAlike settings related (parts.add name d isRequired) (parts'.add name d' isRequired') where
  properties := forall₂_insert h.properties name hd
  order := congrArg (· ++ [name]) h.order
  required hsetting := by
    simp only [ObjectParts.add, h.required hsetting, hrequired hsetting]

theorem withDefault_agreeAt (initializer : Option Initializer)
    (h : AgreeAt dialect definitions definitions' depth d.toJson d'.toJson) :
    AgreeAt dialect definitions definitions' depth (withDefault initializer d).toJson
      (withDefault initializer d').toJson := by
  have hunread (d : Definition) (key : String) (hkey : key ∈ readKeywords) :
      (withDefault initializer d).find? key = d.find? key := by
    unfold withDefault
    split
    · refine Dict.find?_insert_of_ne _ ?_ _
      rintro rfl
      revert hkey
      decide
    · rfl
  exact h.congr (hunread d) (hunread d')

section

variable {refers refers' : String → TypeId → Context → Prop} {id : SymbolId}
  {made made' : List Described}

/-- A property stands in one place only, with and without references. -/
theorem PropertyPlace.paired {declaration declaration' : Option Declaration} {type type' : TypeId}
    {ctx ctx' : Context} (place : PropertyPlace env id declaration type ctx)
    (place' : PropertyPlace env.withoutRefs id declaration' type' ctx') :
    declaration' = declaration ∧ Paired ⟨type, ctx, d⟩ ⟨type', ctx', d'⟩ := by
  cases (placeOf_eq place.withoutRef).symm.trans (placeOf_eq place')
  cases place.withoutRef.isDeclared.symm.trans place'.isDeclared
  exact ⟨rfl, rfl, rfl⟩

/-- What a property gives is the same with and without references, up to verdicts. -/
theorem ofProperty_alike (hdepth : 1 ≤ depth) {result result' : Option Definition}
    (h : OfProperty env id made result) (h' : OfProperty env.withoutRefs id made' result')
    (hmatch : AllMatch dialect definitions definitions' depth made made') :
    Option.Rel (fun d d' => AgreeAt dialect definitions definitions' depth d.toJson d'.toJson)
      result result' := by
  have hkept {declaration declaration' : Option Declaration} {type type' : TypeId}
      {ctx ctx' : Context} {d d' : Definition} (place : PropertyPlace env id declaration type ctx)
      (place' : PropertyPlace env.withoutRefs id declaration' type' ctx')
      (hmatch : AllMatch dialect definitions definitions' depth [⟨type, ctx, d⟩]
        [⟨type', ctx', d'⟩]) : declaration' = declaration ∧
          Matches dialect definitions definitions' [] depth d d' := by
    obtain ⟨hdeclaration, hpaired⟩ := PropertyPlace.paired place place'
    exact ⟨hdeclaration, hmatch.head hpaired⟩
  have hempty : AgreeAt dialect definitions definitions' depth (Definition.toJson Dict.empty)
      (Definition.toJson Dict.empty) :=
    (setTypes_agreeAt []).mono hdepth
  cases h with
  | untyped hproperty htype =>
      cases h' with
      | untyped => exact .some hempty
      | ignored place | kept place => exact absurd htype (place.not_untyped hproperty)
  | ignored place hd =>
      cases h' with
      | untyped hproperty htype => exact absurd htype (place.not_untyped hproperty)
      | ignored => exact .none
      | kept place' =>
          rw [(hkept place place' hmatch).2.kept.1] at hd
          cases hd
  | kept place hd =>
      cases h' with
      | untyped hproperty htype => exact absurd htype (place.not_untyped hproperty)
      | ignored place' hd' =>
          rw [(hkept place place' hmatch).2.kept.2] at hd'
          cases hd'
      | kept place' hd' =>
          obtain ⟨rfl, hmatches⟩ := hkept place place' hmatch
          exact .some (withDefault_agreeAt _ hmatches.agrees)

theorem ofProperty_mayBeAbsent (hplain : IsPlain env.graph) (habsent : SameAbsent env)
    (h : OfProperty env id made (some d)) (h' : OfProperty env.withoutRefs id made' (some d'))
    (hmade : AllGiven env refers made) (hmade' : AllGiven env.withoutRefs refers' made') :
    mayBeAbsent env.withoutRefs id = mayBeAbsent env id := by
  cases h with
  | untyped hproperty htype =>
      have hproperty' : env.withoutRefs.graph.symbol id = _ := hproperty
      rw [mayBeAbsent_untyped hproperty htype, mayBeAbsent_untyped hproperty' htype]
  | kept place =>
      cases h' with
      | untyped hproperty htype => exact absurd htype (place.not_untyped hproperty)
      | kept place' =>
          have hgiven := hmade' _ List.mem_cons_self
          cases (placeOf_eq place.withoutRef).symm.trans (placeOf_eq place')
          exact mayBeAbsent_withoutRefs hplain habsent place (hmade _ List.mem_cons_self) hgiven

theorem collects_alike (hdepth : 1 ≤ depth) (hplain : IsPlain env.graph) (habsent : SameAbsent env)
    {parts parts₀ parts₁ parts₂ : ObjectParts} {properties : List SymbolId}
    (h : Collects env parts properties made parts₁)
    (h' : Collects env.withoutRefs parts₀ properties made' parts₂)
    (hmade : AllGiven env refers made) (hmade' : AllGiven env.withoutRefs refers' made')
    (hmatch : AllMatch dialect definitions definitions' depth made made')
    (hparts : PartsAlike env.settings (AgreeAt dialect definitions definitions' depth)
      parts parts₀) :
    PartsAlike env.settings (AgreeAt dialect definitions definitions' depth) parts₁ parts₂ := by
  induction h generalizing made' parts₀ with
  | nil =>
      cases h'
      exact hparts
  | dropped hresult _ ih =>
      obtain ⟨hown, hothers⟩ := List.forall_mem_append.1 hmade
      cases h' with
      | dropped hresult' others =>
          exact ih others hothers (List.forall_mem_append.1 hmade').2
            (hmatch.of_subset (List.subset_append_right _ _) (List.subset_append_right _ _)) hparts
      | added _ hresult' =>
          cases ofProperty_alike hdepth hresult hresult'
            (hmatch.of_subset (List.subset_append_left _ _) (List.subset_append_left _ _))
  | added hproperty hresult hrequired _ ih =>
      obtain ⟨hown, hothers⟩ := List.forall_mem_append.1 hmade
      cases h' with
      | dropped hresult' =>
          cases ofProperty_alike hdepth hresult hresult'
            (hmatch.of_subset (List.subset_append_left _ _) (List.subset_append_left _ _))
      | added hproperty' hresult' hrequired' others =>
          obtain ⟨hown', hothers'⟩ := List.forall_mem_append.1 hmade'
          cases hproperty.symm.trans hproperty'
          have hresults := ofProperty_alike hdepth hresult hresult'
            (hmatch.of_subset (List.subset_append_left _ _) (List.subset_append_left _ _))
          cases hresults with
          | some hd =>
              refine ih others hothers hothers' (hmatch.of_subset (List.subset_append_right _ _)
                (List.subset_append_right _ _)) (hparts.add _ hd fun hsetting => ?_)
              rw [hrequired hsetting, hrequired' hsetting,
                ofProperty_mayBeAbsent hplain habsent hresult hresult' hown hown']

theorem write_alike {related : Json → Json → Prop} {parts parts' : ObjectParts}
    (hexempt : Unread exempt) (hparts : PartsAlike env.settings related parts parts')
    (hd : LooksAlike exempt related d d') :
    LooksAlike exempt related (parts.write env.settings d)
      (parts'.write env.withoutRefs.settings d') := by
  have htyped : LooksAlike exempt related (if d.hasType then d else d.setType "object")
      (if d'.hasType then d' else d'.setType "object") := by
    have htype : d.hasType = d'.hasType := hd.contains_eq (hexempt.not_mem (by decide))
    rw [htype]
    split
    · exact hd
    · exact hd.setType _
  have hempty : parts.properties.isEmpty = parts'.properties.isEmpty := by
    have hfields := hparts.properties
    unfold Dict.isEmpty
    generalize parts.properties.entries = fields, parts'.properties.entries = fields' at hfields ⊢
    cases hfields <;> rfl
  have hrequired : (env.settings.generateRequired && !parts.required.isEmpty) =
      (env.settings.generateRequired && !parts'.required.isEmpty) := by
    cases hsetting : env.settings.generateRequired with
    | true => rw [hparts.required hsetting]
    | false => rfl
  have hproperties := htyped.insertIf (congrArg not hempty) fun _ =>
    AlikeAt.fields (rfl : "properties" = _) hparts.properties
  have hdefaults := hproperties.insertIfPlain
    (show "defaultProperties" ∈ plainKeywords by decide) env.settings.useDefaultProperties (.arr [])
  have hclosed := hdefaults.insertIf
    (congrArg (env.settings.disableExtraProperties && !·) (hdefaults.contains_eq
      (hexempt.not_mem (show "additionalProperties" ∈ "ignore" :: readKeywords by decide))))
    fun _ => AlikeAt.flag false (rfl : "additionalProperties" = _)
  obtain ⟨properties, order, required⟩ := parts
  obtain ⟨properties', order', required'⟩ := parts'
  obtain rfl : order = order' := hparts.order
  refine LooksAlike.insertIf (hclosed.insertIfPlain (by decide) _ _) hrequired fun hcondition => ?_
  rw [hparts.required (Bool.and_eq_true_iff.1 hcondition).1]
  exact .plain _ (by decide)

/-! ## Shapes -/

variable {node : TypeNode} {ctx ctx' : Context} {shape : Shape}

theorem tupled_alike {items items' : List Json}
    (hitems : List.Forall₂ (AgreeAt dialect definitions definitions' depth) items items')
    (hd : LooksAlike exempt (AgreeAt dialect definitions definitions' (depth + 1)) d d') :
    LooksAlike exempt (AgreeAt dialect definitions definitions' (depth + 1)) (tupled items d)
      (tupled items' d') := by
  have hadditional : AgreeAt dialect definitions definitions' (depth + 1)
      (Definition.toJson (Dict.empty.insert "anyOf" (.arr items)))
      (Definition.toJson (Dict.empty.insert "anyOf" (.arr items'))) :=
    LooksAlike.agreeAt (LooksAlike.empty.insert (.list (by decide) hitems)) fun _ _ =>
      List.not_mem_nil
  unfold tupled
  rw [hitems.length_eq]
  refine LooksAlike.insert (LooksAlike.insert ((hd.setType _).insertPlain (by decide) _) ?_) ?_
  · exact .list (by decide) (hitems.imp fun _ _ h => h.mono (Nat.le_succ _))
  · exact .schema (by decide) hadditional

/-- All shapes but unions and objects write the same keywords. -/
theorem rendered_alike (hexempt : Unread exempt) (hunion : ∀ members, shape ≠ .union members)
    (hobject : ∀ properties, shape ≠ .object properties)
    (h : Rendered env node ctx d shape made e)
    (h' : Rendered env.withoutRefs node ctx' d' shape made' e')
    (hmatch : AllMatch dialect definitions definitions' depth made made')
    (hd : LooksAlike exempt (AgreeAt dialect definitions definitions' (depth + 1)) d d') :
    LooksAlike exempt (AgreeAt dialect definitions definitions' (depth + 1)) e e' := by
  have hlists {types : List TypeId} (hparts : ofParts env types made)
      (hparts' : ofParts env.withoutRefs types made') :
      List.Forall₂ (AgreeAt dialect definitions definitions' (depth + 1))
        (Schema.definitions made) (Schema.definitions made') :=
    (definitions_agree hparts hparts' hmatch).imp fun _ _ h => h.mono (Nat.le_succ _)
  cases h with
  | union => exact absurd rfl (hunion _)
  | object => exact absurd rfl (hobject _)
  | intersection hparts =>
      cases h' with
      | intersection hparts' => exact hd.insert (.list (by decide) (hlists hparts hparts'))
  | tuple hparts =>
      cases h' with
      | tuple hparts' => exact tupled_alike (definitions_agree hparts hparts' hmatch) hd
  | abstract hnames htypes hparts =>
      cases h' with
      | abstract hnames' htypes' hparts' =>
          cases hnames.symm.trans hnames'
          have htypes := List.map_injective_iff.2 (fun _ _ => Option.some.inj)
            (htypes.symm.trans htypes')
          rw [← htypes] at hparts'
          exact hd.insert (.list (by decide) (hlists hparts hparts'))
  | array element items =>
      cases h' with
      | array _ items' =>
          refine (hd.setType _).insert (.schema (by decide) ?_)
          exact (hmatch.head ⟨rfl, rfl⟩).agrees.mono (Nat.le_succ _)
  | map key value items =>
      cases h' with
      | map _ _ items' =>
          have hitems := (hmatch.head ⟨rfl, rfl⟩).agrees.mono (Nat.le_succ depth)
          cases key <;> exact (hd.setType _).insert (.schema (by decide) hitems)
  | typeof hsetting =>
      cases h' with
      | typeof => exact hd.insertPlain (by decide) _
      | function hsetting' => cases hsetting.symm.trans hsetting'
  | function hsetting =>
      cases h' with
      | typeof hsetting' => cases hsetting.symm.trans hsetting'
      | function => exact write_alike hexempt ⟨.nil, rfl, fun _ => rfl⟩ hd
  | primitive tag =>
      cases h'
      exact hd.setType tag
  | literal | date =>
      cases h'
      exact (hd.setType _).insertPlain (by decide) _
  | nonPrimitive =>
      cases h'
      exact ((hd.setType _).insert (.fields rfl .nil)).insert (.flag true rfl)
  | emptyObject =>
      cases h'
      exact (hd.setType _).insert (.fields rfl .nil)
  | enum declaration =>
      cases h'
      exact (hd.setTypes _).insertIfPlain (by decide) _ _
  | unconstrained | unsupported =>
      cases h'
      exact hd

end

end Validation

end TypeSchema
