import TypeSchema.Proofs.Objects.Decided
import TypeSchema.Proofs.Objects.Ignored
import TypeSchema.Proofs.Text.Octets

/-!
# Agreement of the keywords of an object

The properties that are kept give the order, the properties and the required names of an object.  A
name is required by what is marked when its property is described; since that decides the property,
it is what is marked at the end.
-/

namespace TypeSchema.Schema

variable {env : Environment} {describe : Describe} {p p' : Progress} {d d' : Definition}
  {parts parts' : ObjectParts} {properties : List SymbolId} {depth : Nat}

/-! ## Properties that are kept -/

/-- A property that is not ignored, with its definition. -/
structure KeptProperty where
  id : SymbolId
  symbol : Symbol
  definition : Definition

namespace KeptProperty

def name (property : KeptProperty) : String := property.symbol.name

def field (property : KeptProperty) : String × Json := (property.name, property.definition.toJson)

/-- A property is required unless it is optional, a method, or marked. -/
def isRequired (marks : List SymbolId) (property : KeptProperty) : Bool :=
  !property.symbol.isOptional && !property.symbol.isMethod && !decide (property.id ∈ marks)

def addTo (marks : List SymbolId) (parts : ObjectParts) (property : KeptProperty) : ObjectParts :=
  parts.add property.name property.definition (property.isRequired marks)

theorem addTo_eq (marks : List SymbolId) (parts : ObjectParts) (property : KeptProperty) :
    addTo marks parts property =
      parts.addResult property.symbol (decide (property.id ∈ marks)) (some property.definition) :=
  rfl

end KeptProperty

/-- How the properties are described one by one, and which of them are kept. -/
inductive PropertiesRun (env : Environment) (describe : Describe) :
    Progress → List SymbolId → List KeptProperty → Progress → Prop where
  | nil {p : Progress} : PropertiesRun env describe p [] [] p
  | dropped {p p₁ p' id rest kept}
      (hrun : (propertyDefinition env describe id).on p = (.ok none, p₁))
      (hrest : PropertiesRun env describe p₁ rest kept p') :
      PropertiesRun env describe p (id :: rest) kept p'
  | kept {p p₁ p' id rest kept symbol definition} (hsymbol : env.graph.symbol id = .ok symbol)
      (hrun : (propertyDefinition env describe id).on p = (.ok (some definition), p₁))
      (hrest : PropertiesRun env describe p₁ rest kept p') :
      PropertiesRun env describe p (id :: rest) (⟨id, symbol, definition⟩ :: kept) p'

/-- The parts of an object are those of the kept properties, and what is marked at the end says
which of them are required. -/
theorem objectProperties_kept
    (h : (objectProperties env (typeDefinition env depth) parts properties).on p =
      (.ok parts', p')) :
    ∃ kept, PropertiesRun env (typeDefinition env depth) p properties kept p' ∧
      parts' = kept.foldl (KeptProperty.addTo p'.mayBeAbsent) parts := by
  induction properties generalizing parts p with
  | nil =>
      cases h
      exact ⟨[], .nil, rfl⟩
  | cons id rest ih =>
      obtain ⟨parts₁, p₁, hfirst, hrest⟩ := objectProperties_cons.1 h
      obtain ⟨kept, hkept, hparts⟩ := ih hrest
      obtain ⟨symbol, result, hsymbol, hrun, rfl⟩ := objectProperty_ok hfirst
      cases result with
      | none => exact ⟨kept, .dropped hrun hkept, hparts⟩
      | some definition =>
          refine ⟨⟨id, symbol, definition⟩ :: kept, .kept hsymbol hrun hkept, ?_⟩
          have hmarked : id ∈ p'.mayBeAbsent ↔ id ∈ p₁.mayBeAbsent :=
            objectProperties_marked_iff hrest (propertyDefinition_run hrun).decided
          rw [hparts, List.foldl_cons, KeptProperty.addTo_eq, decide_eq_decide.2 hmarked]

/-- The symbols of the properties have pairwise different names. -/
def NamedApart (g : Graph) (properties : List SymbolId) : Prop :=
  properties.Pairwise fun id other => ∀ symbol symbol', g.symbol id = .ok symbol →
    g.symbol other = .ok symbol' → symbol.name ≠ symbol'.name

theorem namedApart_of_nodup {g : Graph}
    (h : (properties.map fun id => (g.symbol id).toOption.map (·.name)).Nodup) :
    NamedApart g properties := by
  refine (List.pairwise_map.1 h).imp fun hne symbol symbol' hsymbol hsymbol' hname => hne ?_
  simp only [hsymbol, hsymbol', Except.toOption, Option.map_some, hname]

theorem PropertiesRun.ofProperties {kept : List KeptProperty}
    (h : PropertiesRun env describe p properties kept p') :
    ∀ k ∈ kept, k.id ∈ properties ∧ env.graph.symbol k.id = .ok k.symbol := by
  induction h with
  | nil => exact fun k hk => absurd hk List.not_mem_nil
  | dropped _ _ ih => exact fun k hk => (ih k hk).imp_left (List.mem_cons_of_mem _)
  | kept hsymbol _ _ ih =>
      refine List.forall_mem_cons.2 ⟨⟨List.mem_cons_self, hsymbol⟩, fun k hk => ?_⟩
      exact (ih k hk).imp_left (List.mem_cons_of_mem _)

theorem PropertiesRun.keys_nodup {kept : List KeptProperty}
    (h : PropertiesRun env describe p properties kept p')
    (hnames : NamedApart env.graph properties) : (Entries.keys (kept.map (·.field))).Nodup := by
  induction h with
  | nil => exact List.nodup_nil
  | dropped _ _ ih => exact ih (List.pairwise_cons.1 hnames).2
  | @kept _ _ _ id _ kept symbol _ hsymbol _ hrest ih =>
      obtain ⟨hfirst, hrestNames⟩ := List.pairwise_cons.1 hnames
      refine List.nodup_cons.2 ⟨fun hmem => ?_, ih hrestNames⟩
      obtain ⟨_, hfield, heq⟩ := List.mem_map.1 hmem
      obtain ⟨k, hk, rfl⟩ := List.mem_map.1 hfield
      obtain ⟨hin, hksymbol⟩ := hrest.ofProperties k hk
      exact hfirst k.id hin symbol k.symbol hsymbol hksymbol heq.symm

/-! ## Parts of the kept properties -/

variable {kept : List KeptProperty} {marks : List SymbolId}

theorem order_addAll : (kept.foldl (KeptProperty.addTo marks) parts).order =
    parts.order ++ kept.map (·.name) := by
  induction kept generalizing parts with
  | nil => exact (List.append_nil _).symm
  | cons k rest ih =>
      rw [List.foldl_cons, ih, List.map_cons, List.append_cons]
      rfl

theorem properties_addAll
    (hnames : (Entries.keys (parts.properties.entries ++ kept.map (·.field))).Nodup) :
    (kept.foldl (KeptProperty.addTo marks) parts).properties.entries =
      parts.properties.entries ++ kept.map (·.field) := by
  induction kept generalizing parts with
  | nil => exact (List.append_nil _).symm
  | cons k rest ih =>
      rw [List.map_cons] at hnames
      have hfirst : (KeptProperty.addTo marks parts k).properties.entries =
          parts.properties.entries ++ [k.field] := Entries.insert_of_nodup hnames
      rw [List.foldl_cons, List.map_cons, List.append_cons, ← hfirst]
      refine ih ?_
      rwa [hfirst, ← List.append_cons]

theorem mem_required_addTo {name : String} {k : KeptProperty} :
    name ∈ (KeptProperty.addTo marks parts k).required ↔
      name ∈ parts.required ∨ k.name = name ∧ k.isRequired marks = true := by
  rw [KeptProperty.addTo_eq, mem_required_addResult, eq_comm]
  simp [KeptProperty.isRequired, KeptProperty.name, and_assoc]

theorem mem_required_addAll {name : String} :
    name ∈ (kept.foldl (KeptProperty.addTo marks) parts).required ↔
      name ∈ parts.required ∨ ∃ k ∈ kept, k.name = name ∧ k.isRequired marks = true := by
  induction kept generalizing parts with
  | nil => simp
  | cons k rest ih => rw [List.foldl_cons, ih, mem_required_addTo, List.exists_mem_cons_iff, or_assoc]

theorem required_addAll_sorted (h : parts.required.Pairwise (· < ·)) :
    (kept.foldl (KeptProperty.addTo marks) parts).required.Pairwise (· < ·) := by
  induction kept generalizing parts with
  | nil => exact h
  | cons k rest ih =>
      refine ih ?_
      unfold KeptProperty.addTo ObjectParts.add
      dsimp only
      split
      · exact Names.pairwise_insert _ h
      · exact h

/-! ## Keywords of an object -/

/-- The keywords of an object say the same of the properties that are kept: their order, their
definitions, and which of them are required. -/
structure KeywordsAgree (kept : List KeptProperty) (marks : List SymbolId) (d : Definition) :
    Prop where
  order : d.find? "propertyOrder" = some (Json.strs (kept.map (·.name)))
  properties : d.find? "properties" =
    if kept.isEmpty then none else some (.obj (kept.map (·.field)))
  required : ∃ names : List String,
    d.find? "required" = (if names.isEmpty then none else some (Json.strs names)) ∧
    names.Pairwise (fun a b => Text.octets a < Text.octets b) ∧
    ∀ name, name ∈ names ↔ ∃ k ∈ kept, k.name = name ∧ k.isRequired marks = true

theorem keywordsAgree_write (settings : Settings) (horder : settings.usePropertyOrder = true)
    (hrequired : settings.generateRequired = true)
    (hnames : (Entries.keys (kept.map (·.field))).Nodup) (hd : MentionsNothing d) :
    KeywordsAgree kept marks ((kept.foldl (KeptProperty.addTo marks) .empty).write settings d) where
  order := by
    rw [find?_write_propertyOrder, if_pos horder, order_addAll]
    rfl
  properties := by
    have hentries : (kept.foldl (KeptProperty.addTo marks) .empty).properties.entries =
        kept.map (·.field) := properties_addAll hnames
    rw [find?_write_properties, Json.ofDict, hd.properties, Dict.isEmpty, hentries]
    cases kept <;> rfl
  required := by
    refine ⟨(kept.foldl (KeptProperty.addTo marks) .empty).required, ?_, ?_, fun name => ?_⟩
    · rw [find?_write_required, hrequired, Bool.true_and, hd.required]
      cases List.isEmpty _ <;> rfl
    · exact (required_addAll_sorted List.Pairwise.nil).imp Text.octets_lt
    · rw [mem_required_addAll]
      exact or_iff_right List.not_mem_nil

theorem object_keywords_agree (horder : env.settings.usePropertyOrder = true)
    (hrequired : env.settings.generateRequired = true)
    (hnames : NamedApart env.graph properties) (hd : MentionsNothing d)
    (h : (objectDefinition env (typeDefinition env depth) properties d).on p = (.ok d', p')) :
    ∃ kept, PropertiesRun env (typeDefinition env depth) p properties kept p' ∧
      KeywordsAgree kept p'.mayBeAbsent d' := by
  rw [objectDefinition, Run.on_bind_eq_ok] at h
  obtain ⟨parts, p₁, hparts, hpure⟩ := h
  cases hpure
  obtain ⟨kept, hkept, rfl⟩ := objectProperties_kept hparts
  exact ⟨kept, hkept,
    keywordsAgree_write env.settings horder hrequired (hkept.keys_nodup hnames) hd⟩

/-- An interface `Visit` with a property that may be undefined, an ignored one, a plain one, and an
optional one. -/
def visitGraph : Graph where
  modules := []
  declarations := ∅
  symbols := .ofEntries [
    (⟨"until"⟩, { Symbol.blank with name := "until", type := some ⟨"number | undefined"⟩ }),
    (⟨"key"⟩, { Symbol.blank with
      name := "key", type := some ⟨"number"⟩, documentation := ["@ignore"] }),
    (⟨"since"⟩, { Symbol.blank with name := "since", type := some ⟨"number"⟩ }),
    (⟨"guests"⟩, { Symbol.blank with
      name := "guests", type := some ⟨"number"⟩, isOptional := true })]
  types := .ofEntries [
    (⟨"number"⟩, ⟨"number", none, .number⟩),
    (⟨"undefined"⟩, ⟨"undefined", none, .undefined⟩),
    (⟨"number | undefined"⟩,
      ⟨"number | undefined", none, .union [⟨"number"⟩, ⟨"undefined"⟩]⟩)]
  diagnostics := []
  strictNullChecks := false

def visitEnvironment : Environment :=
  ⟨visitGraph, { Settings.default with usePropertyOrder := true, generateRequired := true },
    .empty⟩

def visitProperties : List SymbolId := [⟨"until"⟩, ⟨"key"⟩, ⟨"since"⟩, ⟨"guests"⟩]

theorem object_keywords_agree_visit :
    ∃ d p, (objectDefinition visitEnvironment (typeDefinition visitEnvironment maxDepth)
        visitProperties Dict.empty).on .initial = (.ok d, p) ∧
      propertyOrder d = ["until", "since", "guests"] ∧ d.required = ["since"] ∧
      ∃ kept, PropertiesRun visitEnvironment (typeDefinition visitEnvironment maxDepth) .initial
        visitProperties kept p ∧ KeywordsAgree kept p.mayBeAbsent d := by
  obtain ⟨d, p, hrun, hcheck⟩ : ∃ d p, (objectDefinition visitEnvironment
      (typeDefinition visitEnvironment maxDepth) visitProperties Dict.empty).on .initial =
        (.ok d, p) ∧ decide (propertyOrder d = ["until", "since", "guests"] ∧
          d.required = ["since"]) = true := Run.exists_ok (by decide +kernel)
  obtain ⟨hlisted, honly⟩ := of_decide_eq_true hcheck
  exact ⟨d, p, hrun, hlisted, honly,
    object_keywords_agree rfl rfl (namedApart_of_nodup (by decide +kernel)) ⟨rfl, rfl, rfl⟩ hrun⟩

end TypeSchema.Schema
