import TypeSchema.Proofs.References.Collapse

/-!
# Where references at the top come from

Annotations never write a reference, so a definition that is given for a type is a reference only if
the type is referred to or collapses, and a registered definition only if its type collapses.
-/

namespace TypeSchema.Schema

variable {env : Environment} {names : List String} {made : List Described} {type : TypeId}
  {node : TypeNode} {ctx : Context} {d : Definition}

/-! ## Annotations -/

structure LinksNothing (notes : Annotations) : Prop where
  reference : ∀ ref, notes.keywords.find? "$ref" ≠ some (.str ref)
  definitions : ∀ field ∈ Definition.definitions notes.keywords, field.2.reference? = none

theorem reference?_of_applyTo {notes : Annotations} (hnotes : LinksNothing notes) {ref : String}
    (h : (notes.applyTo d).reference? = some ref) : d.reference? = some ref := by
  revert h
  unfold Annotations.applyTo
  refine List.foldlRecOn (motive := fun d' =>
    Definition.reference? d' = some ref → d.reference? = some ref) _ _ ?_ ?_
  · intro h
    split at h
    · exact Definition.reference?_of_insert (by simp) h
    · exact h
  · intro d' ih entry hentry h
    refine ih ?_
    have hfind := Dict.mem_entries_iff.1 hentry
    unfold Annotations.applyKeyword at h
    split at h
    · exact Definition.reference?_of_insert (by simp) h
    · refine Definition.reference?_of_insert (fun hkey text htext => ?_) h
      rw [hkey, htext] at hfind
      exact hnotes.reference text hfind

theorem definitions_of_applyTo {notes : Annotations} (hnotes : LinksNothing notes)
    (hd : ∀ field ∈ d.definitions, field.2.reference? = none) :
    ∀ field ∈ (notes.applyTo d).definitions, field.2.reference? = none := by
  unfold Annotations.applyTo
  refine List.foldlRecOn (motive := fun d' =>
    ∀ field ∈ Definition.definitions d', field.2.reference? = none) _ _ ?_ ?_
  · intro field hfield
    split at hfield
    · rcases Definition.mem_definitions_insert hfield with ⟨hkey, -⟩ | hfield
      · exact absurd hkey (by decide)
      · exact hd field hfield
    · exact hd field hfield
  · intro d' ih entry hentry field hfield
    have hfind := Dict.mem_entries_iff.1 hentry
    have hwritten {fields : Entries String Json} (hkey : entry.1 = "definitions")
        (hvalue : entry.2 = .obj fields) (hmem : field ∈ fields) : field.2.reference? = none := by
      refine hnotes.definitions field ?_
      rw [hkey, hvalue] at hfind
      rw [Definition.definitions, hfind]
      exact hmem
    unfold Annotations.applyKeyword at hfield
    split at hfield
    · rename_i existing nested hexisting hvalue
      rcases Definition.mem_definitions_insert hfield with ⟨hkey, fields, heq, hmem⟩ | hfield
      · cases heq
        rcases Entries.mem_of_mem_merge hmem with hold | hnew
        · refine ih field ?_
          rw [hkey] at hexisting
          rw [Definition.definitions, hexisting]
          exact hold
        · exact hwritten hkey hvalue hnew
      · exact ih field hfield
    · rcases Definition.mem_definitions_insert hfield with ⟨hkey, fields, heq, hmem⟩ | hfield
      · exact hwritten hkey heq hmem
      · exact ih field hfield

/-- No annotation in the graph is a reference or brings along a definition that is one. -/
structure AnnotatesNoLink (g : Graph) (settings : Settings) : Prop where
  keyword : "$ref" ∉ settings.validationKeywords
  definitions : ∀ symbol ∈ g.symbols.values, ∀ field ∈ Definition.definitions
    (Annotations.ofSymbol settings.validationKeywords symbol).keywords, field.2.reference? = none

variable {remarks : Remarks}

theorem remarks_linkNothing (henv : AnnotatesNoLink env.graph env.settings)
    (h : Remarks.of env node ctx = .ok remarks) :
    LinksNothing remarks.reffed ∧ LinksNothing remarks.property ∧ LinksNothing remarks.own :=
  remarks_induction ⟨fun _ => by simp [Annotations.empty], fun _ h => absurd h List.not_mem_nil⟩
    (fun symbol hmem => ⟨Annotations.ofSymbol_find?_ref henv.keyword, henv.definitions symbol hmem⟩)
    h

theorem reference?_onType (henv : AnnotatesNoLink env.graph env.settings)
    (h : Remarks.of env node ctx = .ok remarks) (inlined : Bool) :
    (remarks.onType inlined).reference? = none := by
  obtain ⟨hreffed, hproperty, hown⟩ := remarks_linkNothing henv h
  refine Option.eq_none_iff_forall_ne_some.2 fun ref href => ?_
  have hreference := reference?_of_applyTo hown href
  cases inlined with
  | false => cases reference?_of_applyTo hreffed hreference
  | true => cases reference?_of_applyTo hreffed (reference?_of_applyTo hproperty hreference)

theorem definitions_onType (henv : AnnotatesNoLink env.graph env.settings)
    (h : Remarks.of env node ctx = .ok remarks) (inlined : Bool) :
    ∀ field ∈ (remarks.onType inlined).definitions, field.2.reference? = none := by
  obtain ⟨hreffed, hproperty, hown⟩ := remarks_linkNothing henv h
  have hempty : ∀ field ∈ Definition.definitions Dict.empty, field.2.reference? = none :=
    fun _ h => absurd h List.not_mem_nil
  refine definitions_of_applyTo hown ?_
  cases inlined with
  | false => exact definitions_of_applyTo hreffed hempty
  | true => exact definitions_of_applyTo hproperty (definitions_of_applyTo hreffed hempty)

theorem reference?_onReference (henv : AnnotatesNoLink env.graph env.settings)
    (h : Remarks.of env node ctx = .ok remarks) {name ref : String}
    (href : (remarks.onReference name).reference? = some ref) :
    ref = Definition.definitionsPointer ++ name := by
  have hreference := reference?_of_applyTo (remarks_linkNothing henv h).2.1 href
  exact (Option.some.inj hreference).symm

theorem definitions_onReference (henv : AnnotatesNoLink env.graph env.settings)
    (h : Remarks.of env node ctx = .ok remarks) (name : String) :
    ∀ field ∈ (remarks.onReference name).definitions, field.2.reference? = none :=
  definitions_of_applyTo (remarks_linkNothing henv h).2.1 fun _ h => absurd h List.not_mem_nil

theorem reference?_of_widen {ref : String} (h : (remarks.widen d).reference? = some ref) :
    d.reference? = some ref := by
  unfold Remarks.widen at h
  split at h
  · rw [Definition.reference?_eq_some_iff] at h ⊢
    exact Definition.find?_of_makeNullable (by decide) h
  · exact h

theorem definitions_of_widen {field : String × Json} (h : field ∈ (remarks.widen d).definitions) :
    field ∈ d.definitions := by
  unfold Remarks.widen at h
  split at h
  · unfold Definition.definitions at h
    split at h
    · rename_i fields hfind
      rw [Definition.definitions, Definition.find?_of_makeNullable (by decide) hfind]
      exact h
    · exact absurd h List.not_mem_nil
  · exact h

theorem bareType_of_widen {tag : String} (h : (remarks.widen d).bareType = some tag) :
    d.bareType = some tag := by
  unfold Remarks.widen at h
  split at h
  · exact Definition.bareType_of_makeNullable h
  · exact h

theorem titled_links (settings : Settings) (name : String) (d : Definition) :
    Definition.SameLinks d (titled settings name d) :=
  (Definition.SameLinks.refl d).insertIf _ rfl _

/-! ## Members of unions that say undefined -/

theorem vanishes_of_inlined (hnode : env.graph.typeNode type = .ok node)
    (hremarks : Remarks.of env node (Context.nested env.settings) = .ok remarks)
    (hd : Completed env node ctx (remarks.onType true) made d)
    (hbare : (remarks.widen d).bareType = some "undefined") : Vanishes env type := by
  rcases completed_bareType hd (bareType_of_widen hbare) with hkind | hannotated
  · exact ⟨node, hnode, .inl hkind⟩
  · exact ⟨node, hnode, .inr ⟨remarks, hremarks, hannotated⟩⟩

theorem reference_bareType {asRef : Bool}
    (hremarks : Remarks.of env node (Context.standing asRef) = .ok remarks) (name tag : String) :
    (remarks.widen (remarks.onReference name)).bareType ≠ some tag := by
  intro hbare
  have hreference := bareType_of_widen hbare
  rw [Remarks.onReference, remarks_standing hremarks] at hreference
  exact Definition.bareType_insert_of_ne _ (by decide) _ _ hreference

/-! ## The guarantee -/

theorem pointed_of_inlined (henv : AnnotatesNoLink env.graph env.settings)
    (hnode : env.graph.typeNode type = .ok node) (hremarks : Remarks.of env node ctx = .ok remarks)
    (hname : referenceOf env type ctx = .ok none) (hmade : ∀ m ∈ made, Pointed env names m)
    (hd : Completed env node ctx (remarks.onType true) made d) :
    Pointed env names ⟨type, ctx, remarks.widen d⟩ where
  reference ref href := by
    obtain ⟨name, hmem, heq, hcollapses⟩ := completed_collapses hnode hd hmade
      (reference?_onType henv hremarks true) ref (reference?_of_widen href)
    exact ⟨name, hmem, heq, .inr ⟨hname, hcollapses⟩⟩
  definitions field hfield :=
    completed_definitions hd hmade (definitions_onType henv hremarks true) field
      (definitions_of_widen hfield)
  undefined hbare hctx := by
    cases hctx
    exact vanishes_of_inlined hnode hremarks hd hbare

theorem pointed_of_referred (henv : AnnotatesNoLink env.graph env.settings)
    (hremarks : Remarks.of env node ctx = .ok remarks) {name : String}
    (hname : referenceOf env type ctx = .ok (some name)) (hmem : name ∈ names) :
    Pointed env names ⟨type, ctx, remarks.widen (remarks.onReference name)⟩ where
  reference _ href :=
    ⟨name, hmem, reference?_onReference henv hremarks (reference?_of_widen href), .inl hname⟩
  definitions field hfield :=
    definitions_onReference henv hremarks name field (definitions_of_widen hfield)
  undefined hbare hctx := by
    cases hctx
    exact absurd hbare (reference_bareType hremarks name _)

theorem pointed_guarantee {roots : TypeId → Context → Prop}
    (henv : AnnotatesNoLink env.graph env.settings) :
    Guarantee env roots (Pointed env) (fun names type _ d => CollapsesWithin env names type d) where
  given_mono hsub h := by
    refine ⟨fun ref href => ?_, h.definitions, h.undefined⟩
    obtain ⟨name, hname, hcase⟩ := h.reference ref href
    exact ⟨name, hsub hname, hcase⟩
  stored_mono hsub h ref href := by
    obtain ⟨name, hname, hcase⟩ := h ref href
    exact ⟨name, hsub hname, hcase⟩
  reserved _ _ _ ref href := by cases href
  inlined _ hnode hremarks hname hmade hd := pointed_of_inlined henv hnode hremarks hname hmade hd
  referred _ _ hremarks hname hmem := pointed_of_referred henv hremarks hname hmem
  filled _ hnode hremarks _ hmade hd := by
    refine completed_collapses hnode hd hmade ?_
    rw [(titled_links _ _ _).reference?_eq]
    exact reference?_onType henv hremarks false

end TypeSchema.Schema
