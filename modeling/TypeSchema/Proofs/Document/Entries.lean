import TypeSchema.Proofs.Document.Assembled
import TypeSchema.Proofs.References.Origin
import TypeSchema.Proofs.Schema.Unique

/-!
# Entries of documents

A document brings along an entry for every name that was registered on the way.  Documents of
different types have the same entry under a name, if it was registered for the same type in places
that are alike; a place that is not may show in the entry, since the first one decides.
-/

namespace TypeSchema

namespace Document

open Schema

variable {env : Environment} {p p' : Progress} {d d' : Definition} {type : TypeId} {ctx : Context}
  {name : String}

/-- A type that stands at the top is described from the beginning. -/
theorem define_given (hinline : InlinesAbsent env) {asRef : Bool}
    (h : (define env type (Context.standing asRef)).on .initial = (.ok d, p)) :
    Given env (Refers p) type (Context.standing asRef) d ∧ Explained env p := by
  refine typeDefinition_given hinline h (fun id hid => ?_) explained_initial
  have hmarked : id ∈ ((typeDefinition env maxDepth type (Context.standing asRef)).on
      .initial).2.mayBeAbsent := by
    rw [show (typeDefinition env maxDepth type (Context.standing asRef)).on .initial = (.ok d, p)
      from h]
    exact hid
  exact (typeDefinition_marks (inPlace_standing asRef) hmarked).resolve_left List.not_mem_nil

/-- At the end every name that was registered has the definition of its type. -/
theorem define_stored (hinline : InlinesAbsent env) {asRef : Bool} {root : TypeId}
    (h : (define env root (Context.standing asRef)).on .initial = (.ok d, p))
    (hreserved : .reserved name type ctx ∈ p.history) :
    ∃ entry, p.registry.find? name = some entry ∧
      StoredFrom env (Refers p) name type ctx entry := by
  have hstores : Stores (fun p => StoredFrom env (Refers p)) p := (define_given hinline h).2
  have htraced : Traced env p := traced_initial.steps (typeDefinition_steps h)
  exact hstores.of_reserved htraced (typeDefinition_settles h) hreserved

theorem find?_definitions_attached {root : Definition} {registry : Dict String Definition}
    {entry : Definition} {schema : Json} {settings : Settings} (huse : settings.useRef = true)
    (hfind : registry.find? name = some entry) :
    Entries.find? name (Definition.definitions
      ((attached settings registry root).insert "$schema" schema)) = some entry.toJson := by
  have hregistry : registry.isEmpty = false := by
    refine Bool.eq_false_iff.2 fun hempty => ?_
    rw [Dict.isEmpty_iff.1 hempty] at hfind
    cases hfind
  rw [((Definition.SameLinks.refl _).insert rfl _).definitions_eq, attached, huse, hregistry]
  rw [Definition.insertIf, Bool.true_and, Bool.not_false, if_pos rfl,
    Definition.definitions_insert_self]
  change (registryJson registry).find? name = _
  rw [registryJson, Dict.find?_mapValues, hfind]
  rfl

theorem registered_iff_reserved {asRef : Bool} {root : TypeId}
    (h : (define env root (Context.standing asRef)).on .initial = (.ok d, p)) :
    name ∈ p.registry.keys ↔ ∃ type ctx, .reserved name type ctx ∈ p.history :=
  (traced_initial.steps (typeDefinition_steps h)).registered name

/-- Two documents have the same entry under a name that was registered on the way to both, if it was
registered for one type in places that are alike. -/
theorem forType_entries_agree {target target' : String} (hinline : InlinesAbsent env)
    (huse : env.settings.useRef = true)
    (h : (forType env target).on .initial = (.ok d, p))
    (h' : (forType env target').on .initial = (.ok d', p'))
    (hname : name ∈ p.registry.keys) (hname' : name ∈ p'.registry.keys)
    (hplaces : ∀ type ctx type' ctx', .reserved name type ctx ∈ p.history →
      .reserved name type' ctx' ∈ p'.history →
        type = type' ∧ RegistersAlike env type ctx ctx') :
    ∃ entry, (name, entry) ∈ d.definitions ∧ (name, entry) ∈ d'.definitions := by
  obtain ⟨_, root, -, hroot, rfl⟩ := forType_ok h
  obtain ⟨_, root', -, hroot', rfl⟩ := forType_ok h'
  obtain ⟨type, ctx, hreserved⟩ := (registered_iff_reserved hroot).1 hname
  obtain ⟨type', ctx', hreserved'⟩ := (registered_iff_reserved hroot').1 hname'
  obtain ⟨rfl, halike⟩ := hplaces type ctx type' ctx' hreserved hreserved'
  obtain ⟨entry, hfind, hstored⟩ := define_stored hinline hroot hreserved
  obtain ⟨entry', hfind', hstored'⟩ := define_stored hinline hroot' hreserved'
  obtain rfl := hstored.unique halike hstored'
  exact ⟨entry.toJson, Entries.mem_of_find?_eq_some (find?_definitions_attached huse hfind),
    Entries.mem_of_find?_eq_some (find?_definitions_attached huse hfind')⟩

/-! ## Two targets -/

/-- Interfaces `A` and `B` with a property of the type `Point` each, which the former calls by an
alias `Corner`. -/
def cornerGraph (documentation : List String) : Graph where
  modules := []
  declarations := .ofEntries [
    (⟨"A.p"⟩, { Declaration.blank with kind := .property, typeReference := some ⟨"Corner"⟩ })]
  symbols := .ofEntries [
    (⟨"Corner"⟩, { Symbol.blank with
      name := "Corner", qualifiedName := "Corner", documentation := documentation }),
    (⟨"Point"⟩, { Symbol.blank with name := "Point", qualifiedName := "Point" }),
    (⟨"A"⟩, { Symbol.blank with name := "A", qualifiedName := "A" }),
    (⟨"B"⟩, { Symbol.blank with name := "B", qualifiedName := "B" }),
    (⟨"A.p"⟩, { Symbol.blank with
      name := "p", type := some ⟨"Point"⟩, declarations := [⟨"A.p"⟩] }),
    (⟨"B.p"⟩, { Symbol.blank with name := "p", type := some ⟨"Point"⟩ }),
    (⟨"x"⟩, { Symbol.blank with name := "x", type := some ⟨"number"⟩ }),
    (⟨"y"⟩, { Symbol.blank with name := "y", type := some ⟨"number | undefined"⟩ })]
  types := .ofEntries [
    (⟨"number"⟩, ⟨"number", none, .number⟩),
    (⟨"undefined"⟩, ⟨"undefined", none, .undefined⟩),
    (⟨"number | undefined"⟩,
      ⟨"number | undefined", none, .union [⟨"number"⟩, ⟨"undefined"⟩]⟩),
    (⟨"Point"⟩, ⟨"Point", some ⟨"Point"⟩,
      .object { ObjectType.blank with properties := [⟨"x"⟩, ⟨"y"⟩] }⟩),
    (⟨"A"⟩, ⟨"A", some ⟨"A"⟩, .object { ObjectType.blank with properties := [⟨"A.p"⟩] }⟩),
    (⟨"B"⟩, ⟨"B", some ⟨"B"⟩, .object { ObjectType.blank with properties := [⟨"B.p"⟩] }⟩)]
  diagnostics := []
  strictNullChecks := false

def cornerEnvironment (documentation : List String) : Environment :=
  ⟨cornerGraph documentation, { Settings.default with generateRequired := true },
    { SymbolTable.empty with all := .ofEntries [("A", ⟨"A"⟩), ("B", ⟨"B"⟩)] }⟩

/-- Where `A` and `B` mention `Point`. -/
def placeInA : Context := ⟨true, .oneOf, some ⟨"A.p"⟩, some ⟨"Corner"⟩⟩

def placeInB : Context := ⟨true, .oneOf, some ⟨"B.p"⟩, none⟩

theorem registersAlike_corner :
    RegistersAlike (cornerEnvironment []) ⟨"Point"⟩ placeInA placeInB where
  annotated node remarks remarks' hnode hremarks hremarks' := by
    cases hnode
    cases hremarks
    cases hremarks'
    rfl
  shaped node hnode := by
    cases hnode
    exact ⟨rfl, fun _ hkind _ => by cases hkind⟩

theorem reserved_eq {asRef : Bool} {root : TypeId} {type' : TypeId} {ctx' : Context}
    (h : (define env root (Context.standing asRef)).on .initial = (.ok d, p))
    (hreserved : .reserved name type ctx ∈ p.history)
    (hreserved' : .reserved name type' ctx' ∈ p.history) : type = type' ∧ ctx = ctx' :=
  (traced_initial.steps (typeDefinition_steps h)).once name type ctx type' ctx' hreserved
    hreserved'

/-- The document of a type, when `Point` was first mentioned in the place. -/
def registersIn (place : Context) (d : Definition) (p : Progress) : Bool :=
  d.definitions.keys == ["Point"] && decide (.reserved "Point" ⟨"Point"⟩ place ∈ p.history)

theorem forType_entries_agree_corner :
    ∃ d p d' p', (forType (cornerEnvironment []) "A").on .initial = (.ok d, p) ∧
      (forType (cornerEnvironment []) "B").on .initial = (.ok d', p') ∧
      ∃ entry, ("Point", entry) ∈ d.definitions ∧ ("Point", entry) ∈ d'.definitions := by
  obtain ⟨d, p, h, hcheck⟩ : ∃ d p, (forType (cornerEnvironment []) "A").on .initial = (.ok d, p) ∧
      registersIn placeInA d p = true := Run.exists_outcome (by decide +kernel)
  obtain ⟨d', p', h', hcheck'⟩ : ∃ d p,
      (forType (cornerEnvironment []) "B").on .initial = (.ok d, p) ∧
      registersIn placeInB d p = true := Run.exists_outcome (by decide +kernel)
  have hreserved := of_decide_eq_true (Bool.and_eq_true_iff.1 hcheck).2
  have hreserved' := of_decide_eq_true (Bool.and_eq_true_iff.1 hcheck').2
  obtain ⟨_, _, -, hroot, -⟩ := forType_ok h
  obtain ⟨_, _, -, hroot', -⟩ := forType_ok h'
  have hname := (registered_iff_reserved hroot).2 ⟨_, _, hreserved⟩
  have hname' := (registered_iff_reserved hroot').2 ⟨_, _, hreserved'⟩
  refine ⟨d, p, d', p', h, h', forType_entries_agree (by decide +kernel) rfl h h' hname hname'
    fun type ctx type' ctx' hfirst hsecond => ?_⟩
  obtain ⟨rfl, rfl⟩ := reserved_eq hroot hreserved hfirst
  obtain ⟨rfl, rfl⟩ := reserved_eq hroot' hreserved' hsecond
  exact ⟨rfl, registersAlike_corner⟩

/-- Where no alias is a name, every name belongs to one type. -/
theorem type_of_name {type' : TypeId} {ctx' : Context} (hnames : DistinctNames env.graph)
    (hsetting : env.settings.useTypeAliasRef = false)
    (henums : ∀ node ∈ env.graph.types.values, isStringEnum env.graph node = false)
    (h : referenceOf env type ctx = .ok (some name))
    (h' : referenceOf env type' ctx' = .ok (some name)) : type = type' := by
  have hown {type : TypeId} {ctx : Context} (h : referenceOf env type ctx = .ok (some name)) :
      ∃ node, env.graph.typeNode type = .ok node ∧
        name = QualifiedName.stripModulePath node.name := by
    rcases namedByAlias_or_own h with ⟨node, -, -, hnode, halias, -⟩ | ⟨node, hnode, -, hname⟩
    · have henum := henums node (List.mem_map_of_mem (Graph.mem_types hnode))
      simp [usesAlias, hsetting, henum] at halias
    · exact ⟨node, hnode, hname⟩
  obtain ⟨node, hnode, hname⟩ := hown h
  obtain ⟨node', hnode', hname'⟩ := hown h'
  exact hnames.eq hnode hnode' (hname.symm.trans hname')

/-- The entry for `Point`, and whether it has a description. -/
def onlyEntry (d : Definition) : Option (Json × Bool) :=
  match d.definitions with
  | [("Point", entry)] => some (entry, (entry.field? "description").isSome)
  | _ => none

theorem exists_entry {described : Bool}
    (h : (onlyEntry d).any (fun entry => entry.2 == described) = true) :
    ∃ entry, ("Point", entry) ∈ d.definitions ∧
      (entry.field? "description").isSome = described := by
  unfold onlyEntry at h
  split at h
  · rename_i entry hentry
    refine ⟨entry, ?_, by simpa using h⟩
    rw [hentry]
    exact List.mem_cons_self
  · cases h

/-- An entry may show where its type was first mentioned. -/
theorem entry_shows_first_place :
    ¬ ∀ (env : Environment) (target target' name : String) (d d' : Definition) (p p' : Progress),
      (∀ name type ctx type' ctx', referenceOf env type ctx = .ok (some name) →
        referenceOf env type' ctx' = .ok (some name) → type = type') →
      (forType env target).on .initial = (.ok d, p) →
      (forType env target').on .initial = (.ok d', p') →
      ∀ entry entry', (name, entry) ∈ d.definitions → (name, entry') ∈ d'.definitions →
        entry = entry' := by
  intro hclaim
  obtain ⟨d, p, h, hcheck⟩ : ∃ d p,
      (forType (cornerEnvironment ["A corner."]) "A").on .initial = (.ok d, p) ∧
      (onlyEntry d).any (·.2 == true) = true := Run.exists_ok (by decide +kernel)
  obtain ⟨d', p', h', hcheck'⟩ : ∃ d p,
      (forType (cornerEnvironment ["A corner."]) "B").on .initial = (.ok d, p) ∧
      (onlyEntry d).any (·.2 == false) = true := Run.exists_ok (by decide +kernel)
  obtain ⟨entry, hmem, hdescribed⟩ := exists_entry hcheck
  obtain ⟨entry', hmem', hplain⟩ := exists_entry hcheck'
  have hnames : ∀ name type ctx type' ctx',
      referenceOf (cornerEnvironment ["A corner."]) type ctx = .ok (some name) →
      referenceOf (cornerEnvironment ["A corner."]) type' ctx' = .ok (some name) → type = type' :=
    fun _ _ _ _ _ => type_of_name (by decide +kernel) rfl (by decide +kernel)
  have hsame := hclaim _ "A" "B" "Point" d d' p p' hnames h h' entry entry' hmem hmem'
  rw [hsame, hplain] at hdescribed
  cases hdescribed

end Document

end TypeSchema
