import TypeSchema.Proofs.Renaming.Shapes
import TypeSchema.Proofs.Schema.Describes

/-!
# Definitions of renamed types

Describing types that correspond gives equal definitions, or fails alike.  The two runs go side by
side: their registries stay equal, and of two properties that correspond both may be absent or
neither.
-/

namespace TypeSchema

/-- The same definitions, and marks on properties that correspond. -/
structure Progress.Renamed (r : Pairing) (p p' : Progress) : Prop where
  registry : p.registry = p'.registry
  mayBeAbsent {id id' : SymbolId} (h : r.symbols id id') : id ∈ p.mayBeAbsent ↔ id' ∈ p'.mayBeAbsent

/-- From progress that corresponds the runs end with values that are related, or fail alike. -/
abbrev Describing.Parallel {α α' : Type} (r : Pairing) (R : α → α' → Prop) (run : Describing α)
    (run' : Describing α') : Prop :=
  Run.Parallel (Progress.Renamed r) R run run'

/-- Types that correspond are described alike where they stand in places that correspond. -/
def Describe.Renamed (r : Pairing) (describe describe' : Describe) : Prop :=
  ∀ {type type' ctx ctx'}, r.types type type' → ctx.Renamed r ctx' →
    Describing.Parallel r Eq (describe type ctx) (describe' type' ctx')

variable {r : Pairing} {id id' : SymbolId} {type type' : TypeId} {ctx ctx' : Context}
  {name : String} {d : Definition}

/-! ## Progress -/

namespace Describing

theorem notice_renamed (n n' : Notice) : Parallel r Eq (notice n) (notice n') :=
  .modify fun _ _ hp => ⟨hp.registry, hp.mayBeAbsent⟩

theorem reserve_renamed : Parallel r Eq (reserve name type ctx) (reserve name type' ctx') :=
  .modify fun _ _ hp => ⟨congrArg (·.insert name Dict.empty) hp.registry, hp.mayBeAbsent⟩

theorem fill_renamed : Parallel r Eq (fill name type d) (fill name type' d) :=
  .modify fun _ _ hp => ⟨congrArg (·.insert name d) hp.registry, hp.mayBeAbsent⟩

theorem refer_renamed : Parallel r Eq (refer name type ctx) (refer name type' ctx') :=
  .modify fun _ _ hp => ⟨hp.registry, hp.mayBeAbsent⟩

theorem isRegistered_renamed (name : String) :
    Parallel r Eq (isRegistered name) (isRegistered name) :=
  fun _ _ hp => .ok (congrArg (·.contains name) hp.registry) hp

/-- Marks go by the symbols, so it matters that no two of them correspond to one. -/
theorem markAbsent_renamed (hid : r.symbols id id') :
    Parallel r Eq (markAbsent id) (markAbsent id') := by
  refine .modify fun p p' hp => ⟨?_, fun hother => ?_⟩
  · rw [(Schema.quiet_markAbsent p id).registry, (Schema.quiet_markAbsent p' id').registry,
      hp.registry]
  · rw [Schema.mem_markAbsent, Schema.mem_markAbsent, r.symbols_iff hid hother,
      hp.mayBeAbsent hother]

theorem isMarkedAbsent_renamed (hid : r.symbols id id') :
    Parallel r Eq (isMarkedAbsent id) (isMarkedAbsent id') :=
  fun _ _ hp => .ok (decide_eq_decide.2 (hp.mayBeAbsent hid)) hp

end Describing

namespace Schema

open Describing (notice_renamed)

variable {env env' : Environment} {describe describe' : Describe} {node node' : TypeNode}

theorem nested_renamed (settings : Settings) :
    (Context.nested settings).Renamed r (Context.nested settings) :=
  Context.renamed_standing r settings.useRef

theorem addDefault_renamed {property property' : Symbol} (initializer : Option Initializer)
    (d : Definition) :
    Describing.Parallel r Eq (addDefault property initializer d)
      (addDefault property' initializer d) := by
  unfold addDefault
  split
  · exact .pure rfl
  · split
    · exact .pure rfl
    · exact .pure rfl
    · exact (notice_renamed _ _).bind fun _ _ _ => .pure rfl

theorem enumDefinition_renamed {declaration declaration' : Declaration}
    (h : declaration.Renamed r declaration') (d : Definition) :
    Describing.Parallel r Eq (enumDefinition declaration d) (enumDefinition declaration' d) := by
  unfold enumDefinition
  rw [h.enumMembers]
  refine Run.Parallel.bind (.forM (List.forall₂_same.2 fun _ _ => rfl) fun n n' _ =>
    notice_renamed n n') fun _ _ _ => .pure rfl

section

variable (h : env.Renamed r env') (hdescribe : Describe.Renamed r describe describe')

include h hdescribe

/-! ## Parts -/

theorem part_renamed (htype : r.types type type') :
    Describing.Parallel r Eq (describe type (Context.nested env.settings))
      (describe' type' (Context.nested env'.settings)) :=
  hdescribe htype (h.settings ▸ nested_renamed _)

theorem parts_renamed {types types' : List TypeId} (htypes : List.Forall₂ r.types types types') :
    Describing.Parallel r Eq (parts env describe types) (parts env' describe' types') :=
  .forEach htypes fun _ _ htype => (part_renamed h hdescribe htype).map fun _ _ hd =>
    congrArg Definition.toJson hd

theorem tupleDefinition_renamed {elements elements' : List TypeId}
    (helements : List.Forall₂ r.types elements elements') (d : Definition) :
    Describing.Parallel r Eq (tupleDefinition env describe elements d)
      (tupleDefinition env' describe' elements' d) := by
  refine (parts_renamed h hdescribe helements).bind fun items _ hitems => ?_
  subst hitems
  exact .pure rfl

theorem mapDefinition_renamed (key : IndexKey) (htype : r.types type type') (d : Definition) :
    Describing.Parallel r Eq (mapDefinition env describe key type d)
      (mapDefinition env' describe' key type' d) := by
  have hctx : Context.Renamed r { Context.nested env.settings with unionKeyword := .anyOf }
      { Context.nested env'.settings with unionKeyword := .anyOf } :=
    h.settings ▸ ⟨rfl, rfl, .none, .none⟩
  refine (hdescribe htype hctx).bind fun value _ hvalue => ?_
  subst hvalue
  cases key <;> exact .pure rfl

theorem subtypeDefinition_renamed (name : String) :
    Describing.Parallel r Eq (subtypeDefinition env describe name)
      (subtypeDefinition env' describe' name) := by
  have hfound : Option.Rel r.types (env.table.all.find? name) (env'.table.all.find? name) :=
    h.table.all.find? name
  unfold subtypeDefinition
  generalize env.table.all.find? name = found at hfound
  generalize env'.table.all.find? name = found' at hfound
  cases hfound with
  | none => exact .throw rfl
  | some htype =>
      exact (part_renamed h hdescribe htype).map fun _ _ hd => congrArg Definition.toJson hd

theorem abstractDefinition_renamed (hnode : node.Renamed r node') (d : Definition) :
    Describing.Parallel r Eq (abstractDefinition env describe node d)
      (abstractDefinition env' describe' node' d) := by
  refine (Run.Parallel.ofExcept (subtypes_renamed h hnode)).bind fun names _ hnames => ?_
  subst hnames
  have hbranches : Describing.Parallel r Eq
      (Describing.forEach (subtypeDefinition env describe) names)
      (Describing.forEach (subtypeDefinition env' describe') names) :=
    .forEach (List.forall₂_same.2 fun _ _ => rfl) fun name _ heq =>
      heq ▸ subtypeDefinition_renamed h hdescribe name
  refine hbranches.bind fun branches _ hbranches => ?_
  subst hbranches
  exact .pure rfl

/-! ## Unions -/

theorem unionMember_renamed {property property' : Option SymbolId}
    (hproperty : Option.Rel r.symbols property property') (htype : r.types type type')
    (parts : UnionParts) :
    Describing.Parallel r Eq (unionMember env describe property parts type)
      (unionMember env' describe' property' parts type') := by
  refine (Run.Parallel.ofExcept (h.graph.typeNode htype)).bind fun node node' hnode => ?_
  rw [Shape.literalValue_renamed hnode]
  split
  · exact .pure rfl
  · refine (part_renamed h hdescribe htype).bind fun d _ hd => ?_
    subst hd
    split
    · cases hproperty with
      | none => exact .pure rfl
      | some hid => exact (Describing.markAbsent_renamed hid).bind fun _ _ _ => .pure rfl
    · exact .pure rfl
    · split
      · exact (notice_renamed _ _).bind fun _ _ _ => .pure rfl
      · exact .pure rfl

theorem unionMembers_renamed {property property' : Option SymbolId}
    (hproperty : Option.Rel r.symbols property property') {members members' : List TypeId}
    (hmembers : List.Forall₂ r.types members members') (parts : UnionParts) :
    Describing.Parallel r Eq (unionMembers env describe property parts members)
      (unionMembers env' describe' property' parts members') := by
  induction hmembers generalizing parts with
  | nil => exact .pure rfl
  | cons hfirst _ ih =>
      refine (unionMember_renamed h hdescribe hproperty hfirst parts).bind fun parts _ hparts => ?_
      subst hparts
      exact ih parts

theorem unionDefinition_renamed (hctx : ctx.Renamed r ctx') {members members' : List TypeId}
    (hmembers : List.Forall₂ r.types members members') (d : Definition) :
    Describing.Parallel r Eq (unionDefinition env describe members ctx d)
      (unionDefinition env' describe' members' ctx' d) := by
  refine (unionMembers_renamed h hdescribe hctx.property hmembers _).bind fun parts _ hparts => ?_
  rw [hparts, hctx.unionKeyword]
  exact .pure rfl

/-! ## Properties -/

theorem propertyDefinition_renamed (hid : r.symbols id id') :
    Describing.Parallel r Eq (propertyDefinition env describe id)
      (propertyDefinition env' describe' id') := by
  refine (Run.Parallel.ofExcept (h.graph.symbol hid)).bind fun property property' hproperty =>
    (Run.Parallel.ofExcept (h.graph.firstDeclaration hid)).bind
      fun declaration declaration' hdeclaration => ?_
  have htype := hproperty.type
  generalize property.type = type at htype
  generalize property'.type = type' at htype
  cases htype with
  | none => exact (notice_renamed _ _).bind fun _ _ _ => .pure rfl
  | some htype =>
      have hinitializer : declaration.bind (·.initializer) = declaration'.bind (·.initializer) := by
        cases hdeclaration with
        | none => rfl
        | some hd => exact hd.initializer
      refine (Run.Parallel.ofExcept (writtenSymbol_renamed h hdeclaration)).bind
        fun reffed reffed' hreffed => ?_
      have hctx : Context.Renamed r ⟨env.settings.useRef, .oneOf, some id, reffed⟩
          ⟨env'.settings.useRef, .oneOf, some id', reffed'⟩ :=
        ⟨by rw [h.settings], rfl, .some hid, hreffed⟩
      refine (hdescribe htype hctx).bind fun d _ hd => ?_
      rw [← hd, hinitializer]
      split
      · exact .pure rfl
      · exact (addDefault_renamed _ d).map fun _ _ hd => congrArg some hd

theorem objectProperty_renamed (hid : r.symbols id id') (parts : ObjectParts) :
    Describing.Parallel r Eq (objectProperty env describe parts id)
      (objectProperty env' describe' parts id') := by
  refine (Run.Parallel.ofExcept (h.graph.symbol hid)).bind fun property property' hproperty =>
    (propertyDefinition_renamed h hdescribe hid).bind fun described _ hdescribed => ?_
  subst hdescribed
  split
  · exact .pure rfl
  · refine (Describing.isMarkedAbsent_renamed hid).bind fun absent _ habsent => ?_
    rw [habsent, hproperty.name, hproperty.isOptional, hproperty.isMethod]
    exact .pure rfl

theorem objectProperties_renamed {properties properties' : List SymbolId}
    (hproperties : List.Forall₂ r.symbols properties properties') (parts : ObjectParts) :
    Describing.Parallel r Eq (objectProperties env describe parts properties)
      (objectProperties env' describe' parts properties') := by
  induction hproperties generalizing parts with
  | nil => exact .pure rfl
  | cons hfirst _ ih =>
      refine (objectProperty_renamed h hdescribe hfirst parts).bind fun parts _ hparts => ?_
      subst hparts
      exact ih parts

theorem objectDefinition_renamed {properties properties' : List SymbolId}
    (hproperties : List.Forall₂ r.symbols properties properties') (d : Definition) :
    Describing.Parallel r Eq (objectDefinition env describe properties d)
      (objectDefinition env' describe' properties' d) := by
  refine (objectProperties_renamed h hdescribe hproperties _).bind fun parts _ hparts => ?_
  rw [hparts, h.settings]
  exact .pure rfl

/-! ## Types -/

theorem functionDefinition_renamed (node node' : TypeNode) (d : Definition) :
    Describing.Parallel r Eq (functionDefinition env describe node d)
      (functionDefinition env' describe' node' d) := by
  unfold functionDefinition
  rw [h.settings]
  split
  · exact .pure rfl
  · exact (notice_renamed _ _).bind fun _ _ _ => objectDefinition_renamed h hdescribe .nil d

theorem render_renamed (hnode : node.Renamed r node') (hctx : ctx.Renamed r ctx')
    {shape shape' : Shape} (hshape : shape.Renamed r shape') (d : Definition) :
    Describing.Parallel r Eq (render env describe node ctx shape d)
      (render env' describe' node' ctx' shape' d) := by
  cases hshape with
  | union hmembers => exact unionDefinition_renamed h hdescribe hctx hmembers d
  | intersection hmembers =>
      refine (parts_renamed h hdescribe hmembers).bind fun items _ hitems => ?_
      subst hitems
      exact .pure rfl
  | tuple helements => exact tupleDefinition_renamed h hdescribe helements d
  | array helement =>
      refine (part_renamed h hdescribe helement).bind fun items _ hitems => ?_
      subst hitems
      exact .pure rfl
  | enum hdeclaration => exact enumDefinition_renamed hdeclaration d
  | map key hvalue => exact mapDefinition_renamed h hdescribe key hvalue d
  | object hproperties => exact objectDefinition_renamed h hdescribe hproperties d
  | plain hplain =>
      cases shape with
      | unsupported => exact (notice_renamed _ _).bind fun _ _ _ => .pure rfl
      | function => exact functionDefinition_renamed h hdescribe node node' d
      | abstract => exact abstractDefinition_renamed h hdescribe hnode d
      | union | intersection | tuple | array | enum | map | object => exact hplain.elim
      | _ => exact .pure rfl

theorem complete_renamed (hnode : node.Renamed r node') (hctx : ctx.Renamed r ctx')
    (d : Definition) :
    Describing.Parallel r Eq (complete env describe node ctx d)
      (complete env' describe' node' ctx' d) := by
  unfold complete
  split
  · exact .pure rfl
  · exact (Run.Parallel.ofExcept (Shape.ofNode_renamed h.graph hnode hctx.reffed)).bind
      fun shape shape' hshape => render_renamed h hdescribe hnode hctx hshape d

theorem registerType_renamed (hnode : node.Renamed r node') (hctx : ctx.Renamed r ctx')
    (name : String) (d : Definition) :
    Describing.Parallel r Eq (registerType env describe type node ctx name d)
      (registerType env' describe' type' node' ctx' name d) := by
  refine (Describing.isRegistered_renamed name).bind fun known _ hknown => ?_
  subst hknown
  split
  · exact .pure rfl
  · refine Describing.reserve_renamed.bind fun _ _ _ => ?_
    rw [h.settings]
    refine (complete_renamed h hdescribe hnode hctx _).bind fun d _ hd => ?_
    subst hd
    exact Describing.fill_renamed

theorem describeType_renamed (htype : r.types type type') (hctx : ctx.Renamed r ctx') :
    Describing.Parallel r Eq (describeType env describe type ctx)
      (describeType env' describe' type' ctx') := by
  refine (Run.Parallel.ofExcept (h.graph.typeNode htype)).bind fun node node' hnode =>
    (Run.Parallel.ofExcept (Shape.symbolOf_renamed h.graph hnode.symbol)).bind
      fun symbol symbol' hsymbol =>
    (Run.Parallel.ofExcept (referenceName_renamed h hnode hctx hsymbol)).bind
      fun name _ hname =>
    (Run.Parallel.ofExcept (remarks_renamed h hnode hctx)).bind fun remarks _ hremarks => ?_
  subst hname hremarks
  cases name with
  | none =>
      refine (complete_renamed h hdescribe hnode hctx _).bind fun d _ hd => ?_
      subst hd
      exact .pure rfl
  | some name =>
      exact (registerType_renamed h hdescribe hnode hctx name _).bind fun _ _ _ =>
        Describing.refer_renamed.bind fun _ _ _ => .pure rfl

end

theorem typeDefinition_renamed (h : env.Renamed r env') (depth : Nat) :
    Describe.Renamed r (typeDefinition env depth) (typeDefinition env' depth) := by
  induction depth with
  | zero =>
      exact fun htype _ => (Run.Parallel.ofExcept (h.graph.typeNode htype)).bind
        fun _ _ _ => .throw rfl
  | succ depth ih => exact fun htype hctx => describeType_renamed h ih htype hctx

end Schema

end TypeSchema
