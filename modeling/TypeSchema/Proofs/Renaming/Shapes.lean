import TypeSchema.Proofs.Renaming.SymbolTable
import TypeSchema.Schema.OfType

/-!
# Shapes of renamed types

Types that correspond have shapes that correspond, the same names to refer to them by and the same
annotations, or all of this fails alike.
-/

namespace TypeSchema

/-! ## Lists and options -/

theorem all_eq_of_forall₂ {α α' : Type} {R : α → α' → Prop} {f : α → Bool} {f' : α' → Bool}
    {elements : List α} {elements' : List α'} (h : List.Forall₂ R elements elements')
    (hf : ∀ a a', R a a' → f a = f' a') : elements.all f = elements'.all f' := by
  induction h with
  | nil => rfl
  | cons hfirst _ ih => rw [List.all_cons, List.all_cons, hf _ _ hfirst, ih]

theorem isEmpty_eq_of_forall₂ {α α' : Type} {R : α → α' → Prop} {elements : List α}
    {elements' : List α'} (h : List.Forall₂ R elements elements') :
    elements.isEmpty = elements'.isEmpty := by
  cases h <;> rfl

theorem any_eq_of_rel {α α' : Type} {R : α → α' → Prop} {f : α → Bool} {f' : α' → Bool}
    {value : Option α} {value' : Option α'} (h : Option.Rel R value value')
    (hf : ∀ a a', R a a' → f a = f' a') : value.any f = value'.any f' := by
  cases h with
  | none => rfl
  | some hvalue => exact hf _ _ hvalue

theorem isSome_eq_of_rel {α α' : Type} {R : α → α' → Prop} {value : Option α}
    {value' : Option α'} (h : Option.Rel R value value') : value.isSome = value'.isSome := by
  cases h <;> rfl

theorem isNone_eq_of_rel {α α' : Type} {R : α → α' → Prop} {value : Option α}
    {value' : Option α'} (h : Option.Rel R value value') : value.isNone = value'.isNone := by
  cases h <;> rfl

variable {r : Pairing} {g g' : Graph} {node node' : TypeNode} {kind kind' : TypeKind}
  {id id' : Option SymbolId} {reffed reffed' : Option SymbolId}
  {declaration declaration' : Option Declaration}

namespace Shape

/-- A shape in which no ids occur. -/
def IsPlain : Shape → Prop
  | .union _ | .intersection _ | .tuple _ | .array _ | .enum _ | .map _ _ | .object _ => False
  | _ => True

inductive Renamed (r : Pairing) : Shape → Shape → Prop where
  | union {members members' : List TypeId} (h : List.Forall₂ r.types members members') :
    Renamed r (.union members) (.union members')
  | intersection {members members' : List TypeId} (h : List.Forall₂ r.types members members') :
    Renamed r (.intersection members) (.intersection members')
  | tuple {elements elements' : List TypeId} (h : List.Forall₂ r.types elements elements') :
    Renamed r (.tuple elements) (.tuple elements')
  | array {element element' : TypeId} (h : r.types element element') :
    Renamed r (.array element) (.array element')
  | enum {d d' : Declaration} (h : d.Renamed r d') : Renamed r (.enum d) (.enum d')
  | map (key : IndexKey) {value value' : TypeId} (h : r.types value value') :
    Renamed r (.map key value) (.map key value')
  | object {properties properties' : List SymbolId}
    (h : List.Forall₂ r.symbols properties properties') :
    Renamed r (.object properties) (.object properties')
  | plain {shape : Shape} (h : shape.IsPlain) : Renamed r shape shape

/-! ## Roots -/

theorem literalValue_renamed (hnode : node.Renamed r node') :
    literalValue node = literalValue node' := by
  obtain ⟨_, _, kind⟩ := node
  obtain ⟨_, _, kind'⟩ := node'
  have hkind : kind.Renamed r kind' := hnode.kind
  cases hkind <;> rfl

theorem arrayOf_renamed {element element' : Option TypeId} (h : Option.Rel r.types element element') :
    (arrayOf element).Renamed r (arrayOf element') := by
  cases h with
  | none => exact .plain trivial
  | some helement => exact .array helement

theorem elementOf_renamed {type type' : ObjectType} (h : type.Renamed r type') :
    Option.Rel r.types (type.typeArguments.head?.or type.numberIndex)
      (type'.typeArguments.head?.or type'.numberIndex) := by
  have harguments := h.typeArguments
  generalize type.typeArguments = arguments at harguments
  generalize type'.typeArguments = arguments' at harguments
  cases harguments with
  | nil => exact h.numberIndex
  | cons hfirst _ => exact .some hfirst

theorem ofKind_renamed (name reffedName : Option String) (hkind : kind.Renamed r kind') :
    (ofKind name reffedName kind).Renamed r (ofKind name reffedName kind') := by
  cases hkind with
  | union | intersection | tuple => exact .plain trivial
  | object hobject =>
      simp only [ofKind]
      split
      · exact .plain trivial
      · split
        · exact arrayOf_renamed (elementOf_renamed hobject)
        · exact arrayOf_renamed hobject.numberIndex
  | plain hplain =>
      cases kind with
      | union | intersection | tuple | object => exact hplain.elim
      | _ => exact .plain trivial

/-- Both types are numbers, or neither is. -/
theorem eq_number_or_ne (hkind : kind.Renamed r kind') :
    kind = .number ∧ kind' = .number ∨ kind ≠ .number ∧ kind' ≠ .number := by
  cases hkind with
  | union | intersection | tuple | object => exact .inr ⟨nofun, nofun⟩
  | plain _ => exact (Classical.em _).imp (fun h => ⟨h, h⟩) fun h => ⟨h, h⟩

section

variable (h : g.Renamed r g')

include h

theorem symbolOf_renamed (hid : Option.Rel r.symbols id id') :
    Parallel (Option.Rel (Symbol.Renamed r)) (symbolOf g id) (symbolOf g' id') := by
  cases hid with
  | none => exact .ok .none
  | some hid => exact (h.symbol hid).map fun _ _ hs => .some hs

theorem nameOf_renamed (hid : Option.Rel r.symbols id id') :
    Parallel Eq (nameOf g id) (nameOf g' id') := by
  refine (symbolOf_renamed h hid).bind fun symbol symbol' hsymbol => .ok ?_
  cases hsymbol with
  | none => rfl
  | some hs => exact congrArg some hs.name

theorem ofRoot_renamed (hnode : node.Renamed r node') (hreffed : Option.Rel r.symbols reffed reffed') :
    Parallel (Renamed r) (ofRoot g node reffed) (ofRoot g' node' reffed') := by
  unfold ofRoot
  rw [literalValue_renamed hnode]
  split
  · exact .ok (.plain trivial)
  · refine (nameOf_renamed h hnode.symbol).bind fun name _ hname => ?_
    subst hname
    have hkind := hnode.kind
    rcases eq_number_or_ne hkind with ⟨hnumber, hnumber'⟩ | ⟨hother, hother'⟩
    · rw [hnumber, hnumber']
      refine (nameOf_renamed h hreffed).bind fun reffedName _ hname => .ok ?_
      subst hname
      exact .plain trivial
    · split
      · rename_i hnumber
        exact absurd hnumber hother
      · exact .ok (ofKind_renamed name none hkind)

/-! ## Maps and classes -/

theorem indexKey_renamed {parameters parameters' : List TypeId}
    (hparameters : List.Forall₂ r.types parameters parameters') :
    Parallel Eq (indexKey g node parameters) (indexKey g' node' parameters') := by
  cases hparameters with
  | nil => exact .error rfl
  | cons hfirst hrest =>
      cases hrest with
      | nil =>
          refine (h.typeNode hfirst).bind fun key key' hkey => ?_
          have hkind := hkey.kind
          generalize key.kind = kind at hkind
          generalize key'.kind = kind' at hkind
          cases hkind with
          | union | intersection | tuple | object => exact .error rfl
          | plain _ =>
              cases kind with
              | string | number => exact .ok rfl
              | _ => exact .error rfl
      | cons => exact .error rfl

omit h in
theorem membersOf_renamed (hdeclaration : Option.Rel (Declaration.Renamed r) declaration declaration') :
    List.Forall₂ (Member.Renamed r) (membersOf declaration) (membersOf declaration') := by
  cases hdeclaration with
  | none => exact .nil
  | some hd => exact hd.members

theorem mapOf_renamed
    (hdeclaration : Option.Rel (Declaration.Renamed r) declaration declaration')
    {stringIndex stringIndex' numberIndex numberIndex' : Option TypeId}
    (hstring : Option.Rel r.types stringIndex stringIndex')
    (hnumber : Option.Rel r.types numberIndex numberIndex') :
    Parallel (Option.Rel (Renamed r)) (mapOf g node declaration stringIndex numberIndex)
      (mapOf g' node' declaration' stringIndex' numberIndex') := by
  have hmembers := membersOf_renamed hdeclaration
  unfold mapOf
  generalize membersOf declaration = members at hmembers
  generalize membersOf declaration' = members' at hmembers
  cases hmembers with
  | nil =>
      cases hstring with
      | some hvalue => exact .ok (.some (.map .string hvalue))
      | none =>
          cases hnumber with
          | some hvalue => exact .ok (.some (.map .number hvalue))
          | none => exact .ok .none
  | cons hmember hrest =>
      cases hrest with
      | nil =>
          cases hmember with
          | indexSignature hparameters hvalue =>
              refine (indexKey_renamed h hparameters).bind fun key _ hkey => .ok ?_
              subst hkey
              exact .some (.map key hvalue)
          | property | method => exact .ok .none
      | cons => cases hmember <;> exact .ok .none

omit h in
theorem objectParts_renamed (hkind : kind.Renamed r kind') :
    List.Forall₂ r.symbols (objectParts kind).1 (objectParts kind').1 ∧
      Option.Rel r.types (objectParts kind).2.1 (objectParts kind').2.1 ∧
      Option.Rel r.types (objectParts kind).2.2 (objectParts kind').2.2 := by
  cases hkind with
  | object hobject => exact ⟨hobject.properties, hobject.stringIndex, hobject.numberIndex⟩
  | union | intersection | tuple => exact ⟨.nil, .none, .none⟩
  | plain hplain =>
      cases kind with
      | object => exact hplain.elim
      | _ => exact ⟨.nil, .none, .none⟩

omit h in
theorem mapped_or_renamed {mapped mapped' : Option Shape} {other other' : Shape}
    (hother : other.Renamed r other') :
    Option.Rel (Renamed r) mapped mapped' →
      Parallel (Renamed r) (match mapped with | some shape => pure shape | none => pure other)
        (match mapped' with | some shape => pure shape | none => pure other') := by
  rintro (hshape | _)
  · exact .ok hshape
  · exact .ok hother

theorem ofClass_renamed (hnode : node.Renamed r node')
    (hdeclaration : Option.Rel (Declaration.Renamed r) declaration declaration') :
    Parallel (Renamed r) (ofClass g node declaration) (ofClass g' node' declaration') := by
  obtain ⟨hproperties, hstring, hnumber⟩ := objectParts_renamed hnode.kind
  have hfunction : declaration.any (·.kind = .functionType) =
      declaration'.any (·.kind = .functionType) :=
    any_eq_of_rel hdeclaration fun _ _ hd => by rw [hd.kind]
  have habstract : declaration.any (·.isAbstract) = declaration'.any (·.isAbstract) :=
    any_eq_of_rel hdeclaration fun _ _ hd => hd.isAbstract
  have hother : Renamed r
      (if declaration'.any (·.isAbstract) then abstract else object (objectParts node.kind).1)
      (if declaration'.any (·.isAbstract) then abstract
        else object (objectParts node'.kind).1) := by
    split
    · exact .plain trivial
    · exact .object hproperties
  unfold ofClass
  rw [hfunction, habstract]
  split
  · exact .ok (.plain trivial)
  · dsimp only
    rw [isEmpty_eq_of_forall₂ hproperties]
    split
    · exact (mapOf_renamed h hdeclaration hstring hnumber).bind fun _ _ =>
        mapped_or_renamed hother
    · exact mapped_or_renamed hother .none

/-! ## Types with a name -/

omit h in
theorem isEmptyLiteral_renamed (hnode : node.Renamed r node') {symbol symbol' : Symbol}
    (hsymbol : symbol.Renamed r symbol')
    (hdeclaration : Option.Rel (Declaration.Renamed r) declaration declaration') :
    isEmptyLiteral node symbol declaration = isEmptyLiteral node' symbol' declaration' := by
  obtain ⟨hproperties, hstring, hnumber⟩ := objectParts_renamed hnode.kind
  have hmapped : declaration.any (·.kind = .mappedType) =
      declaration'.any (·.kind = .mappedType) :=
    any_eq_of_rel hdeclaration fun _ _ hd => by rw [hd.kind]
  have hmembers : declaration.any (!·.members.isEmpty) = declaration'.any (!·.members.isEmpty) :=
    any_eq_of_rel hdeclaration fun _ _ hd => by rw [isEmpty_eq_of_forall₂ hd.members]
  simp only [isEmptyLiteral, hsymbol.isTypeLiteral, isEmpty_eq_of_forall₂ hproperties,
    isNone_eq_of_rel hstring, isNone_eq_of_rel hnumber, hmapped, hmembers]

theorem ofNamed_renamed (hnode : node.Renamed r node')
    (hreffed : Option.Rel r.symbols reffed reffed') :
    Parallel (Renamed r) (ofNamed g node reffed) (ofNamed g' node' reffed') := by
  have hid := hnode.symbol
  unfold ofNamed
  generalize node.symbol = id at hid
  generalize node'.symbol = id' at hid
  cases hid with
  | none =>
      refine (ofRoot_renamed h hnode hreffed).bind fun shape shape' hshape => ?_
      have hclass := ofClass_renamed h hnode .none
      have hkind := hnode.kind
      generalize node.kind = kind at hkind
      generalize node'.kind = kind' at hkind
      split
      · cases hshape with
        | plain _ =>
            cases hkind with
            | object _ => exact hclass
            | plain hplain => exact hplain.elim
      · rename_i hother
        split
        · cases hshape with
          | plain _ =>
              cases hkind with
              | object _ => exact (hother _ rfl rfl).elim
              | plain hplain => exact hplain.elim
        · exact .ok hshape
  | some hid =>
      refine (h.symbol hid).bind fun s s' hs => ?_
      rw [hs.name]
      split
      · exact ofRoot_renamed h hnode hreffed
      · refine (h.firstDeclaration hid).bind fun declaration declaration' hdeclaration => ?_
        cases hdeclaration with
        | none =>
            dsimp only
            rw [isEmptyLiteral_renamed hnode hs .none]
            split
            · exact .ok (.plain trivial)
            · exact ofClass_renamed h hnode .none
        | some hd =>
            dsimp only
            rw [hd.kind, isEmptyLiteral_renamed hnode hs (.some hd)]
            split
            · exact .ok (.enum hd)
            · split
              · exact .ok (.plain trivial)
              · exact ofClass_renamed h hnode (.some hd)

theorem ofNode_renamed (hnode : node.Renamed r node')
    (hreffed : Option.Rel r.symbols reffed reffed') :
    Parallel (Renamed r) (ofNode g node reffed) (ofNode g' node' reffed') := by
  have hroot := ofRoot_renamed h hnode hreffed
  have hnamed := ofNamed_renamed h hnode hreffed
  have hkind := hnode.kind
  unfold ofNode
  generalize node.kind = kind at hkind
  generalize node'.kind = kind' at hkind
  cases hkind with
  | union hmembers => exact .ok (.union hmembers)
  | intersection hmembers => exact .ok (.intersection hmembers)
  | tuple helements => exact .ok (.tuple helements)
  | object => exact hnamed
  | plain hplain =>
      cases kind with
      | union | intersection | tuple | object => exact hplain.elim
      | enum => exact hnamed
      | _ => exact hroot

end

end Shape

/-! ## References and annotations -/

structure Context.Renamed (r : Pairing) (ctx ctx' : Context) : Prop where
  asRef : ctx.asRef = ctx'.asRef
  unionKeyword : ctx.unionKeyword = ctx'.unionKeyword
  property : Option.Rel r.symbols ctx.property ctx'.property
  reffed : Option.Rel r.symbols ctx.reffed ctx'.reffed

theorem Context.renamed_standing (r : Pairing) (asRef : Bool) :
    (Context.standing asRef).Renamed r (Context.standing asRef) :=
  ⟨rfl, rfl, .none, .none⟩

structure Environment.Renamed (r : Pairing) (env env' : Environment) : Prop where
  graph : env.graph.Renamed r env'.graph
  settings : env.settings = env'.settings
  table : env.table.Renamed r env'.table

namespace Schema

variable {env env' : Environment} {ctx ctx' : Context}

theorem isStringLiteral_renamed (h : g.Renamed r g') {type type' : TypeId}
    (htype : r.types type type') : isStringLiteral g type = isStringLiteral g' type' := by
  have hfound := h.types htype
  unfold isStringLiteral
  generalize g.types.find? type = found at hfound
  generalize g'.types.find? type' = found' at hfound
  cases hfound with
  | none => rfl
  | @some node node' hnode =>
      obtain ⟨_, _, kind⟩ := node
      obtain ⟨_, _, kind'⟩ := node'
      have hkind : kind.Renamed r kind' := hnode.kind
      cases hkind with
      | union | intersection | tuple | object => rfl
      | plain _ => cases kind <;> rfl

theorem isStringEnum_renamed (h : g.Renamed r g') (hnode : node.Renamed r node') :
    isStringEnum g node = isStringEnum g' node' := by
  have hkind := hnode.kind
  unfold isStringEnum
  generalize node.kind = kind at hkind
  generalize node'.kind = kind' at hkind
  cases hkind with
  | union hmembers => exact all_eq_of_forall₂ hmembers fun _ _ => isStringLiteral_renamed h
  | intersection | tuple | object => rfl
  | plain hplain =>
      cases kind with
      | union => exact hplain.elim
      | _ => rfl

theorem isAnonymous_renamed (hnode : node.Renamed r node') :
    isAnonymous node = isAnonymous node' := by
  have hkind := hnode.kind
  unfold isAnonymous
  generalize node.kind = kind at hkind
  generalize node'.kind = kind' at hkind
  cases hkind with
  | object hobject => exact hobject.anonymous
  | union | intersection | tuple | plain => rfl

theorem isRaw_renamed {symbol symbol' : Option Symbol}
    (hsymbol : Option.Rel (Symbol.Renamed r) symbol symbol') : isRaw symbol = isRaw symbol' := by
  cases hsymbol with
  | none => rfl
  | some hs => simp only [isRaw, Option.all_some, hs.name]

section

variable (h : env.Renamed r env')

include h

theorem usesAlias_renamed (hnode : node.Renamed r node') (hctx : ctx.Renamed r ctx') :
    usesAlias env node ctx = usesAlias env' node' ctx' := by
  simp only [usesAlias, hctx.asRef, isSome_eq_of_rel hctx.reffed, h.settings,
    isStringEnum_renamed h.graph hnode]

theorem referenceName_renamed (hnode : node.Renamed r node') (hctx : ctx.Renamed r ctx')
    {symbol symbol' : Option Symbol} (hsymbol : Option.Rel (Symbol.Renamed r) symbol symbol') :
    Parallel Eq (referenceName env node symbol ctx) (referenceName env' node' symbol' ctx') := by
  have hreffed := hctx.reffed
  unfold referenceName
  rw [usesAlias_renamed h hnode hctx, hctx.asRef, isRaw_renamed hsymbol, isAnonymous_renamed hnode,
    hnode.name]
  split
  · generalize ctx.reffed = reffed at hreffed
    generalize ctx'.reffed = reffed' at hreffed
    cases hreffed with
    | none => exact .ok rfl
    | some hid =>
        refine (h.graph.symbol hid).bind fun s s' hs => .ok ?_
        rw [hs.qualifiedName]
  · split <;> exact .ok rfl

theorem annotationsOf_renamed (hid : Option.Rel r.symbols id id') :
    Parallel Eq (annotationsOf env id) (annotationsOf env' id') := by
  cases hid with
  | none => exact .ok rfl
  | some hid =>
      refine (h.graph.symbol hid).bind fun s s' hs => .ok ?_
      rw [h.settings, Annotations.ofSymbol, hs.documentation, hs.tags]
      rfl

theorem remarks_renamed (hnode : node.Renamed r node') (hctx : ctx.Renamed r ctx') :
    Parallel Eq (Remarks.of env node ctx) (Remarks.of env' node' ctx') := by
  refine (annotationsOf_renamed h hctx.reffed).bind fun reffed _ hreffed =>
    (annotationsOf_renamed h hctx.property).bind fun property _ hproperty =>
      (annotationsOf_renamed h hnode.symbol).bind fun own _ hown => .ok ?_
  rw [hreffed, hproperty, hown]

theorem subtypes_renamed (hnode : node.Renamed r node') :
    Parallel Eq (subtypes env node) (subtypes env' node') := by
  unfold subtypes
  rw [hnode.name, h.table.inheriting]
  exact .refl _

theorem writtenSymbol_renamed
    (hdeclaration : Option.Rel (Declaration.Renamed r) declaration declaration') :
    Parallel (Option.Rel r.symbols) (writtenSymbol env.graph declaration)
      (writtenSymbol env'.graph declaration') := by
  cases hdeclaration with
  | none => exact .ok .none
  | @some d d' hd =>
      have hreference := hd.typeReference
      simp only [writtenSymbol, Option.bind_some]
      generalize d.typeReference = reference at hreference
      generalize d'.typeReference = reference' at hreference
      cases hreference with
      | none => exact .ok .none
      | some hid => exact (h.graph.resolveAlias hid).map fun _ _ htarget => .some htarget

end

end Schema

end TypeSchema
