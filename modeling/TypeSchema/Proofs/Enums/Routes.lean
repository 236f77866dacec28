import TypeSchema.Proofs.Decimal.Integers
import TypeSchema.Proofs.Enums.Rendered

/-!
# Two routes to an enum

The members of an enum declaration and a union of literal types both make an `enum`.  A declaration
keeps its integers, and a literal type takes every number for a floating-point number first.  So the
two lists are the same just if all the integers have at most 53 bits.
-/

namespace TypeSchema

/-! ## Integers of literal types -/

namespace Definition

theorem numberValue_ofInt {i : Int} (h : i.natAbs < Nat.pow 2 53) :
    numberValue (Binary64.ofInt i) = .int i := by
  obtain ⟨x, hx, hsign, hunits⟩ := Binary64.exists_ofInt_of_lt h
  rw [hx, numberValue, Binary64.isWhole_of_units hunits, Binary64.truncate_of_units hsign hunits,
    decide_eq_true h]
  rfl

theorem natAbs_lt_of_numberValue {x : Option Binary64} {i : Int} (h : numberValue x = .int i) :
    i.natAbs < Nat.pow 2 53 := by
  unfold numberValue at h
  split at h
  · cases h
  · split at h
    · rename_i hsmall
      cases h
      exact of_decide_eq_true (Bool.and_eq_true_iff.1 hsmall).2
    · cases h

theorem isBool_numberValue (x : Option Binary64) : (numberValue x).isBool = false := by
  unfold numberValue
  split
  · rfl
  · split <;> rfl

end Definition

/-- A value as the literal type of an enum member has it. -/
def Shape.asLiteral : Json → Json
  | .num number => Definition.numberValue number.toBinary64?
  | v => v

theorem Shape.literalValue_of_enumLiteral {node : TypeNode} {v : Json}
    (h : node.kind = .enumLiteral v) : Shape.literalValue node = some (Shape.asLiteral v) := by
  rw [Shape.literalValue, h]
  cases v <;> rfl

namespace EnumValues

variable {values : List Json} {v : Json}

/-- The values of enum members are strings and integers. -/
inductive IsMemberValue : Json → Prop
  | str (text : String) : IsMemberValue (.str text)
  | int (i : Int) : IsMemberValue (.int i)

theorem IsMemberValue.isBool_asLiteral (h : IsMemberValue v) :
    (Shape.asLiteral v).isBool = false := by
  cases h with
  | str text => rfl
  | int i => exact Definition.isBool_numberValue _

theorem IsMemberValue.keysDiffer (h : IsMemberValue v) : v.KeysDiffer := by
  cases h <;> exact Json.keysDiffer_of_isScalar rfl

theorem sort_distinct (values : List Json) : sort (Json.distinct values) = sort values := by
  rw [sort, Json.distinct_eq_self (Json.distinct_pairwise values), sort]

@[simp] theorem sort_singleton (v : Json) : sort [v] = [v] := List.mergeSort_singleton v

/-- The literal types of the values make the same list as the values do, if no integer is lost. -/
theorem sort_eq_sort_asLiteral_iff (h : ∀ v ∈ values, IsMemberValue v) :
    sort values = sort (values.map Shape.asLiteral) ↔
      ∀ i, .int i ∈ values → i.natAbs < Nat.pow 2 53 := by
  constructor
  · intro heq i hi
    have hmem := mem_sort (fun v hv => (h v hv).keysDiffer) (fun _ => Json.eq_int_of_same) hi
    rw [heq] at hmem
    obtain ⟨v, hv, hliteral⟩ := List.mem_map.1 (mem_of_mem_sort hmem)
    cases h v hv with
    | str text => cases hliteral
    | int j => exact Definition.natAbs_lt_of_numberValue hliteral
  · intro hsmall
    have hkept : ∀ v ∈ values, Shape.asLiteral v = v := fun v hv => by
      cases h v hv with
      | str text => rfl
      | int i => exact Definition.numberValue_ofInt (hsmall i hv)
    rw [List.map_congr_left hkept, List.map_id']

end EnumValues

/-! ## Declarations of constants -/

/-- The checker computed this value for the member. -/
def EnumMember.IsConstant (m : EnumMember) (v : Json) : Prop := m.constantValue = some v

theorem EnumDeclaration.of_constants {members : List EnumMember} {values : List Json}
    (h : List.Forall₂ EnumMember.IsConstant members values) :
    EnumDeclaration.values members = values ∧ EnumDeclaration.notices members = [] := by
  induction h with
  | nil => exact ⟨rfl, rfl⟩
  | @cons m v members values hconstant _ ih =>
      obtain ⟨hvalues, hnotices⟩ := ih
      have hvalue : m.value = .ok v := EnumMember.value_eq_ok_iff.2 (.constant hconstant)
      constructor
      · rw [EnumDeclaration.values, List.filterMap_cons_some (by rw [hvalue]; rfl),
          ← EnumDeclaration.values, hvalues]
      · rw [EnumDeclaration.notices, List.filterMap_cons_none (by rw [hvalue]),
          ← EnumDeclaration.notices, hnotices]

/-! ## Unions of literals -/

namespace UnionParts

variable {values : List Json}

theorem foldl_addValue (values : List Json) (parts : UnionParts) :
    values.foldl addValue parts = { parts with
      values := values.foldl
        (fun kept v => if Json.elem v kept then kept else kept ++ [v]) parts.values } := by
  induction values generalizing parts with
  | nil => rfl
  | cons v rest ih =>
      rw [List.foldl_cons, ih, List.foldl_cons, addValue]
      split <;> rfl

/-- Values alone make an `enum`, unless they are both truth values. -/
theorem write_values {keyword : UnionKeyword} (hne : values ≠ [])
    (hpair : isBooleanPair values = false) :
    write ⟨values, [], []⟩ keyword Dict.empty = enumSchema values := by
  have hbranches : branches ⟨values, [], []⟩ = [enumSchema values] := by
    simp [branches, joinBooleans, hpair, hne]
  rw [write, hbranches]
  exact Dict.empty_merge _

theorem find?_enumSchema (values : List Json) :
    (enumSchema values).find? "enum" = some (.arr (EnumValues.sort values)) :=
  Dict.find?_insert_self _ _ _

theorem isBooleanPair_eq_false (hne : values ≠ []) (h : ∀ v ∈ values, v.isBool = false) :
    isBooleanPair values = false := by
  cases values with
  | nil => exact absurd rfl hne
  | cons v rest => simp [isBooleanPair, h v List.mem_cons_self]

end UnionParts

namespace Schema

variable {env : Environment} {describe : Describe} {property : Option SymbolId}
  {members : List TypeId} {values : List Json} {ctx : Context}

/-- The type is that of a member of an enum with the value. -/
def IsEnumLiteral (g : Graph) (type : TypeId) (v : Json) : Prop :=
  ∃ node, g.typeNode type = .ok node ∧ node.kind = .enumLiteral v

theorem on_unionMember {member : TypeId} {v : Json} (h : IsEnumLiteral env.graph member v)
    (parts : UnionParts) (p : Progress) : (unionMember env describe property parts member).on p =
      (.ok (parts.addValue (Shape.asLiteral v)), p) := by
  obtain ⟨node, hnode, hkind⟩ := h
  simp only [unionMember, hnode, Run.on_bind, Run.on_ofExcept,
    Shape.literalValue_of_enumLiteral hkind, Run.on_pure]

theorem on_unionMembers (h : List.Forall₂ (IsEnumLiteral env.graph) members values)
    (parts : UnionParts) (p : Progress) : (unionMembers env describe property parts members).on p =
      (.ok ((values.map Shape.asLiteral).foldl UnionParts.addValue parts), p) := by
  induction h generalizing parts with
  | nil => rfl
  | cons hmember _ ih =>
      simp only [unionMembers, Run.on_bind, on_unionMember hmember, ih, List.map_cons,
        List.foldl_cons]

theorem on_unionDefinition (hne : values ≠ []) (hvalues : ∀ v ∈ values, EnumValues.IsMemberValue v)
    (h : List.Forall₂ (IsEnumLiteral env.graph) members values) (p : Progress) :
    ∃ d, (unionDefinition env describe members ctx Dict.empty).on p = (.ok d, p) ∧
      d.find? "enum" = some (.arr (EnumValues.sort (values.map Shape.asLiteral))) := by
  have hnonempty : Json.distinct (values.map Shape.asLiteral) ≠ [] :=
    Json.distinct_ne_nil (by simpa using hne)
  have hpair := UnionParts.isBooleanPair_eq_false hnonempty fun v hv => by
    obtain ⟨w, hw, rfl⟩ := List.mem_map.1 (Json.mem_of_mem_distinct hv)
    exact (hvalues w hw).isBool_asLiteral
  refine ⟨UnionParts.enumSchema (Json.distinct (values.map Shape.asLiteral)), ?_, ?_⟩
  · rw [unionDefinition, Run.on_bind, on_unionMembers h, UnionParts.foldl_addValue]
    exact congrArg (fun d => (Except.ok d, p)) (UnionParts.write_values hnonempty hpair)
  · rw [UnionParts.find?_enumSchema, EnumValues.sort_distinct]

theorem on_enumDefinition {declaration : Declaration} (hne : values ≠ [])
    (h : List.Forall₂ EnumMember.IsConstant declaration.enumMembers values) (d : Definition)
    (p : Progress) : ∃ d', (enumDefinition declaration d).on p = (.ok d', p) ∧
      d'.find? "enum" = some (.arr (EnumValues.sort values)) := by
  obtain ⟨hvalues, hnotices⟩ := EnumDeclaration.of_constants h
  refine ⟨EnumDeclaration.describe declaration.enumMembers d, ?_, ?_⟩
  · rw [enumDefinition, hnotices]
    rfl
  · rw [EnumDeclaration.describe, hvalues, Definition.find?_insertIf_self,
      if_pos (by simpa using hne)]

/-- A declaration with constants and a union of the literal types of the same values make the same
list just if all its integers have at most 53 bits. -/
theorem enum_routes_agree_iff {declaration : Declaration} (hne : values ≠ [])
    (hvalues : ∀ v ∈ values, EnumValues.IsMemberValue v)
    (hconstants : List.Forall₂ EnumMember.IsConstant declaration.enumMembers values)
    (hliterals : List.Forall₂ (IsEnumLiteral env.graph) members values)
    (describe : Describe) (ctx : Context) (d : Definition) (p : Progress) :
    ∃ declared united list list',
      (enumDefinition declaration d).on p = (.ok declared, p) ∧
      (unionDefinition env describe members ctx Dict.empty).on p = (.ok united, p) ∧
      declared.find? "enum" = some (.arr list) ∧ united.find? "enum" = some (.arr list') ∧
      (list = list' ↔ ∀ i, .int i ∈ values → i.natAbs < Nat.pow 2 53) := by
  obtain ⟨declared, hdeclared, hlist⟩ := on_enumDefinition hne hconstants d p
  obtain ⟨united, hunited, hlist'⟩ := on_unionDefinition hne hvalues hliterals p
  exact ⟨declared, united, _, _, hdeclared, hunited, hlist, hlist',
    EnumValues.sort_eq_sort_asLiteral_iff hvalues⟩

/-- The literal types of an enum `Speed` with a text, the last integer of 53 bits, and the first
integer that is no floating-point number. -/
def speedGraph : Graph where
  modules := []
  declarations := ∅
  symbols := ∅
  types := .ofEntries [
    (⟨"Speed.Auto"⟩, ⟨"Speed.Auto", none, .enumLiteral (.str "auto")⟩),
    (⟨"Speed.Last"⟩, ⟨"Speed.Last", none, .enumLiteral (.int 9007199254740991)⟩),
    (⟨"Speed.Odd"⟩, ⟨"Speed.Odd", none, .enumLiteral (.int 9007199254740993)⟩)]
  diagnostics := []
  strictNullChecks := false

def speedEnvironment : Environment := ⟨speedGraph, .default, .empty⟩

/-- The declaration of an enum whose members have the values. -/
def speedEnum (values : List Json) : Declaration :=
  { Declaration.blank with
    kind := .enum, enumMembers := values.map fun v => ⟨"Speed", some v, none⟩ }

def speedUnion (members : List TypeId) : Describing Definition :=
  unionDefinition speedEnvironment (define speedEnvironment) members (Context.standing true)
    Dict.empty

def smallSpeeds : List Json := [.str "auto", .int 9007199254740991, .str "auto"]

theorem enum_routes_agree_speed :
    smallSpeeds ≠ [] ∧ (∀ v ∈ smallSpeeds, EnumValues.IsMemberValue v) ∧
      List.Forall₂ EnumMember.IsConstant (speedEnum smallSpeeds).enumMembers smallSpeeds ∧
      List.Forall₂ (IsEnumLiteral speedEnvironment.graph)
        [⟨"Speed.Auto"⟩, ⟨"Speed.Last"⟩, ⟨"Speed.Auto"⟩] smallSpeeds ∧
      ∃ declared united list,
        (enumDefinition (speedEnum smallSpeeds) Dict.empty).on .initial = (.ok declared, .initial) ∧
        (speedUnion [⟨"Speed.Auto"⟩, ⟨"Speed.Last"⟩, ⟨"Speed.Auto"⟩]).on .initial =
          (.ok united, .initial) ∧
        declared.find? "enum" = some (.arr list) ∧ united.find? "enum" = some (.arr list) := by
  have hne : smallSpeeds ≠ [] := List.cons_ne_nil _ _
  have hvalues : ∀ v ∈ smallSpeeds, EnumValues.IsMemberValue v := by
    simp [smallSpeeds, EnumValues.IsMemberValue.str, EnumValues.IsMemberValue.int]
  have hconstants : List.Forall₂ EnumMember.IsConstant (speedEnum smallSpeeds).enumMembers
      smallSpeeds := .cons rfl (.cons rfl (.cons rfl .nil))
  have hliterals : List.Forall₂ (IsEnumLiteral speedEnvironment.graph)
      [⟨"Speed.Auto"⟩, ⟨"Speed.Last"⟩, ⟨"Speed.Auto"⟩] smallSpeeds :=
    .cons ⟨_, rfl, rfl⟩ (.cons ⟨_, rfl, rfl⟩ (.cons ⟨_, rfl, rfl⟩ .nil))
  obtain ⟨declared, united, list, list', hdeclared, hunited, hlist, hlist', hsame⟩ :=
    enum_routes_agree_iff hne hvalues hconstants hliterals (define speedEnvironment)
      (Context.standing true) Dict.empty .initial
  have hsmall : ∀ i, Json.int i ∈ smallSpeeds → i.natAbs < Nat.pow 2 53 := by
    simp [smallSpeeds, Json.int]
  exact ⟨hne, hvalues, hconstants, hliterals, declared, united, list, hdeclared, hunited, hlist,
    hsame.2 hsmall ▸ hlist'⟩

/-- The even neighbour of the first integer that is no floating-point number. -/
def evenReal : Binary64 := ⟨false, Nat.pow 2 52, 1075, by decide⟩

theorem asLiteral_odd : Shape.asLiteral (.int 9007199254740993) = .num (.real evenReal) := by
  have hnearest : Binary64.ofInt 9007199254740993 = some evenReal := by decide +kernel
  have hlarge : (evenReal.isWhole && decide (evenReal.truncate.natAbs < Nat.pow 2 53)) = false := by
    decide +kernel
  change Definition.numberValue (Binary64.ofInt 9007199254740993) = _
  rw [hnearest, Definition.numberValue, hlarge]
  rfl

/-- A literal type turns the first integer that is no floating-point number into another number. -/
theorem enum_routes_may_differ :
    List.Forall₂ (IsEnumLiteral speedEnvironment.graph) [⟨"Speed.Odd"⟩] [.int 9007199254740993] ∧
      ∃ declared united,
        (enumDefinition (speedEnum [.int 9007199254740993]) Dict.empty).on .initial =
          (.ok declared, .initial) ∧
        (speedUnion [⟨"Speed.Odd"⟩]).on .initial = (.ok united, .initial) ∧
        declared.find? "enum" = some (.arr [.int 9007199254740993]) ∧
        united.find? "enum" = some (.arr [.num (.real evenReal)]) ∧
        declared.find? "enum" ≠ united.find? "enum" := by
  have hne : [Json.int 9007199254740993] ≠ [] := List.cons_ne_nil _ _
  have hliterals : List.Forall₂ (IsEnumLiteral speedEnvironment.graph) [⟨"Speed.Odd"⟩]
      [.int 9007199254740993] := .cons ⟨_, rfl, rfl⟩ .nil
  have hconstants : List.Forall₂ EnumMember.IsConstant
      (speedEnum [.int 9007199254740993]).enumMembers [.int 9007199254740993] := .cons rfl .nil
  obtain ⟨declared, hdeclared, hlist⟩ := on_enumDefinition hne hconstants Dict.empty .initial
  obtain ⟨united, hunited, hlist'⟩ : ∃ d, (speedUnion [⟨"Speed.Odd"⟩]).on .initial =
      (.ok d, .initial) ∧ d.find? "enum" =
        some (.arr (EnumValues.sort ([Json.int 9007199254740993].map Shape.asLiteral))) :=
    on_unionDefinition hne (List.forall_mem_singleton.2 (.int _)) hliterals .initial
  rw [EnumValues.sort_singleton] at hlist
  rw [List.map_singleton, EnumValues.sort_singleton, asLiteral_odd] at hlist'
  refine ⟨hliterals, declared, united, hdeclared, hunited, hlist, hlist', ?_⟩
  rw [hlist, hlist']
  simp [Json.int]

end Schema

end TypeSchema
