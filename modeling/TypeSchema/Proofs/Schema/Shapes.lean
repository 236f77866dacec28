import TypeSchema.Run
import TypeSchema.Schema.Shape

/-!
# Shapes tell kinds

What a shape holds comes from the type or from the graph.  Most kinds of types share their shapes
with other kinds.  Unions and undefined do not: only a union has the shape of one, and only undefined
is written as such.
-/

namespace TypeSchema

theorem Graph.find?_of_declaration {g : Graph} {id : DeclarationId} {d : Declaration}
    (h : g.declaration id = .ok d) : g.declarations.find? id = some d := by
  unfold Graph.declaration at h
  split at h
  · rename_i hfind
    cases h
    exact hfind
  · cases h

theorem Graph.mem_declarations {g : Graph} {id : SymbolId} {declaration : Declaration}
    (h : g.firstDeclaration id = .ok (some declaration)) :
    declaration ∈ g.declarations.values := by
  obtain ⟨s, -, h⟩ := outcome_bind_eq_ok.1 h
  split at h
  · cases h
  · obtain ⟨found, hfound, hpure⟩ := outcome_bind_eq_ok.1 h
    cases hpure
    exact List.mem_map_of_mem (Dict.mem_entries_iff.2 (find?_of_declaration hfound))

namespace Shape

variable {g : Graph} {node : TypeNode} {reffed : Option SymbolId} {shape : Shape}

/-- The tags of primitive types other than undefined. -/
def primitiveTags : List String := ["boolean", "integer", "null", "number", "string"]

/-- What a shape holds comes from the type or from the graph. -/
def Fits (g : Graph) (node : TypeNode) : Shape → Prop
  | .primitive tag => tag ∈ primitiveTags ∨ tag = "undefined" ∧ node.kind = .undefined
  | .literal value => literalValue node = some value
  | .enum declaration => declaration ∈ g.declarations.values
  | .union members => node.kind = .union members
  | .intersection members => node.kind = .intersection members
  | .tuple elements => node.kind = .tuple elements
  | _ => True

theorem fits_arrayOf (element : Option TypeId) : Fits g node (arrayOf element) := by
  cases element <;> trivial

theorem fits_ofKind (name reffedName : Option String) :
    Fits g node (ofKind name reffedName node.kind) := by
  cases hkind : node.kind with
  | string | boolean | null => exact .inl (by decide)
  | undefined => exact .inr ⟨rfl, hkind⟩
  | number =>
      refine .inl ?_
      split <;> decide
  | object type =>
      simp only [ofKind]
      split
      · trivial
      · split <;> exact fits_arrayOf _
  | _ => trivial

theorem fits_ofRoot (h : ofRoot g node reffed = .ok shape) : Fits g node shape := by
  unfold ofRoot at h
  split at h
  · rename_i hvalue
    cases h
    exact hvalue
  · obtain ⟨name, -, h⟩ := outcome_bind_eq_ok.1 h
    split at h
    · obtain ⟨reffedName, -, hpure⟩ := outcome_bind_eq_ok.1 h
      cases hpure
      exact fits_ofKind name reffedName
    · cases h
      exact fits_ofKind name none

theorem fits_mapOf {declaration : Option Declaration} {stringIndex numberIndex : Option TypeId}
    (h : mapOf g node declaration stringIndex numberIndex = .ok (some shape)) :
    Fits g node shape := by
  unfold mapOf at h
  split at h
  · obtain ⟨key, -, hpure⟩ := outcome_bind_eq_ok.1 h
    cases hpure
    trivial
  · split at h <;> cases h <;> trivial
  · cases h

theorem fits_ofClass {declaration : Option Declaration}
    (h : ofClass g node declaration = .ok shape) : Fits g node shape := by
  unfold ofClass at h
  split at h
  · cases h
    trivial
  · dsimp only at h
    split at h <;> obtain ⟨mapped, hmapped, h⟩ := outcome_bind_eq_ok.1 h <;> split at h
    · cases h
      exact fits_mapOf hmapped
    · cases h
      split <;> trivial
    · cases hmapped
    · cases h
      split <;> trivial

theorem fits_ofNamed (h : ofNamed g node reffed = .ok shape) : Fits g node shape := by
  unfold ofNamed at h
  split at h
  · obtain ⟨root, hroot, h⟩ := outcome_bind_eq_ok.1 h
    split at h
    · exact fits_ofClass h
    · cases h
      exact fits_ofRoot hroot
  · obtain ⟨symbol, -, h⟩ := outcome_bind_eq_ok.1 h
    split at h
    · exact fits_ofRoot h
    · obtain ⟨declaration, hdeclared, h⟩ := outcome_bind_eq_ok.1 h
      split at h
      · split at h
        · cases h
          exact Graph.mem_declarations hdeclared
        · split at h
          · cases h
            trivial
          · exact fits_ofClass h
      · split at h
        · cases h
          trivial
        · exact fits_ofClass h

theorem fits_ofNode (h : ofNode g node reffed = .ok shape) : Fits g node shape := by
  unfold ofNode at h
  split at h
  · rename_i hkind
    cases h
    exact hkind
  · rename_i hkind
    cases h
    exact hkind
  · rename_i hkind
    cases h
    exact hkind
  · exact fits_ofNamed h
  · exact fits_ofNamed h
  · exact fits_ofRoot h

/-! ## What shapes tell -/

/-- A shape that no other kind of type has. -/
structure Tells (node : TypeNode) (shape : Shape) : Prop where
  union : ∀ members, shape = .union members → node.kind = .union members
  undefined : shape = .primitive "undefined" → node.kind = .undefined

theorem Fits.tells (h : Fits g node shape) : Tells node shape := by
  constructor
  · rintro members rfl
    exact h
  · rintro rfl
    rcases h with hother | ⟨-, hkind⟩
    · exact absurd hother (by decide)
    · exact hkind

theorem tells_ofNode (h : ofNode g node reffed = .ok shape) : Tells node shape :=
  (fits_ofNode h).tells

end Shape

end TypeSchema
