import TypeSchema.Proofs.References.Origin
import TypeSchema.Proofs.Validation.Shapes

/-!
# Names and places

What becomes of a union, a number or undefined depends on the place in which it stands.  If none of
them has a symbol of its own, a type that goes by a name is none of them, or it is a union of string
literals that goes by the name of an alias: such a type looks the same in all places, and it never
leaves a property absent.
-/

namespace TypeSchema

namespace Schema

variable {env : Environment} {p : Progress} {type member : TypeId} {node : TypeNode}
  {ctx : Context} {name : String}

/-- Whenever a type is referred to by a name, the name was taken by the same type, in a place that
is alike. -/
def RefersAlike (env : Environment) (p : Progress) : Prop :=
  ∀ name type ctx type' ctx', .referred name type ctx ∈ p.history →
    .reserved name type' ctx' ∈ p.history →
      type' = type ∧ ∀ node, env.graph.typeNode type = .ok node → ShapedAlike env node ctx' ctx

def dependsOnPlace (node : TypeNode) : Bool :=
  match node.kind with
  | .union _ => true
  | .number => true
  | .undefined => true
  | _ => false

def NamesIndependent (g : Graph) : Prop :=
  ∀ node ∈ g.types.values, dependsOnPlace node = true → node.symbol = none

instance (g : Graph) : Decidable (NamesIndependent g) :=
  inferInstanceAs (Decidable (∀ node ∈ g.types.values, _))

theorem NamesIndependent.symbol (h : NamesIndependent env.graph)
    (hnode : env.graph.typeNode type = .ok node) (hdepends : dependsOnPlace node = true) :
    node.symbol = none :=
  h node (List.mem_map_of_mem (Graph.mem_types hnode)) hdepends

/-- A type that goes by a name does not depend on its place, or is a union of string literals. -/
theorem independent_or_stringEnum (hnames : NamesIndependent env.graph)
    (hsetting : env.settings.useTypeAliasRef = false)
    (hnode : env.graph.typeNode type = .ok node)
    (h : referenceOf env type ctx = .ok (some name)) :
    dependsOnPlace node = false ∨ isStringEnum env.graph node = true := by
  rcases namedByAlias_or_own h with
    ⟨node', -, -, hnode', halias, -⟩ | ⟨node', hnode', hsymbol, -⟩
  · cases hnode.symm.trans hnode'
    simp only [usesAlias, hsetting, Bool.false_or, Bool.and_eq_true] at halias
    exact .inr halias.2
  · cases hnode.symm.trans hnode'
    exact .inl (Bool.eq_false_iff.2 fun hdepends => hsymbol (hnames.symbol hnode hdepends))

/-- All members of a union of string literals are literals. -/
theorem stringEnum_not_described {members : List TypeId} (hkind : node.kind = .union members)
    (henum : isStringEnum env.graph node = true) (hmember : member ∈ members) :
    ¬ IsDescribed env member := by
  rintro ⟨node', hnode', hliteral⟩
  rw [isStringEnum, hkind] at henum
  have hstring := List.all_eq_true.1 henum member hmember
  unfold isStringLiteral at hstring
  split at hstring
  · rename_i hfind
    rw [Graph.typeNode, hfind] at hnode'
    cases hnode'
    cases hliteral
  · cases hstring

theorem ofNode_reffed (g : Graph) (hnumber : node.kind ≠ .number)
    (reffed reffed' : Option SymbolId) :
    Shape.ofNode g node reffed = Shape.ofNode g node reffed' := by
  have hroot : Shape.ofRoot g node reffed = Shape.ofRoot g node reffed' := by
    unfold Shape.ofRoot
    split
    · rfl
    · split
      · exact absurd ‹_› hnumber
      · rfl
  unfold Shape.ofNode Shape.ofNamed
  rw [hroot]

/-- A type that goes by a name has the same shape in all places. -/
theorem shapedAlike_of_named (hnames : NamesIndependent env.graph)
    (hsetting : env.settings.useTypeAliasRef = false)
    (hnode : env.graph.typeNode type = .ok node)
    (h : referenceOf env type ctx = .ok (some name)) (ctx₁ ctx₂ : Context) :
    ShapedAlike env node ctx₁ ctx₂ := by
  have hkind := independent_or_stringEnum hnames hsetting hnode h
  constructor
  · refine ofNode_reffed _ (fun hnumber => ?_) _ _
    simp [dependsOnPlace, isStringEnum, hnumber] at hkind
  · rintro members hunion ⟨member, hmember, hdescribed⟩
    rcases hkind with hindependent | henum
    · simp [dependsOnPlace, hunion] at hindependent
    · exact absurd hdescribed (stringEnum_not_described hunion henum hmember)

theorem refersAlike_of_names (hnames : NamesIndependent env.graph)
    (hsetting : env.settings.useTypeAliasRef = false)
    (hone : ∀ name type ctx type' ctx', referenceOf env type ctx = .ok (some name) →
      referenceOf env type' ctx' = .ok (some name) → type = type') (h : Traced env p) :
    RefersAlike env p := by
  intro name type ctx type' ctx' hreferred hreserved
  obtain ⟨href, -⟩ := h.referred name type ctx hreferred
  exact ⟨(hone _ _ _ _ _ href (h.reserved name type' ctx' hreserved)).symm,
    fun node hnode => shapedAlike_of_named hnames hsetting hnode href ctx' ctx⟩

def isUnion (node : TypeNode) : Bool :=
  match node.kind with
  | .union _ => true
  | _ => false

def UnionsUnnamed (g : Graph) : Prop :=
  ∀ node ∈ g.types.values, isUnion node = true → node.symbol = none

instance (g : Graph) : Decidable (UnionsUnnamed g) :=
  inferInstanceAs (Decidable (∀ node ∈ g.types.values, _))

theorem NamesIndependent.unionsUnnamed {g : Graph} (h : NamesIndependent g) : UnionsUnnamed g := by
  intro node hnode hunion
  refine h node hnode ?_
  unfold isUnion at hunion
  unfold dependsOnPlace
  split at hunion <;> simp_all

/-- No type that may leave its property absent goes by a name: it is a union, and one that goes by
the name of an alias lists string literals only. -/
theorem inlinesAbsent_of_unions (hunions : UnionsUnnamed env.graph)
    (hsetting : env.settings.useTypeAliasRef = false) : InlinesAbsent env := by
  intro _ id type ctx _ hleaves
  obtain ⟨node, name, -, members, hnode, hname, -, hkind, -, member, hmember, hleft⟩ :=
    leavesOut_iff.1 hleaves
  cases name with
  | none => exact hname
  | some name =>
      rcases namedByAlias_or_own hname with
        ⟨node', -, -, hnode', halias, -⟩ | ⟨node', hnode', hsymbol, -⟩
      · cases hnode.symm.trans hnode'
        simp only [usesAlias, hsetting, Bool.false_or, Bool.and_eq_true] at halias
        obtain ⟨member', -, hmember', hliteral, -⟩ := isLeftOut_iff.1 hleft
        exact absurd ⟨member', hmember', hliteral⟩
          (stringEnum_not_described hkind halias.2 hmember)
      · cases hnode.symm.trans hnode'
        refine absurd (hunions node (List.mem_map_of_mem (Graph.mem_types hnode)) ?_) hsymbol
        rw [isUnion, hkind]

theorem inlinesAbsent_of_names (hnames : NamesIndependent env.graph)
    (hsetting : env.settings.useTypeAliasRef = false) : InlinesAbsent env :=
  inlinesAbsent_of_unions hnames.unionsUnnamed hsetting

/-- With and without references, undefined is what is left out. -/
theorem isLeftOut_plain (hplain : IsPlain env.graph) (hnames : NamesIndependent env.graph) :
    isLeftOut env member = true ↔
      ∃ node, env.graph.typeNode member = .ok node ∧ node.kind = .undefined := by
  constructor
  · intro h
    obtain ⟨node, remarks, hnode, -, -, hremarks, -, hundefined⟩ := isLeftOut_iff.1 h
    cases remarks_plain hplain hremarks
    refine ⟨node, hnode, ?_⟩
    unfold becomesUndefined at hundefined
    split at hundefined
    · cases hundefined
    · split at hundefined
      · assumption
      · cases hundefined
  · rintro ⟨⟨name, symbol, kind⟩, hnode, rfl⟩
    obtain rfl : symbol = none := hnames.symbol hnode rfl
    exact isLeftOut_undefined hnode

theorem sameAbsent_of_names (hplain : IsPlain env.graph) (hnames : NamesIndependent env.graph) :
    SameAbsent env := by
  have hplain' : IsPlain env.withoutRefs.graph := hplain
  have hnames' : NamesIndependent env.withoutRefs.graph := hnames
  intro _ _ _ _ _ member _
  rw [Bool.eq_iff_iff, isLeftOut_plain hplain hnames, isLeftOut_plain hplain' hnames']
  rfl

end Schema

end TypeSchema
