import TypeSchema.Proofs.Document.Entries
import TypeSchema.Proofs.References.Resolution
import TypeSchema.Proofs.Validation.Shapes

/-!
# What references change

A document accepts the same values with and without references if each name stands for the type that
is referred to by it, and if no union of which exactly one branch must accept a value has members
that are bare types only where they are inlined and that some value fits together.
-/

namespace TypeSchema

namespace Schema

variable {env : Environment} {refers : String → TypeId → Context → Prop} {type member : TypeId}
  {ctx : Context} {d : Definition} {members : List TypeId} {made : List Described}

/-! ## Members of unions -/

/-- As a member of a union the type is described as a bare type. -/
def BareAs (env : Environment) (member : TypeId) (tag : String) : Prop :=
  ∃ refers d, Given env refers member (Context.nested env.settings) d ∧ d.bareType = some tag

theorem BareAs.eq {tag : String} (h : BareAs env member tag)
    (hd : Given env refers member (Context.nested env.settings) d) : d.bareType = some tag := by
  obtain ⟨_, d', hd', hbare⟩ := h
  rwa [hd.unique hd']

def literalOf (g : Graph) (member : TypeId) : Option Json :=
  match g.typeNode member with
  | .ok node => Shape.literalValue node
  | .error _ => none

/-- The literal values among the members of a union. -/
def literals (g : Graph) (members : List TypeId) : List Json :=
  Json.distinct (members.filterMap (literalOf g))

theorem literalOf_eq {node : TypeNode} (h : env.graph.typeNode member = .ok node) :
    literalOf env.graph member = Shape.literalValue node := by
  rw [literalOf, h]

theorem IsDescribed.literalOf_eq (h : IsDescribed env member) :
    literalOf env.graph member = none := by
  obtain ⟨node, hnode, hliteral⟩ := h
  rw [Schema.literalOf_eq hnode, hliteral]

theorem Sorts.values_eq {parts parts' : UnionParts} (h : Sorts env parts members made parts') :
    parts'.values = (members.filterMap (literalOf env.graph)).foldl
      (fun kept value => if Json.elem value kept then kept else kept ++ [value]) parts.values := by
  induction h with
  | nil => rfl
  | value hnode hvalue _ ih =>
      rw [ih, List.filterMap_cons_some ((literalOf_eq hnode).trans hvalue), List.foldl_cons,
        UnionParts.addValue]
      congr 1
      split <;> rfl
  | absent hmember _ _ ih => rw [ih, List.filterMap_cons_none hmember.literalOf_eq]
  | schema hmember _ _ ih =>
      rw [ih, List.filterMap_cons_none hmember.literalOf_eq]
      rfl
  | tag hmember _ _ _ ih =>
      rw [ih, List.filterMap_cons_none hmember.literalOf_eq, addTag_values]

theorem Sorts.literals_eq {parts : UnionParts} (h : Sorts env .empty members made parts) :
    parts.values = literals env.graph members := h.values_eq

/-- A member is described as undefined just if it is left out. -/
theorem Given.undefined_iff (hmember : IsDescribed env member)
    (h : Given env refers member (Context.nested env.settings) d) :
    d.bareType = some "undefined" ↔ isLeftOut env member = true := by
  obtain ⟨node, hnode, hliteral⟩ := hmember
  rw [isLeftOut_iff]
  cases h with
  | inlined hnode' hremarks hname hmade hd =>
      cases hnode.symm.trans hnode'
      rw [widen_undefined_iff, completed_undefined_iff hd.completed]
      constructor
      · rintro ⟨hnullable, hundefined⟩
        exact ⟨node, _, hnode, hliteral, hname, hremarks, hnullable, hundefined⟩
      · rintro ⟨node', remarks, hnode', -, -, hremarks', hnullable, hundefined⟩
        cases hnode.symm.trans hnode'
        cases hremarks.symm.trans hremarks'
        exact ⟨hnullable, hundefined⟩
  | referred hnode' hremarks hname =>
      constructor
      · intro hbare
        have hreference := bareType_of_widen hbare
        rw [Remarks.onReference, remarks_standing hremarks] at hreference
        exact absurd hreference (Definition.bareType_insert_of_ne _ (by decide) _ _)
      · rintro ⟨node', remarks, -, -, hname', -⟩
        cases hname.symm.trans hname'

end Schema

namespace Validation

open Schema

variable {dialect : Dialect} {definitions definitions' : Entries String Json} {depth depth' : Nat}
  {exempt : List String} {d d' e e' : Definition} {env : Environment} {node : TypeNode}
  {ctx ctx' : Context} {members : List TypeId} {made made' : List Described}
  {refers refers' : String → TypeId → Context → Prop}

/-- No value fits two members that are bare types without references, unless they are so with
references as well; the type of truth values may also stem from their literals. -/
structure TellsApart (dialect : Dialect) (env : Environment) (members : List TypeId) : Prop where
  pairwise : members.Pairwise fun x y => ∀ v tag tag', BareAs env.withoutRefs x tag →
    BareAs env.withoutRefs y tag' → dialect.hasType v tag = true → dialect.hasType v tag' = true →
      BareAs env x tag ∧ BareAs env y tag'
  booleans : UnionParts.isBooleanPair (literals env.graph members) = true →
    ∀ x ∈ members, BareAs env.withoutRefs x "boolean" → BareAs env x "boolean"

/-- The described members of a union, with and without references. -/
structure SortedAlike (env : Environment) (members : List TypeId)
    (pairs : List (Described × Described)) : Prop where
  paired : ∀ p ∈ pairs, Paired p.1 p.2 ∧ IsDescribed env p.1.type ∧
    p.1.ctx = Context.nested env.settings
  sublist : (pairs.map (·.1.type)).Sublist members

theorem sorts_alike {parts parts₀ parts₁ parts₂ : UnionParts}
    (h : Sorts env parts members made parts₁)
    (h' : Sorts env.withoutRefs parts₀ members made' parts₂) :
    ∃ pairs, made = pairs.map (·.1) ∧ made' = pairs.map (·.2) ∧ SortedAlike env members pairs ∧
      (parts = parts₀ → (∀ p ∈ pairs, ∃ tag, p.1.definition.bareType = some tag ∧
        p.2.definition.bareType = some tag) → parts₁ = parts₂) := by
  induction members generalizing parts parts₀ made made' with
  | nil =>
      cases h
      cases h'
      exact ⟨[], rfl, rfl, ⟨fun p hp => absurd hp List.not_mem_nil, .slnil⟩, fun h _ => h⟩
  | cons member rest ih =>
      rcases sorts_cons h with
        ⟨node, value, hnode, hvalue, hrest⟩ | ⟨hmember, d, made, rfl, hrest⟩
      · rcases sorts_cons h' with ⟨node', value', hnode', hvalue', hrest'⟩ | ⟨hmember', -⟩
        · cases hnode.symm.trans hnode'
          cases hvalue.symm.trans hvalue'
          obtain ⟨pairs, hmade, hmade', ⟨hpaired, hsublist⟩, hsame⟩ := ih hrest hrest'
          exact ⟨pairs, hmade, hmade', ⟨hpaired, hsublist.cons member⟩, fun h => hsame (h ▸ rfl)⟩
        · exact absurd hvalue (IsDescribed.not_literal hmember' hnode)
      · rcases sorts_cons h' with ⟨node', value', hnode', hvalue', -⟩ | ⟨-, d', made', rfl, hrest'⟩
        · exact absurd hvalue' (hmember.not_literal hnode')
        · obtain ⟨pairs, rfl, rfl, ⟨hpaired, hsublist⟩, hsame⟩ := ih hrest hrest'
          refine ⟨(⟨member, Context.nested env.settings, d⟩, ⟨member, _, d'⟩) :: pairs, rfl, rfl,
            ⟨List.forall_mem_cons.2 ⟨⟨⟨rfl, rfl⟩, hmember, rfl⟩, hpaired⟩, hsublist.cons_cons _⟩,
            fun h hbare => ?_⟩
          obtain ⟨⟨tag, hd, hd'⟩, hbare⟩ := List.forall_mem_cons.1 hbare
          refine hsame ?_ hbare
          rw [h, UnionParts.addDefinition, UnionParts.addDefinition, hd, hd']

theorem hasType_of_boolean {v : Json} {tag : String} (h : dialect.hasType v "boolean" = true)
    (htag : dialect.hasType v tag = true) : tag = "boolean" := by
  cases v with
  | bool value => exact beq_iff_eq.1 htag
  | _ => cases h

theorem SortedAlike.given {pairs : List (Described × Described)} {p : Described × Described}
    (h : SortedAlike env members pairs) (hp : p ∈ pairs)
    (hgiven : Given env refers p.1.type p.1.ctx p.1.definition)
    (hgiven' : Given env.withoutRefs refers' p.2.type p.2.ctx p.2.definition) :
    Given env refers p.1.type (Context.nested env.settings) p.1.definition ∧
      Given env.withoutRefs refers' p.1.type (Context.nested env.withoutRefs.settings)
        p.2.definition := by
  obtain ⟨hpaired, -, hctx⟩ := h.paired p hp
  rw [hpaired.type, hpaired.ctx, hctx] at hgiven'
  rw [hctx] at hgiven
  exact ⟨hgiven, hgiven'⟩

theorem SortedAlike.apart {pairs : List (Described × Described)}
    (h : SortedAlike env members pairs) (hapart : TellsApart dialect env members)
    (hgiven : ∀ p ∈ pairs, Given env refers p.1.type p.1.ctx p.1.definition)
    (hgiven' : ∀ p ∈ pairs, Given env.withoutRefs refers' p.2.type p.2.ctx p.2.definition) :
    Apart dialect (literals env.graph members)
      (pairs.map fun p => (p.1.definition, p.2.definition)) := by
  have hplace (p : Described × Described) (hp : p ∈ pairs) :=
    h.given hp (hgiven p hp) (hgiven' p hp)
  have hbare {p : Described × Described} (hp : p ∈ pairs) {v : Json}
      (hfits : bareFits (dialect.hasType v) p.2.definition = true) :
      ∃ tag, BareAs env.withoutRefs p.1.type tag ∧ dialect.hasType v tag = true ∧
        (BareAs env p.1.type tag → bareFits (dialect.hasType v) p.1.definition = true) := by
    obtain ⟨tag, htag, hv⟩ := (Option.any_eq_true _ _).1 hfits
    refine ⟨tag, ⟨_, _, (hplace p hp).2, htag⟩, hv, fun hon => ?_⟩
    rw [bareFits, hon.eq (hplace p hp).1]
    exact hv
  constructor
  · intro v
    have htypes := List.pairwise_map.1 (hapart.pairwise.sublist h.sublist)
    rw [List.pairwise_map]
    refine htypes.imp_of_mem fun hp hq htells hfits hfits' => ?_
    obtain ⟨tag, hoff, hv, hback⟩ := hbare hp hfits
    obtain ⟨tag', hoff', hv', hback'⟩ := hbare hq hfits'
    obtain ⟨hon, hon'⟩ := htells v tag tag' hoff hoff' hv hv'
    exact ⟨hback hon, hback' hon'⟩
  · intro hpair v hboolean
    refine List.forall_mem_map.2 fun p hp hfits => ?_
    obtain ⟨tag, hoff, hv, hback⟩ := hbare hp hfits
    cases hasType_of_boolean hboolean hv
    refine hback (hapart.booleans hpair _ (h.sublist.subset ?_) hoff)
    exact List.mem_map_of_mem hp

/-! ## Unions -/

/-- A union is a bare type only if all of its members are. -/
theorem bareType_of_union {parts : UnionParts} {kind : UnionKeyword} {tag : String}
    (h : Sorts env .empty members made parts)
    (hbare : (parts.write kind Dict.empty).bareType = some tag) :
    ∀ m ∈ made, m.definition.bareType ≠ none := by
  rcases write_cases parts kind Dict.empty with heq | ⟨only, honly, heq⟩ | ⟨items, heq⟩
  · rw [heq] at hbare
    cases hbare
  · rw [heq] at hbare
    have hbare := Definition.bareType_of_merge rfl hbare
    have hschemas : parts.schemas = [] := by
      refine List.eq_nil_iff_forall_not_mem.2 fun schema hschema => ?_
      have hmem : schema ∈ parts.branches := by
        simp only [UnionParts.branches, joinBooleans_schemas, List.mem_append]
        exact .inl (.inl hschema)
      rw [honly, List.mem_singleton] at hmem
      rcases mem_schemas_of_sorts h hschema with hnone | ⟨m, -, -, hnone⟩
      · exact absurd hnone List.not_mem_nil
      · rw [hmem, hbare] at hnone
        cases hnone
    intro m hm hnone
    have hkept := h.schemas_eq
    rw [hschemas, UnionParts.empty, List.nil_append, eq_comm, List.filter_eq_nil_iff] at hkept
    exact hkept m.definition (List.mem_map_of_mem hm) (by rw [hnone]; rfl)
  · rw [heq] at hbare
    refine absurd hbare (Definition.bareType_insert_of_ne _ ?_ _ _)
    cases kind <;> decide

theorem isIgnored_union {parts : UnionParts} (kind : UnionKeyword)
    (h : Sorts env .empty members made parts) (hd : d.isIgnored = false)
    (hmade : ∀ m ∈ made, m.definition.isIgnored = false) :
    (parts.write kind d).isIgnored = false := by
  rw [isIgnored_eq_false_iff] at hd ⊢
  rcases write_cases parts kind d with heq | ⟨only, honly, heq⟩ | ⟨items, heq⟩
  · rw [heq, hd]
  · rw [heq, Dict.find?_merge, hd, Option.or_none]
    obtain hschema | ⟨values, rfl⟩ | rfl := mem_branches (honly ▸ List.mem_singleton.2 rfl)
    · obtain hnone | ⟨m, hm, rfl, -⟩ := mem_schemas_of_sorts h hschema
      · exact absurd hnone List.not_mem_nil
      · exact isIgnored_eq_false_iff.1 (hmade m hm)
    · exact isIgnored_eq_false_iff.1
        ((enumSchema_looksAlike Eq values).kept List.not_mem_nil).1
    · have htags : LooksAlike [] Eq (Definition.setTypes Dict.empty parts.joinBooleans.tags) _ :=
        LooksAlike.empty.setTypes _
      exact isIgnored_eq_false_iff.1 (htags.kept List.not_mem_nil).1
  · rw [heq, Dict.find?_insert_of_ne _ (by cases kind <;> decide), hd]

theorem union_matches {parts parts' : UnionParts} (hdepth : 1 ≤ depth) (hexempt : Unread exempt)
    {type : TypeId} (hnode : env.graph.typeNode type = .ok node)
    (hkind : node.kind = .union members) (habsent : SameAbsent env) (kind : UnionKeyword)
    (hapart : kind = .oneOf → TellsApart dialect env members)
    (hsorts : Sorts env .empty members made parts)
    (hsorts' : Sorts env.withoutRefs .empty members made' parts')
    (hmade : AllGiven env refers made) (hmade' : AllGiven env.withoutRefs refers' made')
    (hmatch : AllMatch dialect definitions definitions' depth made made')
    (hd : ∀ key ∉ exempt, d.find? key = none) :
    Matches dialect definitions definitions' exempt (depth + 1) (parts.write kind d)
      (parts'.write kind Dict.empty) := by
  obtain ⟨pairs, rfl, rfl, hpairs, hsame⟩ := sorts_alike hsorts hsorts'
  have hmatches (p : Described × Described) (hp : p ∈ pairs) :
      Matches dialect definitions definitions' [] depth p.1.definition p.2.definition :=
    hmatch _ (List.mem_map_of_mem hp) _ (List.mem_map_of_mem hp) (hpairs.paired p hp).1
  have hgiven (p : Described × Described) (hp : p ∈ pairs) := hmade p.1 (List.mem_map_of_mem hp)
  have hgiven' (p : Described × Described) (hp : p ∈ pairs) := hmade' p.2 (List.mem_map_of_mem hp)
  have hvalues : parts.values = parts'.values := hsorts.literals_eq.trans hsorts'.literals_eq.symm
  refine ⟨?_, fun hnil tag hbare => ?_, ?_, ?_⟩
  · have hfirst : (pairs.map (·.1)).map (·.definition) =
        (pairs.map fun p => (p.1.definition, p.2.definition)).map (·.1) := by simp
    refine union_agreeAt kind hdepth hsorts hsorts' hfirst (by simp) hvalues ?_ ?_ ?_ ?_ ?_ ?_
    · exact List.forall_mem_map.2 fun p hp => (hmatches p hp).agrees
    · exact List.forall_mem_map.2 fun p hp => (hmatches p hp).bare rfl
    · refine List.forall_mem_map.2 fun p hp hbare => ?_
      obtain ⟨-, hdescribed, -⟩ := hpairs.paired p hp
      have hdescribed' : IsDescribed env.withoutRefs p.1.type := hdescribed
      obtain ⟨hon, hoff⟩ := hpairs.given hp (hgiven p hp) (hgiven' p hp)
      have hmember := hpairs.sublist.subset (List.mem_map_of_mem hp)
      rw [hon.undefined_iff hdescribed, ← habsent type node members hnode hkind _ hmember]
      exact (hoff.undefined_iff hdescribed').1 hbare
    · intro hone
      rw [hsorts.literals_eq]
      exact hpairs.apart (hapart hone) hgiven hgiven'
    · exact fun key hkey => hd key (hexempt.reads key hkey)
    · exact fun key _ => rfl
  · subst hnil
    obtain rfl : d = Dict.empty := Dict.eq_empty_of_find? fun key => hd key List.not_mem_nil
    have hall := bareType_of_union hsorts hbare
    obtain rfl := hsame rfl fun p hp => by
      obtain ⟨tag, hp₁⟩ := Option.ne_none_iff_exists'.1 (hall p.1 (List.mem_map_of_mem hp))
      exact ⟨tag, hp₁, (hmatches p hp).bare rfl tag hp₁⟩
    exact hbare
  · exact isIgnored_union kind hsorts
      (isIgnored_eq_false_iff.2 (hd _ (hexempt.not_mem List.mem_cons_self)))
      (List.forall_mem_map.2 fun p hp => (hmatches p hp).kept.1)
  · exact isIgnored_union kind hsorts' rfl
      (List.forall_mem_map.2 fun p hp => (hmatches p hp).kept.2)

/-! ## Types -/

theorem completes_matches {type : TypeId} (hdepth : 1 ≤ depth) (hexempt : Unread exempt)
    (hplain : IsPlain env.graph) (habsent : SameAbsent env)
    (hnode : env.graph.typeNode type = .ok node) (halike : ShapedAlike env node ctx ctx')
    (hapart : ∀ members, node.kind = .union members → ctx'.unionKeyword = .oneOf →
      TellsApart dialect env members)
    (h : Completes env node ctx d made e)
    (h' : Completes env.withoutRefs node ctx' Dict.empty made' e')
    (hmade : AllGiven env refers made) (hmade' : AllGiven env.withoutRefs refers' made')
    (hmatch : AllMatch dialect definitions definitions' depth made made')
    (hd : ∀ key ∉ exempt, d.find? key = none) :
    Matches dialect definitions definitions' exempt (depth + 2) e e' := by
  have hlooks (related : Json → Json → Prop) : LooksAlike exempt related d Dict.empty := by
    intro key hkey
    rw [hd key hkey]
    exact .none
  have htype : d.hasType = false :=
    Definition.hasType_eq_false_iff.2 (hd "type" (hexempt.not_mem (by decide)))
  obtain ⟨hcompleted, hobject⟩ := h
  obtain ⟨hcompleted', hobject'⟩ := h'
  cases hcompleted with
  | annotated hannotated => cases htype.symm.trans hannotated
  | @shaped shape _ _ _ hshape hrendered =>
      cases hcompleted' with
      | annotated hannotated => cases hannotated
      | shaped _ hshape' hrendered' =>
          cases (halike.shape ▸ hshape).symm.trans hshape'
          by_cases hunion : ∃ members, shape = .union members
          · obtain ⟨members, rfl⟩ := hunion
            have hkind := (Shape.tells_ofNode hshape).union _ rfl
            cases hrendered with
            | union hsorts =>
                cases hrendered' with
                | union hsorts' =>
                    rw [halike.write_eq hkind hsorts d]
                    exact (union_matches hdepth hexempt hnode hkind habsent _ (hapart members hkind)
                      hsorts hsorts' hmade hmade' hmatch hd).mono (Nat.le_succ _)
          by_cases hproperties : ∃ properties, shape = .object properties
          · obtain ⟨properties, rfl⟩ := hproperties
            obtain ⟨parts, hcollects, rfl⟩ := hobject properties htype hshape
            obtain ⟨parts', hcollects', rfl⟩ := hobject' properties rfl hshape'
            have hparts := collects_alike hdepth hplain habsent hcollects hcollects' hmade hmade'
              hmatch ⟨.nil, rfl, fun _ => rfl⟩
            exact ((write_alike hexempt hparts (hlooks _)).matches hexempt).mono (Nat.le_succ _)
          · exact (rendered_alike hexempt (fun members heq => hunion ⟨members, heq⟩)
              (fun properties heq => hproperties ⟨properties, heq⟩) hrendered hrendered' hmatch
              (hlooks _)).matches hexempt

theorem exists_common {α : Type} {holds : Nat → α → Prop} (items : List α)
    (hmono : ∀ n n' a, n ≤ n' → holds n a → holds n' a) (h : ∀ a ∈ items, ∃ n, holds n a) :
    ∃ n, ∀ a ∈ items, holds n a := by
  induction items with
  | nil => exact ⟨0, fun a ha => absurd ha List.not_mem_nil⟩
  | cons a rest ih =>
      obtain ⟨⟨n, ha⟩, hrest⟩ := List.forall_mem_cons.1 h
      obtain ⟨n', hrest⟩ := ih hrest
      exact ⟨max n n', List.forall_mem_cons.2 ⟨hmono _ _ _ (Nat.le_max_left _ _) ha,
        fun b hb => hmono _ _ _ (Nat.le_max_right _ _) (hrest b hb)⟩⟩

theorem exists_depth (h : ∀ m ∈ made, ∀ m' ∈ made', Paired m m' →
      ∃ depth, Matches dialect definitions definitions' [] depth m.definition m'.definition) :
    ∃ depth, 1 ≤ depth ∧ AllMatch dialect definitions definitions' depth made made' := by
  have hinner (m : Described) (hm : m ∈ made) : ∃ depth, ∀ m' ∈ made', Paired m m' →
      Matches dialect definitions definitions' [] depth m.definition m'.definition := by
    refine exists_common made' (fun _ _ _ hle h hpaired => (h hpaired).mono hle) fun m' hm' => ?_
    by_cases hpaired : Paired m m'
    · obtain ⟨depth, hmatches⟩ := h m hm m' hm' hpaired
      exact ⟨depth, fun _ => hmatches⟩
    · exact ⟨0, fun h => absurd h hpaired⟩
  obtain ⟨depth, hdepth⟩ := exists_common made
    (fun _ _ _ hle h m' hm' hpaired => (h m' hm' hpaired).mono hle) hinner
  exact ⟨depth + 1, Nat.le_add_left _ _, fun m hm m' hm' hpaired =>
    (hdepth m hm m' hm' hpaired).mono (Nat.le_succ _)⟩

/-- A type stands in a place somewhere inside the root. -/
inductive Occurs (env : Environment) (root : TypeId) : TypeId → Context → Prop where
  | root : Occurs env root root (Context.standing false)
  | part {type ctx node made d refers m} (h : Occurs env root type ctx)
      (hnode : env.graph.typeNode type = .ok node) (hd : Completes env node ctx Dict.empty made d)
      (hmade : AllGiven env refers made) (hm : m ∈ made) : Occurs env root m.type m.ctx

/-- In each place where exactly one branch of a union must accept a value, the union tells its
members apart. -/
def UnionsTellApart (dialect : Dialect) (env : Environment) (root : TypeId) : Prop :=
  ∀ type ctx node members, Occurs env.withoutRefs root type ctx → ctx.unionKeyword = .oneOf →
    env.graph.typeNode type = .ok node → node.kind = .union members →
      TellsApart dialect env members

/-- A name that a type is referred to by leads to a definition of this type, stored for a place that
is alike. -/
def LeadsToType (env : Environment) (refers : String → TypeId → Context → Prop)
    (definitions : Entries String Json) : Prop :=
  ∀ name type ctx, refers name type ctx → ∃ ctx' entry,
    Entries.find? name definitions = some entry.toJson ∧
      StoredFrom env refers name type ctx' entry ∧
      ∀ node, env.graph.typeNode type = .ok node → ShapedAlike env node ctx' ctx

theorem matches_of_reference {name : String} {entry : Definition}
    (hfind : Entries.find? name definitions = some entry.toJson)
    (h : Matches dialect definitions definitions' exempt depth entry d') :
    Matches dialect definitions definitions' [] (depth + 1) (Definition.reference name) d' where
  agrees v := by
    obtain ⟨answer, hentry, hd'⟩ := h.agrees v
    exact ⟨answer, by rw [validate_reference hfind, hentry],
      validate_stays_from (Nat.le_succ _) hd'⟩
  bare _ tag hbare := absurd hbare (Definition.bareType_insert_of_ne _ (by decide) _ _)
  kept := ⟨rfl, h.kept.2⟩

theorem given_matches {root type : TypeId} (hplain : IsPlain env.graph) (habsent : SameAbsent env)
    (hunions : UnionsTellApart dialect env root) (hleads : LeadsToType env refers definitions)
    (h' : Given env.withoutRefs refers' type ctx' d') :
    Occurs env.withoutRefs root type ctx' → ∀ ctx d, ctx' = ctx.withoutRef →
      Given env refers type ctx d →
        ∃ depth, Matches dialect definitions definitions' [] depth d d' := by
  have hplain' : IsPlain env.withoutRefs.graph := hplain
  -- without references a description unfolds to its end, with them it may come back to a name
  induction h' with
  | referred _ _ hname =>
      rintro - ctx d rfl
      cases asRef_of_referenceOf hname
  | @inlined type ctx' node remarks made' d' hnode hremarks hname hmade' hd' ih =>
      rintro hoccurs ctx d rfl h
      cases remarks_plain hplain' hremarks
      have hd' : Completes env.withoutRefs node ctx.withoutRef Dict.empty made' d' := hd'
      have hdepth {made : List Described} (hmade : AllGiven env refers made) :
          ∃ depth, 1 ≤ depth ∧ AllMatch dialect definitions definitions' depth made made' :=
        exists_depth fun m hm m' hm' hpaired =>
          ih m' hm' (hoccurs.part hnode hd' hmade' hm') m.ctx m.definition hpaired.ctx
            (hpaired.type ▸ hmade m hm)
      have hapart (members : List TypeId) (hkind : node.kind = .union members)
          (hone : ctx.withoutRef.unionKeyword = .oneOf) : TellsApart dialect env members :=
        hunions type ctx.withoutRef node members hoccurs hone hnode hkind
      rcases h.plain hplain with ⟨-, node', made, hnode', hmade, hd⟩ | ⟨name, -, href, rfl⟩
      · cases hnode.symm.trans hnode'
        obtain ⟨depth, hone, hmatch⟩ := hdepth hmade
        have halike : ShapedAlike env node ctx ctx.withoutRef := ⟨rfl, fun _ _ _ => rfl⟩
        exact ⟨_, completes_matches hone (fun _ h => absurd h List.not_mem_nil) hplain habsent hnode
          halike hapart hd hd' hmade hmade' hmatch fun _ _ => rfl⟩
      · obtain ⟨ctx₀, entry, hfind, ⟨node', remarks, made, hnode', hremarks', hmade, hd⟩, halike⟩ :=
          hleads name type ctx href
        cases hnode.symm.trans hnode'
        cases remarks_plain hplain hremarks'
        obtain ⟨depth, hone, hmatch⟩ := hdepth hmade
        have halike : ShapedAlike env node ctx₀ ctx.withoutRef :=
          ⟨(halike node hnode).shape, (halike node hnode).keyword⟩
        have hexempt : Unread ["title"] := by
          unfold Unread
          decide
        refine ⟨_, matches_of_reference hfind (completes_matches hone hexempt hplain habsent hnode
          halike hapart hd hd' hmade hmade' hmatch fun key hkey => ?_)⟩
        rw [titled, Definition.find?_insertIf_of_ne _ _ (by simpa using hkey)]
        rfl

end Validation

end TypeSchema
