import Mathlib.Data.List.Dedup
import TypeSchema.Proofs.References.Once
import TypeSchema.Proofs.Schema.Limit

/-!
# How deep descriptions nest

Every description of a type that is referred to takes one of finitely many names, and each of them
is taken once.  From one such type to the next, a chain of nested descriptions leads through types
that are inlined.  If such stretches are bounded, so is the chain: a name that is met again is
referred to, so types that have names may contain themselves.
-/

namespace TypeSchema.Schema

/-! ## Names and stretches -/

/-- The type is never referred to by its own name. -/
def isInlineOnly (g : Graph) (node : TypeNode) : Bool :=
  isAnonymous node ||
    match node.symbol with
    | some id => (g.symbols.find? id).any fun s => decide (s.name ∈ Shape.rawNames)
    | none => true

def InlineOnly (env : Environment) (type : TypeId) : Prop :=
  (env.graph.types.find? type).any (isInlineOnly env.graph) = true

instance (env : Environment) (type : TypeId) : Decidable (InlineOnly env type) :=
  inferInstanceAs (Decidable (_ = true))

/-- The name of the alias that is written in a declaration. -/
def aliasName (g : Graph) (declaration : Declaration) : Option String := do
  let id ← (writtenSymbol g (some declaration)).toOption.join
  let symbol ← g.symbols.find? id
  return QualifiedName.stripModulePath symbol.qualifiedName

def ownNames (g : Graph) : List String :=
  (g.types.values.filter fun node => !isInlineOnly g node).map fun node =>
    QualifiedName.stripModulePath node.name

/-- The names by which types can be referred to: their own, and those of aliases. -/
def referenceNames (g : Graph) : List String :=
  (ownNames g ++ g.declarations.values.filterMap (aliasName g)).dedup

/-- Types that are inlined, each a component of the one before it. -/
structure InlinePath (env : Environment) (path : List TypeId) : Prop where
  linked : path.IsChain fun type child => child ∈ components env type
  inlined : ∀ type ∈ path, InlineOnly env type

variable {env : Environment} {p : Progress} {type child : TypeId} {ctx : Context}
  {node : TypeNode} {symbol : Option Symbol} {name : String} {d : Definition}

/-- Every path that begins with the type has at most so many types. -/
def Spans (env : Environment) (type : TypeId) (bound : Nat) : Prop :=
  ∀ path, InlinePath env (type :: path) → path.length + 1 ≤ bound

theorem Spans.pos {bound : Nat} (h : Spans env type bound) (hinline : InlineOnly env type) :
    0 < bound :=
  h [] ⟨.singleton type, List.forall_mem_singleton.2 hinline⟩

theorem Spans.component {bound : Nat} (h : Spans env type (bound + 1))
    (hinline : InlineOnly env type) (hchild : child ∈ components env type) :
    Spans env child bound := by
  intro path hpath
  have hlonger := h (child :: path)
    ⟨.cons_cons hchild hpath.linked, List.forall_mem_cons.2 ⟨hinline, hpath.inlined⟩⟩
  exact Nat.le_of_succ_le_succ hlonger

/-- Paths are bounded by a rank that falls along them. -/
theorem InlinePath.length_le (rank : TypeId → Nat)
    (hrank : ∀ type ∈ env.graph.types.keys, InlineOnly env type →
      ∀ child ∈ components env type, InlineOnly env child → rank child < rank type)
    {path : List TypeId} (h : InlinePath env (type :: path)) : path.length ≤ rank type := by
  induction path generalizing type with
  | nil => exact Nat.zero_le _
  | cons child rest ih =>
      obtain ⟨hlinked, hinlined⟩ := h
      obtain ⟨hchild, hlinked⟩ := List.isChain_cons_cons.1 hlinked
      obtain ⟨htype, hinlined⟩ := List.forall_mem_cons.1 hinlined
      obtain ⟨node, hfind, -⟩ := (Option.any_eq_true _ _).1 htype
      have hfalls := hrank type (Dict.mem_keys_iff.2 ⟨node, hfind⟩) htype child hchild
        (hinlined child List.mem_cons_self)
      have hrest := ih ⟨hlinked, hinlined⟩
      rw [List.length_cons]
      omega

/-! ## Types and names -/

theorem isInlineOnly_eq (hsymbol : Shape.symbolOf env.graph node.symbol = .ok symbol) :
    isInlineOnly env.graph node = (isAnonymous node || isRaw symbol) := by
  unfold isInlineOnly
  cases hid : node.symbol with
  | none =>
      rw [hid] at hsymbol
      cases hsymbol
      rfl
  | some id =>
      rw [hid] at hsymbol
      cases hfind : env.graph.symbol id with
      | error failure =>
          rw [Shape.symbolOf, hfind] at hsymbol
          cases hsymbol
      | ok s =>
          rw [Shape.symbolOf, hfind] at hsymbol
          cases hsymbol
          dsimp only
          rw [Dict.mem_entries_iff.1 (Graph.mem_symbols hfind)]
          rfl

theorem inlineOnly_of_inlined (hasRef : ctx.asRef = true)
    (hnode : env.graph.typeNode type = .ok node)
    (hsymbol : Shape.symbolOf env.graph node.symbol = .ok symbol)
    (hname : referenceOf env type ctx = .ok none) : InlineOnly env type := by
  rw [referenceOf_eq hnode hsymbol] at hname
  unfold InlineOnly
  rw [Dict.mem_entries_iff.1 (Graph.mem_types hnode), Option.any_some, isInlineOnly_eq hsymbol]
  unfold referenceName at hname
  split at hname
  · rename_i halias
    split at hname
    · obtain ⟨written, -, hpure⟩ := outcome_bind_eq_ok.1 hname
      cases hpure
    · rename_i hnone
      simp [usesAlias, hnone] at halias
  · split at hname
    · cases hname
    · rename_i hunnamed
      cases hraw : isRaw symbol with
      | true => exact Bool.or_true _
      | false => simpa [hasRef, hraw] using hunnamed

/-- Inside other types, a type is referred to by one of the names of the graph. -/
theorem mem_referenceNames (hinside : Inside env type ctx)
    (h : referenceOf env type ctx = .ok (some name)) : name ∈ referenceNames env.graph := by
  refine List.mem_dedup.2 (List.mem_append.2 ?_)
  rcases namedByAlias_or_byOwn h with
    ⟨-, id, written, -, -, hreffed, hwritten, rfl⟩ |
    ⟨node, symbol, hnode, hsymbol, hraw, hanonymous, rfl⟩
  · right
    cases hinside with
    | part | mapValue => cases hreffed
    | @property _ declaration _ _ place =>
        obtain ⟨reffed, hreffed', rfl⟩ := place.isWritten
        obtain rfl : reffed = some id := hreffed
        cases declaration with
        | none => cases hreffed'
        | some declaration =>
            refine List.mem_filterMap.2 ⟨declaration, Graph.mem_declarations place.isDeclared, ?_⟩
            have hfind := Dict.mem_entries_iff.1 (Graph.mem_symbols hwritten)
            simp [aliasName, hreffed', Except.toOption, hfind]
  · left
    refine List.mem_map_of_mem (List.mem_filter.2
      ⟨List.mem_map_of_mem (Graph.mem_types hnode), ?_⟩)
    rw [isInlineOnly_eq hsymbol, hraw, hanonymous]
    rfl

/-! ## Names that are free -/

/-- The names of the graph that are not registered. -/
def freeNames (env : Environment) (p : Progress) : List String :=
  (referenceNames env.graph).filter fun name => decide (name ∉ p.registry.keys)

def FreeAtMost (env : Environment) (bound : Nat) (p : Progress) : Prop :=
  (freeNames env p).length ≤ bound

theorem FreeAtMost.of_registry {bound : Nat} {p' : Progress} (hregistry : p'.registry = p.registry)
    (h : FreeAtMost env bound p) : FreeAtMost env bound p' := by
  unfold FreeAtMost freeNames
  rwa [hregistry]

theorem freeNames_insert {p' : Progress} (hregistry : p'.registry = p.registry.insert name d) :
    freeNames env p' = (freeNames env p).filter (· ≠ name) := by
  unfold freeNames
  rw [List.filter_filter]
  refine List.filter_congr fun other _ => ?_
  rw [hregistry, Bool.eq_iff_iff]
  simp [Dict.mem_keys_insert]

theorem FreeAtMost.insert {bound : Nat} {p' : Progress} (h : FreeAtMost env bound p)
    (hregistry : p'.registry = p.registry.insert name d) : FreeAtMost env bound p' := by
  unfold FreeAtMost
  rw [freeNames_insert hregistry]
  exact Nat.le_trans (List.length_filter_le _ _) h

theorem FreeAtMost.reserve {bound : Nat} (h : FreeAtMost env bound p)
    (hmem : name ∈ referenceNames env.graph) (free : name ∉ p.registry.keys) (type : TypeId)
    (ctx : Context) :
    ∃ rest, bound = rest + 1 ∧ FreeAtMost env rest (p.reserve name type ctx) := by
  have hname : name ∈ freeNames env p := List.mem_filter.2 ⟨hmem, decide_eq_true free⟩
  have hfewer : (freeNames env (p.reserve name type ctx)).length < (freeNames env p).length := by
    rw [freeNames_insert rfl]
    exact List.length_filter_lt_length_iff_exists.2 ⟨name, hname, by simp⟩
  unfold FreeAtMost at h ⊢
  exact ⟨bound - 1, by omega, by omega⟩

/-! ## Descriptions -/

theorem FreeAtMost.mono {bound bound' : Nat} (h : FreeAtMost env bound p) (hle : bound ≤ bound') :
    FreeAtMost env bound' p :=
  Nat.le_trans h hle

/-- A type that is inlined is as deep as its components; a name that is taken for it is not free
for them. -/
theorem describeType_notTooDeep {describe : Describe} {bound : Nat}
    (hinlined : ∀ node symbol, env.graph.typeNode type = .ok node →
      Shape.symbolOf env.graph node.symbol = .ok symbol → referenceOf env type ctx = .ok none →
        ∀ {child ctx}, child ∈ components env type → Inside env child ctx →
          Run.NotTooDeep (FreeAtMost env bound) (describe child ctx))
    (hnew : ∀ name p, referenceOf env type ctx = .ok (some name) → FreeAtMost env bound p →
      name ∉ p.registry.keys → ∃ rest ≤ bound, FreeAtMost env rest (p.reserve name type ctx) ∧
        ∀ {child ctx}, child ∈ components env type → Inside env child ctx →
          Run.NotTooDeep (FreeAtMost env rest) (describe child ctx)) :
    Run.NotTooDeep (FreeAtMost env bound) (describeType env describe type ctx) := by
  refine .ofExcept_bind (env.graph.typeNode_notTooDeep type) fun node hnode =>
    .ofExcept_bind (Shape.symbolOf_notTooDeep env.graph _) fun symbol hsymbol =>
    .ofExcept_bind (referenceName_notTooDeep env node ctx symbol) fun name hname =>
    .ofExcept_bind (remarks_notTooDeep env node ctx) fun remarks _ => ?_
  rw [← referenceOf_eq hnode hsymbol] at hname
  cases name with
  | none =>
      exact (complete_notTooDeep .of_registry hnode (hinlined node symbol hnode hsymbol hname) ctx
        _).bind fun _ => .pure _
  | some name =>
      have hregister : Run.NotTooDeep (FreeAtMost env bound)
          (registerType env describe type node ctx name (remarks.onType false)) := by
        intro p hp
        have hregistered : (Describing.isRegistered name).on p =
            (.ok (p.registry.contains name), p) := rfl
        rw [registerType, Run.on_bind, hregistered]
        dsimp only
        split
        · exact ⟨hp, .ok ()⟩
        · rename_i htaken
          rw [Dict.contains_iff_mem_keys] at htaken
          obtain ⟨rest, hle, hrest, hchildren⟩ := hnew name p hname hp htaken
          have hrun : Run.NotTooDeep (FreeAtMost env rest)
              (complete env describe node ctx (titled env.settings name (remarks.onType false)) >>=
                Describing.fill name type) :=
            (complete_notTooDeep .of_registry hnode hchildren ctx _).bind fun _ =>
              .modify fun _ hp => hp.insert rfl
          obtain ⟨hkept, houtcome⟩ := hrun (p.reserve name type ctx) hrest
          exact ⟨hkept.mono hle, houtcome⟩
      refine hregister.bind fun _ => (Run.NotTooDeep.modify fun p hp => ?_).bind fun _ => .pure _
      exact hp.of_registry rfl

/-- Inside other types a description stays within the limit, if it is allowed to nest deeper than the
stretch that begins here and one stretch more for every name that is free. -/
theorem typeDefinition_notTooDeep (huse : env.settings.useRef = true) {u : Nat}
    (hpaths : ∀ path, InlinePath env path → path.length ≤ u) {span bound depth : Nat}
    (hinside : Inside env type ctx) (hspans : Spans env type span)
    (hdepth : span + bound * (u + 1) < depth) :
    Run.NotTooDeep (FreeAtMost env bound) (typeDefinition env depth type ctx) := by
  induction depth generalizing type ctx span bound with
  | zero => omega
  | succ depth ih =>
      refine describeType_notTooDeep ?_ ?_
      · intro node symbol hnode hsymbol hname child ctx' hchild hinside'
        have hinline := inlineOnly_of_inlined (hinside.asRef.trans huse) hnode hsymbol hname
        obtain ⟨shorter, rfl⟩ := Nat.exists_eq_add_one.2 (hspans.pos hinline)
        exact ih hinside' (hspans.component hinline hchild) (by omega)
      · intro name p hname hp free
        obtain ⟨rest, rfl, hrest⟩ := hp.reserve (mem_referenceNames hinside hname) free type ctx
        refine ⟨rest, Nat.le_succ rest, hrest, fun {child ctx'} _ hinside' => ?_⟩
        have hchild : Spans env child u := fun path hpath => hpaths _ hpath
        rw [Nat.succ_mul] at hdepth
        exact ih hinside' hchild (by omega)

theorem freeAtMost_initial {n : Nat} (hnames : (referenceNames env.graph).length ≤ n) :
    FreeAtMost env n .initial :=
  Nat.le_trans (List.length_filter_le _ _) hnames

/-- A type is described within the limit if the paths through types that are inlined are short and
the names by which types are referred to are few: cycles through such names do no harm. -/
theorem define_notTooDeep (huse : env.settings.useRef = true) {u n : Nat}
    (hpaths : ∀ path, InlinePath env path → path.length ≤ u)
    (hnames : (referenceNames env.graph).length ≤ n) (hbound : (n + 1) * (u + 1) < maxDepth)
    (type : TypeId) (ctx : Context) (name : String) :
    ((define env type ctx).on .initial).1 ≠ .error (.recursionLimit name) := by
  have hdepth : u + n * (u + 1) < 199 := by
    rw [Nat.succ_mul, maxDepth] at hbound
    omega
  have hcomponents {child : TypeId} {ctx' : Context} (hinside : Inside env child ctx') :
      Run.NotTooDeep (FreeAtMost env n) (typeDefinition env 199 child ctx') :=
    typeDefinition_notTooDeep huse hpaths hinside (fun _ hpath => hpaths _ hpath) hdepth
  -- the type at the top may go by a name that the graph does not know, so it is not counted on
  have hroot : Run.NotTooDeep (FreeAtMost env n)
      (describeType env (typeDefinition env 199) type ctx) :=
    describeType_notTooDeep (fun _ _ _ _ _ _ _ _ hinside => hcomponents hinside)
      fun name p _ hp _ => ⟨n, Nat.le_refl n, hp.insert rfl, fun _ hinside => hcomponents hinside⟩
  exact (hroot .initial (freeAtMost_initial hnames)).2 name

/-! ## A list that mentions itself -/

def linkedRank (type : TypeId) : Nat := if type = ⟨"Node | undefined"⟩ then 1 else 0

theorem length_le_linked {path : List TypeId} (h : InlinePath linkedEnvironment path) :
    path.length ≤ 2 := by
  cases path with
  | nil => exact Nat.zero_le 2
  | cons type rest =>
      have hrest := h.length_le linkedRank (by decide +kernel)
      have hrank : linkedRank type ≤ 1 := by
        unfold linkedRank
        split <;> omega
      rw [List.length_cons]
      omega

theorem define_notTooDeep_linked :
    (∀ path, InlinePath linkedEnvironment path → path.length ≤ 2) ∧
      (referenceNames linkedEnvironment.graph).length ≤ 2 ∧ (2 + 1) * (2 + 1) < maxDepth ∧
      ((define linkedEnvironment ⟨"Node"⟩ (Context.standing true)).on .initial).1 ≠
        .error (.recursionLimit "Node") := by
  have hnames : (referenceNames linkedEnvironment.graph).length ≤ 2 := by decide +kernel
  have hbound : (2 + 1) * (2 + 1) < maxDepth := by decide
  exact ⟨fun _ => length_le_linked, hnames, hbound,
    define_notTooDeep rfl (fun _ => length_le_linked) hnames hbound _ _ _⟩

end TypeSchema.Schema
