import Mathlib.Data.List.Perm.Subperm
import TypeSchema.Proofs.Schema.Parallel
import TypeSchema.Proofs.Schema.Shapes
import TypeSchema.SymbolTable

/-!
# Nested declarations

The walk into a declaration goes to a limited depth.  Beyond the number of declarations the limit is
not seen: a walk that comes to an end at any depth comes to the same end there, and one that does
not is inside a declaration that is nested in itself.
-/

namespace TypeSchema

/-- Keys of a dictionary that all differ are no more than it has entries. -/
theorem Dict.length_le_size {κ α : Type} {d : Dict κ α} {keys : List κ} (hnodup : keys.Nodup)
    (hkeys : keys ⊆ d.keys) : keys.length ≤ d.size := by
  have hle := (List.subperm_of_subset hnodup hkeys).length_le
  rwa [Dict.keys, Entries.keys, List.length_map] at hle

namespace SymbolTable

variable {g : Graph} {isLib : Bool} {c : Collected} {depth depth' : Nat} {id : DeclarationId}

/-! ## Ends that the state does not decide -/

theorem store_on (isLib : Bool) (name : String) (type : TypeId) (c : Collected) :
    ∃ notices, (store isLib name type).on c = (.ok (), ⟨{ c.table with
      all := c.table.all.insert name type
      user := if isLib then c.table.user else c.table.user.insert name type }, notices⟩) := by
  unfold store
  rw [Run.on_bind, Run.on_get]
  dsimp only
  rw [Run.on_bind]
  cases (c.table.all.find? name).any (· ≠ type) <;> cases isLib <;> exact ⟨_, rfl⟩

/-- A run ends alike from all states. -/
abbrev Steady (run : Collecting Unit) : Prop := run.Parallel (fun _ _ => True) Eq run

theorem store_steady (isLib : Bool) (name : String) (type : TypeId) :
    Steady (store isLib name type) := by
  intro c c' _
  obtain ⟨_, h⟩ := store_on isLib name type c
  obtain ⟨_, h'⟩ := store_on isLib name type c'
  rw [h, h']
  exact .ok rfl trivial

theorem storeHeir_steady (g : Graph) (heir : String) (base : TypeId) :
    Steady (storeHeir g heir base) :=
  (Run.Parallel.ofExcept (.refl _)).bind fun _ _ _ => .modify fun _ _ _ => trivial

theorem forM_steady {α : Type} {act : α → Collecting Unit} (h : ∀ a, Steady (act a))
    (elements : List α) : Steady (elements.forM act) :=
  .forM (List.forall₂_same.2 fun _ _ => rfl) fun a _ heq => heq ▸ h a

theorem register_steady (g : Graph) (isLib : Bool) (d : Declaration) :
    Steady (register g isLib d) := by
  unfold register
  split
  · exact .pure rfl
  · refine (Run.Parallel.ofExcept (.refl _)).bind fun symbol _ hsymbol => ?_
    subst hsymbol
    split
    · exact .pure rfl
    · refine (store_steady _ _ _).bind fun _ _ _ =>
        (Run.Parallel.ofExcept (.refl _)).bind fun node _ hnode => ?_
      subst hnode
      split
      · exact forM_steady (storeHeir_steady g _) _
      · exact .pure rfl

theorem inspect_steady (g : Graph) (isLib : Bool) (depth : Nat) (id : DeclarationId) :
    Steady (inspect g isLib depth id) := by
  induction depth generalizing id with
  | zero => exact .throw rfl
  | succ depth ih =>
      refine (Run.Parallel.ofExcept (.refl _)).bind fun d _ hd => ?_
      subst hd
      split
      · exact register_steady g isLib d
      · exact forM_steady ih d.children

/-! ## Walks without an end -/

def Endless (outcome : Except Failure Unit) : Prop := ∃ id, outcome = .error (.endlessNesting id)

theorem Endless.of_parallel {outcome outcome' : Except Failure Unit} (h : Endless outcome)
    (hparallel : Parallel Eq outcome outcome') : Endless outcome' := by
  obtain ⟨id, rfl⟩ := h
  cases hparallel with
  | @error _ failure hvariant =>
      cases failure with
      | endlessNesting id => exact ⟨id, rfl⟩
      | _ => cases hvariant

/-- If the walk comes to an end at the one depth, it comes to the same end at the other. -/
abbrev Settles (g : Graph) (isLib : Bool) (depth depth' : Nat) (id : DeclarationId)
    (c : Collected) : Prop :=
  ¬ Endless ((inspect g isLib depth id).on c).1 →
    (inspect g isLib depth' id).on c = (inspect g isLib depth id).on c

theorem forM_settles {α : Type} {act act' : α → Collecting Unit} {elements : List α}
    (h : ∀ a ∈ elements, ∀ c, ¬ Endless ((act a).on c).1 → (act' a).on c = (act a).on c)
    (hend : ¬ Endless ((elements.forM act).on c).1) :
    (elements.forM act').on c = (elements.forM act).on c := by
  induction elements generalizing c with
  | nil => rfl
  | cons a rest ih =>
      obtain ⟨hfirst, hrest⟩ := List.forall_mem_cons.1 h
      simp only [List.forM_eq_forM, List.forM_cons, Run.on_bind] at hend ⊢
      have ha : ¬ Endless ((act a).on c).1 := by
        intro hendless
        obtain ⟨id, hendless⟩ := hendless
        generalize (act a).on c = final at hend hendless
        obtain ⟨result, middle⟩ := final
        cases hendless
        exact hend ⟨id, rfl⟩
      rw [hfirst c ha]
      generalize (act a).on c = final at hend
      obtain ⟨result, middle⟩ := final
      cases result with
      | error failure => rfl
      | ok _ => exact ih hrest hend

/-- The ends of the children decide that of the declaration. -/
theorem inspect_settles
    (h : ∀ d, g.declarations.find? id = some d →
      ∀ child ∈ d.children, ∀ c, Settles g isLib depth depth' child c) :
    Settles g isLib (depth + 1) (depth' + 1) id c := by
  intro hend
  simp only [inspect, Run.on_bind, Run.on_ofExcept] at hend ⊢
  cases hd : g.declaration id with
  | error failure => rfl
  | ok d =>
      simp only [hd] at hend ⊢
      split at hend
      · rename_i hnames
        rw [if_pos hnames, if_pos hnames]
      · rename_i hnames
        rw [if_neg hnames, if_neg hnames]
        exact forM_settles (h d (Graph.find?_of_declaration hd)) hend

theorem settles_succ (depth : Nat) (id : DeclarationId) (c : Collected) :
    Settles g isLib depth (depth + 1) id c := by
  induction depth generalizing id c with
  | zero => exact fun hend => absurd ⟨id.text, rfl⟩ hend
  | succ depth ih => exact inspect_settles fun _ _ child _ c => ih child c

theorem Endless.pred (h : Endless ((inspect g isLib (depth + 1) id).on c).1) :
    Endless ((inspect g isLib depth id).on c).1 := by
  by_contra hend
  rw [settles_succ depth id c hend] at h
  exact hend h

/-! ## Enough depth -/

/-- The declarations that the walk is inside of, which do not come to an end at the depth. -/
structure Open (g : Graph) (isLib : Bool) (depth : Nat) (path : List DeclarationId) : Prop where
  declared : path ⊆ g.declarations.keys
  nodup : path.Nodup
  endless : ∀ parent ∈ path, ∀ c, Endless ((inspect g isLib depth parent).on c).1

theorem Open.pred {path : List DeclarationId} (h : Open g isLib (depth + 1) path) :
    Open g isLib depth path :=
  ⟨h.declared, h.nodup, fun parent hparent c => (h.endless parent hparent c).pred⟩

theorem Open.cons {path : List DeclarationId} {d : Declaration} (h : Open g isLib (depth + 1) path)
    (hd : g.declarations.find? id = some d)
    (hend : ¬ Endless ((inspect g isLib (depth + 1) id).on c).1)
    (hendless : Endless ((inspect g isLib depth id).on c).1) : Open g isLib depth (id :: path) where
  declared := List.cons_subset.2 ⟨Dict.mem_keys_iff.2 ⟨d, hd⟩, h.declared⟩
  nodup := List.nodup_cons.2 ⟨fun hmem => hend (h.endless id hmem c), h.nodup⟩
  endless := List.forall_mem_cons.2 ⟨fun c' =>
    hendless.of_parallel (inspect_steady g isLib depth id c c' trivial).outcome, h.pred.endless⟩

/-- A declaration that comes to an end at some depth does so at any depth that leaves room for all
declarations that the walk is not inside of. -/
theorem Open.settles {path : List DeclarationId} (h : Open g isLib depth path)
    (hdepth : g.declarations.size < path.length + depth') (id : DeclarationId) (c : Collected) :
    Settles g isLib depth depth' id c := by
  induction depth generalizing path depth' id c with
  | zero => exact fun hend => absurd ⟨id.text, rfl⟩ hend
  | succ depth ih =>
      intro hend
      by_cases hendless : Endless ((inspect g isLib depth id).on c).1
      · -- It comes to an end at this depth, so it is none of those that the walk is inside of; it
        -- does not at the depth below, so that it is one of them for its children.
        obtain ⟨depth', rfl⟩ : ∃ rest, depth' = rest + 1 :=
          Nat.exists_eq_succ_of_ne_zero (by
            have hle := Dict.length_le_size h.nodup h.declared
            omega)
        refine inspect_settles (fun d hd child _ c' => ?_) hend
        refine ih (h.cons hd hend hendless) ?_ child c'
        rw [List.length_cons]
        omega
      · rw [settles_succ depth id c hendless]
        exact ih h.pred hdepth id c hendless

/-- Beyond the number of declarations all depths are alike. -/
theorem inspect_deep (g : Graph) (isLib : Bool) {depth depth' : Nat}
    (hdepth : g.declarations.size < depth) (hdepth' : g.declarations.size < depth')
    (id : DeclarationId) :
    Run.Parallel Eq Eq (inspect g isLib depth id) (inspect g isLib depth' id) := by
  have hsettles {depth depth' : Nat} (hdepth' : g.declarations.size < depth') (c : Collected) :
      Settles g isLib depth depth' id c :=
    have hopen : Open g isLib depth [] := ⟨List.nil_subset _, .nil, nofun⟩
    hopen.settles (by simpa using hdepth') id c
  rintro c _ rfl
  by_cases hend : Endless ((inspect g isLib depth id).on c).1
  · by_cases hend' : Endless ((inspect g isLib depth' id).on c).1
    · generalize (inspect g isLib depth id).on c = final at hend
      generalize (inspect g isLib depth' id).on c = final' at hend'
      obtain ⟨_, _⟩ := final
      obtain ⟨_, _⟩ := final'
      obtain ⟨_, rfl⟩ := hend
      obtain ⟨_, rfl⟩ := hend'
      exact .error rfl
    · rw [hsettles hdepth c hend'] at hend
      exact absurd hend hend'
  · rw [hsettles hdepth' c hend]
    exact .refl _

end SymbolTable

end TypeSchema
