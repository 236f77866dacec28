import TypeSchema.Proofs.Schema.Steps
import TypeSchema.SymbolTable

/-!
# Collected tables

The walk through the declarations of a graph changes the table in three ways: a type is stored under
the name of its symbol, among all types and perhaps among those of the user, and the name of a
symbol is added to the heirs of a type.  What these changes preserve holds of every table that is
collected.
-/

namespace TypeSchema.SymbolTable

open Run (Moves)
open Relation (ReflTransGen)

variable {g : Graph} {P : SymbolTable → Prop} {table : SymbolTable}

/-- It holds of the empty table, and no change to a table ends it. -/
structure Preserved (g : Graph) (P : SymbolTable → Prop) : Prop where
  empty : P .empty
  stored {t : SymbolTable} {symbol : Symbol} {type : TypeId} (hsymbol : symbol ∈ g.symbols.values)
    (htype : symbol.type = some type) (h : P t) :
    P { t with all := t.all.insert (QualifiedName.stripModulePath symbol.qualifiedName) type }
  user {t : SymbolTable} {symbol : Symbol} {type : TypeId} (hsymbol : symbol ∈ g.symbols.values)
    (htype : symbol.type = some type) (h : P t) :
    P { t with user := t.user.insert (QualifiedName.stripModulePath symbol.qualifiedName) type }
  heir {t : SymbolTable} {symbol : Symbol} {base : TypeNode}
    (hsymbol : symbol ∈ g.symbols.values) (hbase : base ∈ g.types.values) (h : P t) :
    P { t with
      inheriting := addHeir (QualifiedName.stripModulePath base.name)
        (QualifiedName.stripModulePath symbol.qualifiedName) t.inheriting }

/-- A step of the walk, which the property of the table survives. -/
def Surviving (P : SymbolTable → Prop) (c c' : Collected) : Prop := P c.table → P c'.table

theorem surviving_steps {c c' : Collected} (h : ReflTransGen (Surviving P) c c')
    (hc : P c.table) : P c'.table := by
  induction h with
  | refl => exact hc
  | tail _ hstep ih => exact hstep ih

section

variable (hpreserved : Preserved g P)

include hpreserved

theorem store_moves (isLib : Bool) {symbol : Symbol} {type : TypeId}
    (hsymbol : symbol ∈ g.symbols.values) (htype : symbol.type = some type) :
    Moves (Surviving P)
      (store isLib (QualifiedName.stripModulePath symbol.qualifiedName) type) := by
  have hread : Moves (Surviving P) (get : Run Collected Collected) := fun _ => .refl
  have hnotice : Moves (Surviving P) (modify fun c =>
      { c with notices := c.notices ++
        [.redeclared (QualifiedName.stripModulePath symbol.qualifiedName)] }) :=
    .modify fun _ h => h
  have huser : Moves (Surviving P) (if !isLib then update fun t =>
      { t with user := t.user.insert (QualifiedName.stripModulePath symbol.qualifiedName) type }
      else pure ()) := by
    split
    · exact .modify fun _ => hpreserved.user hsymbol htype
    · exact .pure ()
  refine hread.bind fun c => Moves.bind (.modify fun _ => hpreserved.stored hsymbol htype)
    fun _ => ?_
  dsimp only
  split
  · exact hnotice.bind fun _ => huser
  · exact huser

theorem storeHeir_moves {symbol : Symbol} (hsymbol : symbol ∈ g.symbols.values) (base : TypeId) :
    Moves (Surviving P)
      (storeHeir g (QualifiedName.stripModulePath symbol.qualifiedName) base) := by
  refine .ofExcept_bind fun node hnode => .modify fun _ => ?_
  exact hpreserved.heir hsymbol (List.mem_map_of_mem (Graph.mem_types hnode))

theorem register_moves (isLib : Bool) (d : Declaration) :
    Moves (Surviving P) (register g isLib d) := by
  unfold register
  split
  · exact .pure ()
  · refine .ofExcept_bind fun symbol hsymbol => ?_
    have hmem : symbol ∈ g.symbols.values := List.mem_map_of_mem (Graph.mem_symbols hsymbol)
    split
    · exact .pure ()
    · rename_i type htype
      refine (store_moves hpreserved isLib hmem htype).bind fun _ => .ofExcept_bind fun node _ => ?_
      split
      · exact .forM fun base _ => storeHeir_moves hpreserved hmem base
      · exact .pure ()

theorem inspect_moves (isLib : Bool) (depth : Nat) (id : DeclarationId) :
    Moves (Surviving P) (inspect g isLib depth id) := by
  induction depth generalizing id with
  | zero => exact .throw _
  | succ depth ih =>
      refine .ofExcept_bind fun d _ => ?_
      split
      · exact register_moves hpreserved isLib d
      · exact .forM fun child _ => ih child

/-- What no change ends holds of the table of a graph. -/
theorem Preserved.collected (h : (collect g).1 = .ok table) : P table := by
  have hmoves : Moves (Surviving P) (g.modules.forM (inspectModule g)) :=
    .forM fun m _ => .forM fun id _ => inspect_moves hpreserved m.isDefaultLib _ id
  have hend := surviving_steps (hmoves ⟨.empty, []⟩) hpreserved.empty
  unfold collect at h
  generalize (g.modules.forM (inspectModule g)).on ⟨.empty, []⟩ = outcome at h hend
  obtain ⟨result, c⟩ := outcome
  cases result with
  | error failure => cases h
  | ok _ =>
      cases h
      exact hend

end

/-! ## Heirs and types -/

/-- A type that has heirs at all has one. -/
theorem heirs_ne_nil (h : (collect g).1 = .ok table) {base : String} {heirs : List String}
    (hfind : table.inheriting.find? base = some heirs) : heirs ≠ [] := by
  have hpreserved : Preserved g fun t =>
      ∀ base heirs, t.inheriting.find? base = some heirs → heirs ≠ [] := by
    refine ⟨fun _ _ hnone => ?_, fun _ _ h => h, fun _ _ h => h, fun _ _ h base heirs hheirs => ?_⟩
    · cases hnone
    · rw [addHeir, Dict.find?_insert] at hheirs
      split at hheirs
      · cases hheirs
        exact List.append_ne_nil_of_right_ne_nil _ (List.cons_ne_nil _ _)
      · exact h base heirs hheirs
  exact hpreserved.collected h base heirs hfind

/-- The types that have names are those of symbols. -/
def NamesSymbols (g : Graph) (t : SymbolTable) : Prop :=
  ∀ name type, t.all.find? name = some type ∨ t.user.find? name = some type →
    ∃ symbol ∈ g.symbols.values, symbol.type = some type

theorem namesSymbols (h : (collect g).1 = .ok table) : NamesSymbols g table := by
  have hpreserved : Preserved g (NamesSymbols g) := by
    refine ⟨fun name type hnone => ?_, fun hsymbol htype h name other hother => ?_,
      fun hsymbol htype h name other hother => ?_, fun _ _ h => h⟩
    · rcases hnone with hnone | hnone <;> cases hnone
    · rw [Dict.find?_insert] at hother
      split at hother
      · rcases hother with heq | huser
        · cases heq
          exact ⟨_, hsymbol, htype⟩
        · exact h name other (.inr huser)
      · exact h name other hother
    · rw [Dict.find?_insert] at hother
      split at hother
      · rcases hother with hall | heq
        · exact h name other (.inl hall)
        · cases heq
          exact ⟨_, hsymbol, htype⟩
      · exact h name other hother
  exact hpreserved.collected h

end TypeSchema.SymbolTable
