import TypeSchema.Proofs.Renaming.Graph
import TypeSchema.Proofs.SymbolTable.Nesting

/-!
# Tables of renamed graphs

The tables of two graphs that correspond hold the same names in the same order, for types that
correspond.  The graphs may have different numbers of declarations, so the walks are compared at a
depth that suffices for both.
-/

namespace TypeSchema

/-! ## Names for types -/

namespace Entries

variable {κ α α' : Type} {R : α → α' → Prop} {entries : Entries κ α} {entries' : Entries κ α'}

/-- The same keys in the same order, with values that correspond. -/
abbrev Alike (R : α → α' → Prop) (entries : Entries κ α) (entries' : Entries κ α') : Prop :=
  List.Forall₂ (fun entry entry' => entry.1 = entry'.1 ∧ R entry.2 entry'.2) entries entries'

variable [DecidableEq κ]

theorem Alike.insert (h : Alike R entries entries') {value : α} {value' : α'}
    (hvalue : R value value') (key : κ) :
    Alike R (insert key value entries) (insert key value' entries') := by
  induction h with
  | nil => exact .cons ⟨rfl, hvalue⟩ .nil
  | @cons entry entry' rest rest' hentry hrest ih =>
      obtain ⟨k, old⟩ := entry
      obtain ⟨k', old'⟩ := entry'
      obtain ⟨rfl, hold⟩ := hentry
      simp only [Entries.insert]
      split
      · exact .cons ⟨rfl, hvalue⟩ hrest
      · exact .cons ⟨rfl, hold⟩ ih

theorem Alike.find? (h : Alike R entries entries') (key : κ) :
    Option.Rel R (find? key entries) (find? key entries') := by
  induction h with
  | nil => exact .none
  | @cons entry entry' rest rest' hentry _ ih =>
      obtain ⟨k, old⟩ := entry
      obtain ⟨k', old'⟩ := entry'
      obtain ⟨rfl, hold⟩ := hentry
      simp only [Entries.find?]
      split
      · exact .some hold
      · exact ih

end Entries

structure SymbolTable.Renamed (r : Pairing) (t t' : SymbolTable) : Prop where
  all : t.all.entries.Alike r.types t'.all.entries
  user : t.user.entries.Alike r.types t'.user.entries
  inheriting : t.inheriting = t'.inheriting

namespace SymbolTable

variable {r : Pairing} {g g' : Graph} {isLib : Bool}

/-- Whatever was noticed on the way. -/
def TableRenamed (r : Pairing) (c c' : Collected) : Prop := c.table.Renamed r c'.table

/-! ## The walk -/

theorem Renamed.stored {t t' : SymbolTable} (h : t.Renamed r t') {type type' : TypeId}
    (htype : r.types type type') (isLib : Bool) (name : String) :
    Renamed r
      { t with
        all := t.all.insert name type
        user := if isLib then t.user else t.user.insert name type }
      { t' with
        all := t'.all.insert name type'
        user := if isLib then t'.user else t'.user.insert name type' } where
  all := h.all.insert htype name
  user := by
    cases isLib with
    | true => exact h.user
    | false => exact h.user.insert htype name
  inheriting := h.inheriting

theorem store_renamed {type type' : TypeId} (htype : r.types type type') (isLib : Bool)
    (name : String) :
    Run.Parallel (TableRenamed r) Eq (store isLib name type) (store isLib name type') := by
  intro c c' hc
  obtain ⟨_, h⟩ := store_on isLib name type c
  obtain ⟨_, h'⟩ := store_on isLib name type' c'
  rw [h, h']
  exact .ok rfl (Renamed.stored hc htype isLib name)

section

variable (h : g.Renamed r g')

include h

theorem storeHeir_renamed {base base' : TypeId} (hbase : r.types base base') (heir : String) :
    Run.Parallel (TableRenamed r) Eq (storeHeir g heir base) (storeHeir g' heir base') := by
  refine (Run.Parallel.ofExcept (h.typeNode hbase)).bind fun node node' hnode =>
    .modify fun c c' hc => ?_
  exact ⟨hc.all, hc.user, by simp only [hnode.name, hc.inheriting]⟩

theorem register_renamed {d d' : Declaration} (hd : d.Renamed r d') :
    Run.Parallel (TableRenamed r) Eq (register g isLib d) (register g' isLib d') := by
  have hsymbol := hd.symbol
  unfold register
  generalize d.symbol = symbol at hsymbol
  generalize d'.symbol = symbol' at hsymbol
  cases hsymbol with
  | none => exact .pure rfl
  | some hid =>
      refine (Run.Parallel.ofExcept (h.symbol hid)).bind fun s s' hs => ?_
      have htype := hs.type
      rw [hs.qualifiedName]
      generalize s.type = type at htype
      generalize s'.type = type' at htype
      cases htype with
      | none => exact .pure rfl
      | some htype =>
          refine (store_renamed htype _ _).bind fun _ _ _ =>
            (Run.Parallel.ofExcept (h.typeNode htype)).bind fun node node' hnode => ?_
          have hkind := hnode.kind
          generalize node.kind = kind at hkind
          generalize node'.kind = kind' at hkind
          cases hkind with
          | object hobject =>
              exact .forM hobject.baseTypes fun _ _ hbase => storeHeir_renamed h hbase _
          | union | intersection | tuple => exact .pure rfl
          | plain hplain =>
              cases kind with
              | object type => exact hplain.elim
              | _ => exact .pure rfl

theorem inspect_renamed (depth : Nat) {id id' : DeclarationId} (hid : r.declarations id id') :
    Run.Parallel (TableRenamed r) Eq (inspect g isLib depth id) (inspect g' isLib depth id') := by
  induction depth generalizing id id' with
  | zero => exact .throw rfl
  | succ depth ih =>
      refine (Run.Parallel.ofExcept (h.declaration hid)).bind fun d d' hd => ?_
      rw [hd.kind]
      split
      · exact register_renamed h hd
      · exact .forM hd.children fun _ _ hchild => ih hchild

theorem inspectModule_renamed {m m' : SourceModule} (hm : m.Renamed r m') :
    Run.Parallel (TableRenamed r) Eq (inspectModule g m) (inspectModule g' m') := by
  have hdepth : g.declarations.size < max g.declarations.size g'.declarations.size + 1 :=
    Nat.lt_succ_of_le (Nat.le_max_left _ _)
  have hdepth' : g'.declarations.size < max g.declarations.size g'.declarations.size + 1 :=
    Nat.lt_succ_of_le (Nat.le_max_right _ _)
  unfold inspectModule
  rw [hm.isDefaultLib]
  exact .forM hm.statements fun id id' hid => (inspect_renamed h _ hid).replace
    (inspect_deep g _ (Nat.lt_succ_self _) hdepth id)
    (inspect_deep g' _ (Nat.lt_succ_self _) hdepth' id')

/-- Graphs that correspond have tables that correspond, or else fail alike to have one. -/
theorem collect_renamed : Parallel (SymbolTable.Renamed r) (collect g).1 (collect g').1 := by
  have hwalk : Run.Parallel (TableRenamed r) Eq (g.modules.forM (inspectModule g))
      (g'.modules.forM (inspectModule g')) :=
    .forM h.modules fun _ _ hm => inspectModule_renamed h hm
  have hend := hwalk ⟨.empty, []⟩ ⟨.empty, []⟩ ⟨.nil, .nil, rfl⟩
  unfold collect
  generalize (g.modules.forM (inspectModule g)).on ⟨.empty, []⟩ = final at hend
  generalize (g'.modules.forM (inspectModule g')).on ⟨.empty, []⟩ = final' at hend
  cases hend with
  | ok _ htable => exact .ok htable
  | error hfailure => exact .error hfailure

end

end SymbolTable

end TypeSchema
