import TypeSchema.Proofs.Schema.Failures
import TypeSchema.Proofs.SymbolTable.Collected
import TypeSchema.Proofs.SymbolTable.Declared
import TypeSchema.Proofs.SymbolTable.Nesting

/-!
# Tables of closed graphs

In a closed graph without cyclic nesting the walk through the declarations comes to its end: what it
looks up is there, and it is never inside more declarations than there are.
-/

namespace TypeSchema.SymbolTable

open Relation (TransGen)

variable {g : Graph} {bad : Failure → Prop} {isLib : Bool} {table : SymbolTable}

/-! ## The walk -/

theorem update_avoids (f : SymbolTable → SymbolTable) :
    Run.Avoids (fun _ => True) bad (update f) :=
  .modify fun _ _ => trivial

theorem store_avoids (isLib : Bool) (name : String) (type : TypeId) :
    Run.Avoids (fun _ => True) bad (store isLib name type) := by
  have hread : Run.Avoids (fun _ => True) bad (get : Run Collected Collected) :=
    fun _ _ => ⟨trivial, .ok _⟩
  have huser : Run.Avoids (fun _ => True) bad (if !isLib then update fun t =>
      { t with user := t.user.insert name type } else pure ()) := by
    split
    · exact update_avoids _
    · exact .pure ()
  refine hread.bind fun c => (update_avoids _).bind fun _ => ?_
  dsimp only
  split
  · exact (Run.Avoids.modify fun _ _ => trivial).bind fun _ => huser
  · exact huser

section

variable (hread : g.Readable bad)

include hread

theorem register_avoids {d : Declaration} (hd : d ∈ g.declarations.values) :
    Run.Avoids (fun _ => True) bad (register g isLib d) := by
  unfold register
  split
  · exact .pure ()
  · rename_i id hid
    have hmentioned : id ∈ g.mentionedSymbols :=
      Graph.mem_mentionedSymbols_of_declaration hd (by simp [Declaration.symbols, hid])
    refine .ofExcept_bind (hread.symbols id hmentioned) fun symbol hsymbol => ?_
    split
    · exact .pure ()
    · rename_i type htype
      have hmentioned : type ∈ g.mentionedTypes :=
        Graph.mem_mentionedTypes_of_symbol (Graph.values_of_symbol hsymbol) htype
      refine (store_avoids _ _ _).bind fun _ =>
        .ofExcept_bind (hread.types type hmentioned) fun node hnode => ?_
      split
      · rename_i object hkind
        refine .forM fun base hbase => ?_
        have hmentioned : base ∈ g.mentionedTypes := by
          refine Graph.mem_mentionedTypes_of_type (List.mem_map_of_mem (Graph.mem_types hnode)) ?_
          rw [hkind]
          simp [TypeKind.types, ObjectType.types, hbase]
        exact .ofExcept_bind (hread.types base hmentioned) fun _ _ => update_avoids _
      · exact .pure ()

/-- The declarations that the walk is inside of when it comes to a declaration. -/
structure Above (g : Graph) (path : List DeclarationId) (id : DeclarationId) : Prop where
  declared : path ⊆ g.declarations.keys
  nodup : path.Nodup
  nested : ∀ parent ∈ path, TransGen g.HasChild parent id

omit hread in
theorem Above.child {path : List DeclarationId} {id child : DeclarationId} {d : Declaration}
    (h : Above g path id) (hacyclic : g.Acyclic) (hd : g.declarations.find? id = some d)
    (hchild : child ∈ d.children) : Above g (id :: path) child := by
  have hstep : g.HasChild id child := ⟨d, hd, hchild⟩
  refine ⟨List.cons_subset.2 ⟨Dict.mem_keys_iff.2 ⟨d, hd⟩, h.declared⟩,
    List.nodup_cons.2 ⟨fun hmem => hacyclic id (h.nested id hmem), h.nodup⟩, fun parent hmem => ?_⟩
  rcases List.mem_cons.1 hmem with rfl | hmem
  · exact .single hstep
  · exact (h.nested parent hmem).tail hstep

theorem inspect_avoids (hacyclic : g.Acyclic) {depth : Nat} {path : List DeclarationId}
    {id : DeclarationId} (hpath : Above g path id)
    (hdepth : g.declarations.size < path.length + depth) (hid : id ∈ g.mentionedDeclarations) :
    Run.Avoids (fun _ => True) bad (inspect g isLib depth id) := by
  induction depth generalizing path id with
  | zero =>
      -- The path and the depth together are longer than any path without repeats.
      have hle := Dict.length_le_size hpath.nodup hpath.declared
      omega
  | succ depth ih =>
      refine .ofExcept_bind (hread.declarations id hid) fun d hd => ?_
      have hfind := Graph.find?_of_declaration hd
      have hmem : d ∈ g.declarations.values := List.mem_map_of_mem (Dict.mem_entries_iff.2 hfind)
      split
      · exact register_avoids hread hmem
      · refine .forM fun child hchild => ih (hpath.child hacyclic hfind hchild) ?_
          (Graph.mem_mentionedDeclarations_of_parent hmem hchild)
        rw [List.length_cons]
        omega

theorem collect_avoids (hacyclic : g.Acyclic) : Avoids bad (collect g).1 := by
  have hwalk : Run.Avoids (fun _ => True) bad (g.modules.forM (inspectModule g)) := by
    refine .forM fun m hm => .forM fun id hid => ?_
    exact inspect_avoids hread hacyclic ⟨List.nil_subset _, .nil, nofun⟩ (by simp)
      (Graph.mem_mentionedDeclarations_of_module hm hid)
  have houtcome := (hwalk ⟨.empty, []⟩ trivial).2
  unfold collect
  generalize (g.modules.forM (inspectModule g)).on ⟨.empty, []⟩ = outcome at houtcome
  obtain ⟨result, c⟩ := outcome
  cases result with
  | error failure => exact .error (houtcome failure rfl)
  | ok _ => exact .ok _

end

/-- A closed graph without cyclic nesting has a table. -/
theorem collect_succeeds (hclosed : g.Closed) (hacyclic : g.Acyclic) :
    ∃ table, (collect g).1 = .ok table := by
  have havoids : Avoids (fun _ => True) (collect g).1 :=
    collect_avoids (hclosed.readable _) hacyclic
  cases hcollect : (collect g).1 with
  | ok table => exact ⟨table, rfl⟩
  | error failure => exact absurd trivial (havoids failure hcollect)

/-! ## What is in the table -/

theorem mentioned_of_collected (h : (collect g).1 = .ok table) {name : String} {type : TypeId}
    (hfind : table.all.find? name = some type) : type ∈ g.mentionedTypes := by
  obtain ⟨symbol, hsymbol, htype⟩ := namesSymbols h name type (.inl hfind)
  exact Graph.mem_mentionedTypes_of_symbol hsymbol htype

theorem user_mentioned_of_collected (h : (collect g).1 = .ok table) {name : String} {type : TypeId}
    (hfind : table.user.find? name = some type) : type ∈ g.mentionedTypes := by
  obtain ⟨symbol, hsymbol, htype⟩ := namesSymbols h name type (.inr hfind)
  exact Graph.mem_mentionedTypes_of_symbol hsymbol htype

/-- Every heir is the name of a type. -/
theorem heirs_named (h : (collect g).1 = .ok table) {base name : String}
    (hname : name ∈ table.heirs base) : name ∈ table.all.keys := by
  rw [collect_eq_ofDeclared h, heirs_ofDeclared] at hname
  obtain ⟨entry, hentry, hname⟩ := List.mem_flatMap.1 hname
  obtain ⟨-, rfl⟩ := List.mem_replicate.1 hname
  obtain ⟨last, hlast⟩ := exists_lastNamed hentry
  refine Dict.mem_keys_iff.2 ⟨last.type, ?_⟩
  rw [collect_eq_ofDeclared h, find?_all, hlast, Option.map_some]

end TypeSchema.SymbolTable
