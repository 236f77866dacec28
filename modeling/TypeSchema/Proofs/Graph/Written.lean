import TypeSchema.Proofs.Json.Decoding

/-!
# Graphs that are written

What a graph is written as is decoded to the graph, with the same order of entries, if a text can
say all that the graph holds: its values nest no deeper than the containers around them allow, and
its integers are small enough.
-/

namespace TypeSchema

open Decoder Graph.Format
open Json (ofOption ofList)

/-! ## What texts can say -/

/-- How deep values may nest as constants of enum members: the containers around them are the graph,
its declarations, a declaration, its members and a member. -/
def constantRoom : Nat := 122

/-- How deep values may nest as literals of types: in the graph, its types and a type. -/
def literalRoom : Nat := 124

def EnumMember.IsStorable (m : EnumMember) : Prop :=
  ∀ v ∈ m.constantValue, v.FitsIn constantRoom ∧ v ≠ .null

def Declaration.IsStorable (d : Declaration) : Prop := ∀ m ∈ d.enumMembers, m.IsStorable

def TypeKind.IsStorable : TypeKind → Prop
  | .enumLiteral v => v.FitsIn literalRoom
  | _ => True

def Diagnostic.IsStorable (d : Diagnostic) : Prop := d.line < Nat.pow 2 32 ∧ d.column < Nat.pow 2 32

/-- A text can say all that the graph holds. -/
structure Graph.IsStorable (g : Graph) : Prop where
  declarations : ∀ entry ∈ g.declarations.entries, entry.2.IsStorable
  types : ∀ entry ∈ g.types.entries, entry.2.kind.IsStorable
  diagnostics : ∀ d ∈ g.diagnostics, d.IsStorable

variable {room : Nat}

/-! ## Declarations -/

theorem DeclarationKind.reads (kind : DeclarationKind) :
    Reads (variant declarationKinds) room (.str kind.text) kind :=
  .variant (by cases kind <;> rfl)

theorem InitializerKind.reads (kind : InitializerKind) :
    Reads (variant initializerKinds) room (.str kind.text) kind :=
  .variant (by cases kind <;> rfl)

theorem TypeId.reads (id : TypeId) : Reads TypeId.decode room id.toJson id := rfl

theorem SymbolId.reads (id : SymbolId) : Reads SymbolId.decode room id.toJson id := rfl

theorem DeclarationId.reads (id : DeclarationId) : Reads DeclarationId.decode room id.toJson id :=
  rfl

theorem Initializer.reads (i : Initializer) :
    Reads initializerForm.decode (room + 1) i.toJson i :=
  ReadsFields.record (.cons rfl (.cons i.kind.reads (.nil _))) (by decide)

theorem EnumMember.reads {m : EnumMember}
    (h : ∀ v ∈ m.constantValue, v.FitsIn (room + 1) ∧ v ≠ .null) :
    Reads enumMemberForm.decode (room + 2) m.toJson m :=
  ReadsFields.record
    (.cons rfl
      (.cons (.option fun v hv => ⟨.json (h v hv).1, (h v hv).2⟩)
        (.cons (.option fun i _ => ⟨i.reads, nofun⟩) (.nil _))))
    (by decide)

/-- What an object holds beside its kind, kept as plain values while the kind is not known. -/
def IsPayload (room : Nat) (fields : List (String × Json)) : Prop :=
  ∀ field ∈ fields, field.1 ≠ "kind" ∧ field.2.FitsIn room

theorem IsPayload.nil : IsPayload room [] := List.forall_mem_nil _

theorem IsPayload.cons {name : String} {v : Json} {fields : List (String × Json)}
    (hname : name ≠ "kind") (hv : v.FitsIn room) (h : IsPayload room fields) :
    IsPayload room ((name, v) :: fields) :=
  List.forall_mem_cons.2 ⟨⟨hname, hv⟩, h⟩

theorem splitKind_payload {α : Type} {decode : Decoder α} {fields kept : List (String × Json)}
    (h : IsPayload room fields) (kind : α) :
    splitKind decode room (Draft.ofFields fields) none (some kind) kept =
      .ok (kind, kept.reverse ++ fields) := by
  induction fields generalizing kept with
  | nil =>
    rw [List.append_nil]
    rfl
  | cons field fields ih =>
    obtain ⟨⟨hname, hfits⟩, hfields⟩ := List.forall_mem_cons.1 h
    have hrest := @ih (field :: kept) hfields
    rw [List.reverse_cons, List.append_assoc] at hrest
    rw [Draft.ofFields, splitKind]
    simp only [outcome_bind_eq_ok]
    refine ⟨field.1, rfl, ?_⟩
    rw [if_neg hname]
    simp only [outcome_bind_eq_ok]
    exact ⟨field.2, Reads.json hfits, hrest⟩

theorem splitKind_first {α : Type} {decode : Decoder α} {fields : List (String × Json)} {v : Json}
    {kind : α} (hkind : Reads decode room v kind) (h : IsPayload room fields) :
    splitKind decode room (Draft.ofFields (("kind", v) :: fields)) none none [] =
      .ok (kind, fields) := by
  rw [Draft.ofFields, splitKind]
  simp only [outcome_bind_eq_ok]
  refine ⟨"kind", rfl, ?_⟩
  rw [if_pos rfl, if_neg (show ¬ (none : Option α).isSome = true from Bool.false_ne_true)]
  simp only [outcome_bind_eq_ok, within_eq_ok]
  exact ⟨kind, hkind, splitKind_payload h kind⟩

theorem fitsIn_ofOption {α : Type} {write : α → Json} (h : ∀ a, (write a).FitsIn room)
    (value : Option α) : (ofOption write value).FitsIn room := by
  cases value with
  | none => exact .null
  | some a => exact h a

theorem fitsIn_ofList {α : Type} {write : α → Json} (h : ∀ a, (write a).FitsIn room)
    (values : List α) : (ofList write values).FitsIn (room + 1) :=
  .arr (List.forall_mem_map.2 fun a _ => h a)

theorem Member.reads (m : Member) : Reads member (room + 2) m.toJson m := by
  have hmember {kind : String} {fields : List (String × Json)}
      {build : Payload → Except Problem Member}
      (hfind : Entries.find? kind memberKinds = some build) (hpayload : IsPayload (room + 1) fields)
      (hbuild : build (.fields fields) = .ok m) :
      Reads member (room + 2) (.obj (("kind", .str kind) :: fields)) m := by
    unfold Reads
    rw [Draft.ofJson, member]
    simp only [outcome_bind_eq_ok]
    exact ⟨_, splitKind_first (.name hfind) hpayload, hbuild⟩
  cases m with
  | property symbol =>
    refine hmember rfl (.cons (by decide) (.str _) .nil) ?_
    rw [memberSymbol, Reads.required symbol.reads]
    rfl
  | method symbol =>
    refine hmember rfl (.cons (by decide) (.str _) .nil) ?_
    rw [memberSymbol, Reads.required symbol.reads]
    rfl
  | indexSignature parameters value =>
    refine hmember rfl (.cons (by decide) (fitsIn_ofList (fun _ => .str _) _)
      (.cons (by decide) (.str _) .nil)) ?_
    have hparts : ofEntries signatureForm
        [("parameters", ofList TypeId.toJson parameters), ("type", value.toJson)] =
          .ok (parameters, some value) :=
      ReadsFields.ofEntries (.cons (.list fun id _ => id.reads) (.cons value.reads (.nil _)))
        (by decide)
    simp only [memberSignature, hparts]
    rfl

theorem Declaration.reads {d : Declaration}
    (h : ∀ m ∈ d.enumMembers, ∀ v ∈ m.constantValue, v.FitsIn (room + 1) ∧ v ≠ .null) :
    Reads declarationForm.decode (room + 4) d.toJson d :=
  ReadsFields.record
    (.cons d.kind.reads
      (.cons (.option fun id _ => ⟨id.reads, nofun⟩)
        (.cons rfl
          (.cons (.list fun m _ => m.reads)
            (.cons (.list fun id _ => id.reads)
              (.cons (.list fun m hm => EnumMember.reads (h m hm))
                (.cons (.option fun i _ => ⟨i.reads, nofun⟩)
                  (.cons (.option fun id _ => ⟨id.reads, nofun⟩) (.nil _)))))))))
    (by decide)

/-! ## Symbols -/

theorem DocTag.reads (t : DocTag) : Reads docTagForm.decode (room + 1) t.toJson t :=
  ReadsFields.record (.cons rfl (.cons (.option fun _ _ => ⟨rfl, nofun⟩) (.nil _))) (by decide)

theorem Symbol.reads (s : Symbol) : Reads symbolForm.decode (room + 3) s.toJson s :=
  ReadsFields.record
    (.cons rfl (.cons rfl (.cons rfl (.cons rfl (.cons rfl (.cons rfl
      (.cons (.option fun id _ => ⟨id.reads, nofun⟩)
        (.cons (.list fun id _ => id.reads)
          (.cons (.option fun id _ => ⟨id.reads, nofun⟩)
            (.cons (.list fun _ _ => rfl)
              (.cons (.list fun t _ => t.reads) (.nil _))))))))))))
    (by decide)

/-! ## Types -/

theorem ObjectType.reads (t : ObjectType) : ofEntries objectForm t.fields = .ok t :=
  ReadsFields.ofEntries
    (.cons rfl
      (.cons (.list fun id _ => id.reads)
        (.cons (.list fun id _ => id.reads)
          (.cons (.list fun id _ => id.reads)
            (.cons (.option fun id _ => ⟨id.reads, nofun⟩)
              (.cons (.option fun id _ => ⟨id.reads, nofun⟩) (.nil _)))))))
    (by decide)

theorem ObjectType.isPayload (t : ObjectType) : IsPayload (room + 1) t.fields := by
  have hsymbols : (ofList SymbolId.toJson t.properties).FitsIn (room + 1) :=
    fitsIn_ofList (fun _ => .str _) _
  have htypes (ids : List TypeId) : (ofList TypeId.toJson ids).FitsIn (room + 1) :=
    fitsIn_ofList (fun _ => .str _) _
  have hindex (index : Option TypeId) : (ofOption TypeId.toJson index).FitsIn (room + 1) :=
    fitsIn_ofOption (fun _ => .str _) _
  exact .cons (by decide) (.bool _) (.cons (by decide) hsymbols (.cons (by decide) (htypes _)
    (.cons (by decide) (htypes _) (.cons (by decide) (hindex _)
      (.cons (by decide) (hindex _) .nil)))))

theorem TypeKind.isPayload {kind : TypeKind} (h : kind.IsStorable) :
    IsPayload literalRoom kind.fields := by
  have htypes (ids : List TypeId) : (ofList TypeId.toJson ids).FitsIn literalRoom :=
    fitsIn_ofList (fun _ => .str _) _
  cases kind with
  | stringLiteral value => exact .cons (by decide) (.str _) .nil
  | numberLiteral value => exact .cons (by decide) (.num rfl) .nil
  | booleanLiteral value => exact .cons (by decide) (.bool _) .nil
  | enumLiteral value => exact .cons (by decide) h .nil
  | union members => exact .cons (by decide) (htypes _) .nil
  | intersection members => exact .cons (by decide) (htypes _) .nil
  | tuple elements => exact .cons (by decide) (htypes _) .nil
  | object type => exact type.isPayload
  | _ => exact .nil

/-- What builds a type from its fields is found by the name of its kind. -/
theorem TypeKind.reads {kind : TypeKind} (h : kind.IsStorable) :
    ∃ build, Entries.find? kind.text typeKinds = some build ∧ build kind.fields = .ok kind := by
  have htypes (ids : List TypeId) :
      Reads (list TypeId.decode) Draft.maxDepth (ofList TypeId.toJson ids) ids :=
    .list fun id _ => id.reads
  cases kind with
  | stringLiteral value => exact ⟨_, rfl, rfl⟩
  | numberLiteral value => exact ⟨_, rfl, rfl⟩
  | booleanLiteral value => exact ⟨_, rfl, rfl⟩
  | enumLiteral value =>
    have hvalue : Reads json Draft.maxDepth value value := .json (h.mono (by decide))
    exact ⟨_, rfl, outcome_map_eq_ok.2 ⟨value, Reads.required hvalue, rfl⟩⟩
  | union members =>
    exact ⟨_, rfl, outcome_map_eq_ok.2 ⟨members, Reads.required (htypes members), rfl⟩⟩
  | intersection members =>
    exact ⟨_, rfl, outcome_map_eq_ok.2 ⟨members, Reads.required (htypes members), rfl⟩⟩
  | tuple elements =>
    exact ⟨_, rfl, outcome_map_eq_ok.2 ⟨elements, Reads.required (htypes elements), rfl⟩⟩
  | object type => exact ⟨_, rfl, outcome_map_eq_ok.2 ⟨type, type.reads, rfl⟩⟩
  | _ => exact ⟨_, rfl, rfl⟩

theorem TypeKind.fields_ne (kind : TypeKind) :
    ∀ field ∈ kind.fields, field.1 ≠ "name" ∧ field.1 ≠ "symbol" := by
  cases kind <;> simp [TypeKind.fields, ObjectType.fields]

theorem typeParts_rest {fields : List (String × Json)} {parts : TypeParts}
    (hnames : ∀ field ∈ fields, field.1 ≠ "name" ∧ field.1 ≠ "symbol")
    (hfits : ∀ field ∈ fields, field.2.FitsIn room) :
    typeParts room (Draft.ofFields fields) none parts =
      .ok { parts with rest := parts.rest.reverse ++ fields } := by
  induction fields generalizing parts with
  | nil =>
    rw [List.append_nil]
    rfl
  | cons field fields ih =>
    obtain ⟨⟨hname, hsymbol⟩, hnames⟩ := List.forall_mem_cons.1 hnames
    obtain ⟨hfit, hfits⟩ := List.forall_mem_cons.1 hfits
    have hrest := @ih { parts with rest := field :: parts.rest } hnames hfits
    rw [List.reverse_cons, List.append_assoc] at hrest
    rw [Draft.ofFields, typeParts]
    simp only [outcome_bind_eq_ok]
    refine ⟨field.1, rfl, ?_⟩
    rw [if_neg hname, if_neg hsymbol]
    simp only [outcome_bind_eq_ok]
    exact ⟨field.2, Reads.json hfit, hrest⟩

theorem typeParts_fields {name : String} {symbol : Option SymbolId}
    {fields : List (String × Json)}
    (hnames : ∀ field ∈ fields, field.1 ≠ "name" ∧ field.1 ≠ "symbol")
    (hfits : ∀ field ∈ fields, field.2.FitsIn room) :
    typeParts room (Draft.ofFields
        (("name", .str name) :: ("symbol", ofOption SymbolId.toJson symbol) :: fields)) none
        ⟨none, none, []⟩ =
      .ok ⟨some name, some symbol, fields⟩ := by
  have hsymbol : Reads (optional SymbolId.decode) room (ofOption SymbolId.toJson symbol) symbol :=
    .option fun id _ => ⟨id.reads, nofun⟩
  have hrest := @typeParts_rest _ _ ⟨some name, some symbol, []⟩ hnames hfits
  rw [Draft.ofFields, typeParts]
  simp only [outcome_bind_eq_ok]
  refine ⟨"name", rfl, ?_⟩
  rw [if_pos rfl, if_neg (show ¬ (none : Option String).isSome = true from Bool.false_ne_true)]
  simp only [outcome_bind_eq_ok, within_eq_ok]
  refine ⟨name, rfl, ?_⟩
  rw [Draft.ofFields, typeParts]
  simp only [outcome_bind_eq_ok]
  refine ⟨"symbol", rfl, ?_⟩
  rw [if_neg (by decide), if_pos rfl,
    if_neg (show ¬ (none : Option (Option SymbolId)).isSome = true from Bool.false_ne_true)]
  simp only [outcome_bind_eq_ok, within_eq_ok]
  exact ⟨symbol, hsymbol, hrest⟩

theorem TypeNode.reads {node : TypeNode} (h : node.kind.IsStorable) :
    Reads typeNode (literalRoom + 1) node.toJson node := by
  obtain ⟨build, hfind, hbuild⟩ := TypeKind.reads h
  have hpayload := TypeKind.isPayload h
  have hname : Reads (nameOrPlace typeKinds) Draft.maxDepth (.str node.kind.text) build := by
    change alternative typeKinds node.kind.text = _
    rw [alternative, hfind]
  have hparts := @typeParts_fields literalRoom node.name node.symbol
    (("kind", .str node.kind.text) :: node.kind.fields)
    (List.forall_mem_cons.2
      ⟨show "kind" ≠ "name" ∧ "kind" ≠ "symbol" by decide, node.kind.fields_ne⟩)
    (List.forall_mem_cons.2 ⟨.str _, fun field hfield => (hpayload field hfield).2⟩)
  have hsplit := splitKind_first hname fun field hfield =>
    ⟨(hpayload field hfield).1, (hpayload field hfield).2.mono (by decide)⟩
  unfold Reads
  rw [TypeNode.toJson, Draft.ofJson, typeNode]
  simp only [outcome_bind_eq_ok, here_eq_ok]
  exact ⟨_, hparts, _, hsplit, node.kind, hbuild, rfl⟩

/-! ## Graphs -/

theorem SourceModule.reads (m : SourceModule) :
    Reads moduleForm.decode (room + 2) m.toJson m :=
  ReadsFields.record
    (.cons rfl (.cons rfl (.cons (.list fun id _ => id.reads) (.nil _)))) (by decide)

theorem Diagnostic.reads {d : Diagnostic} (h : d.IsStorable) :
    Reads diagnosticForm.decode (room + 1) d.toJson d :=
  ReadsFields.record (.cons rfl (.cons (.nat32 h.1) (.cons (.nat32 h.2) (.cons rfl (.nil _)))))
    (by decide)

theorem checker_reads (strict : Bool) :
    Reads checkerForm.decode (room + 1) (.obj [("strictNullChecks", .bool strict)]) strict :=
  ReadsFields.record (.cons rfl (.nil _)) (by decide)

theorem Graph.IsStorable.reads {g : Graph} (h : g.IsStorable) :
    Reads Graph.decode Draft.maxDepth g.toJson g := by
  have hdeclarations : ∀ entry ∈ g.declarations.entries,
      Reads declarationForm.decode 125 entry.2.toJson entry.2 :=
    fun entry hentry => Declaration.reads (h.declarations entry hentry)
  have htypes : ∀ entry ∈ g.types.entries, Reads Format.typeNode 125 entry.2.toJson entry.2 :=
    fun entry hentry => TypeNode.reads (h.types entry hentry)
  exact ReadsFields.record
    (.cons (.list fun m _ => m.reads)
      (.cons (.dict (fun _ => rfl) hdeclarations)
        (.cons (.dict (fun _ => rfl) fun entry _ => entry.2.reads)
          (.cons (.dict (fun _ => rfl) htypes)
            (.cons (.list fun d hd => Diagnostic.reads (h.diagnostics d hd))
              (.cons (checker_reads _) (.nil _)))))))
    (by decide)

/-! ## Numbers of graphs -/

section

variable {α κ : Type} {write : α → Json}

@[simp] theorem numbersHeld_ofOption {value : Option α} :
    (ofOption write value).NumbersHeld ↔ ∀ a ∈ value, (write a).NumbersHeld := by
  cases value <;> simp [ofOption]

@[simp] theorem numbersHeld_ofList {values : List α} :
    (ofList write values).NumbersHeld ↔ ∀ a ∈ values, (write a).NumbersHeld := by
  rw [ofList, Json.numbersHeld_arr, List.forall_mem_map]

@[simp] theorem numbersHeld_ofEntries {key : κ → String} {d : Dict κ α} :
    (Json.ofEntries key write d).NumbersHeld ↔
      ∀ entry ∈ d.entries, (write entry.2).NumbersHeld := by
  rw [Json.ofEntries, Json.numbersHeld_obj, List.forall_mem_map]

end

@[simp] theorem TypeId.numbersHeld (id : TypeId) : id.toJson.NumbersHeld :=
  Json.numbersHeld_str id.text

@[simp] theorem SymbolId.numbersHeld (id : SymbolId) : id.toJson.NumbersHeld :=
  Json.numbersHeld_str id.text

@[simp] theorem DeclarationId.numbersHeld (id : DeclarationId) : id.toJson.NumbersHeld :=
  Json.numbersHeld_str id.text

@[simp] theorem Initializer.numbersHeld (i : Initializer) : i.toJson.NumbersHeld := by
  simp [Initializer.toJson]

@[simp] theorem Member.numbersHeld (m : Member) : m.toJson.NumbersHeld := by
  cases m <;> simp [Member.toJson]

@[simp] theorem DocTag.numbersHeld (t : DocTag) : t.toJson.NumbersHeld := by
  simp [DocTag.toJson]

theorem EnumMember.numbersHeld {m : EnumMember} (h : m.IsStorable) : m.toJson.NumbersHeld := by
  have hvalue : ∀ v ∈ m.constantValue, v.NumbersHeld := fun v hv => (h v hv).1.numbers
  simpa [EnumMember.toJson] using hvalue

theorem Declaration.numbersHeld {d : Declaration} (h : d.IsStorable) : d.toJson.NumbersHeld := by
  have hmembers : ∀ m ∈ d.enumMembers, m.toJson.NumbersHeld := fun m hm =>
    EnumMember.numbersHeld (h m hm)
  simpa [Declaration.toJson] using hmembers

theorem Symbol.numbersHeld (s : Symbol) : s.toJson.NumbersHeld := by
  simp [Symbol.toJson, Json.strs]

theorem TypeNode.numbersHeld {node : TypeNode} (h : node.kind.IsStorable) :
    node.toJson.NumbersHeld := by
  have hfields : ∀ field ∈ node.kind.fields, field.2.NumbersHeld := fun field hfield =>
    (TypeKind.isPayload h field hfield).2.numbers
  rw [TypeNode.toJson, Json.numbersHeld_obj, List.forall_mem_append]
  exact ⟨by simp, hfields⟩

theorem numbersHeld_nat {n : Nat} (h : n < Nat.pow 2 32) : (Json.nat n).NumbersHeld := by
  have hwords : Nat.pow 2 32 ≤ Nat.pow 2 64 := by decide
  refine Json.numbersHeld_num.2 ?_
  simp only [Number.isHeld, Bool.and_eq_true, decide_eq_true_eq]
  omega

theorem Diagnostic.numbersHeld {d : Diagnostic} (h : d.IsStorable) : d.toJson.NumbersHeld := by
  simpa [Diagnostic.toJson] using ⟨numbersHeld_nat h.1, numbersHeld_nat h.2⟩

theorem SourceModule.numbersHeld (m : SourceModule) : m.toJson.NumbersHeld := by
  simp [SourceModule.toJson]

theorem Graph.IsStorable.numbersHeld {g : Graph} (h : g.IsStorable) : g.toJson.NumbersHeld := by
  simp only [Graph.toJson, Json.numbersHeld_obj, List.forall_mem_cons, numbersHeld_ofList,
    numbersHeld_ofEntries]
  exact ⟨fun m _ => m.numbersHeld,
    fun entry hentry => Declaration.numbersHeld (h.declarations entry hentry),
    fun entry _ => entry.2.numbersHeld,
    fun entry hentry => TypeNode.numbersHeld (h.types entry hentry),
    fun d hd => Diagnostic.numbersHeld (h.diagnostics d hd), by simp, List.forall_mem_nil _⟩

end TypeSchema
