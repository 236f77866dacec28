import TypeSchema.Loading
import TypeSchema.Proofs.Graph.Written

/-!
# Graphs that are loaded

A text can say all that a graph holds which is loaded from a text, or merged from such graphs.  So
it can be written and loaded again, and is then the same graph.
-/

namespace TypeSchema

open Decoder Graph.Format
open Json (RealsReadBack)

variable {room : Nat} {g later : Graph}

/-! ## What is decoded -/

theorem EnumMember.ensures :
    Ensures enumMemberForm.decode (constantRoom + 1) EnumMember.IsStorable := by
  refine .record nofun ?_
  simp only [enumMemberForm, List.forall_mem_cons]
  exact ⟨.other fun _ _ h => h, ensures_optional_json.keeps fun _ _ h _ => h,
    .other fun _ _ h => h, List.forall_mem_nil _⟩

theorem Declaration.ensures :
    Ensures declarationForm.decode (constantRoom + 3) Declaration.IsStorable := by
  refine .record (List.forall_mem_nil _) ?_
  simp only [declarationForm, List.forall_mem_cons]
  exact ⟨.other fun _ _ h => h, .other fun _ _ h => h, .other fun _ _ h => h,
    .other fun _ _ h => h, .other fun _ _ h => h, EnumMember.ensures.list.keeps fun _ _ h _ => h,
    .other fun _ _ h => h, .other fun _ _ h => h, List.forall_mem_nil _⟩

theorem Diagnostic.ensures :
    Ensures diagnosticForm.decode (room + 1) Diagnostic.IsStorable := by
  refine .record ⟨by decide, by decide⟩ ?_
  simp only [diagnosticForm, List.forall_mem_cons]
  exact ⟨.other fun _ _ h => h, ensures_nat32.keeps fun _ _ hn h => ⟨hn, h.2⟩,
    ensures_nat32.keeps fun _ _ hn h => ⟨h.1, hn⟩, .other fun _ _ h => h, List.forall_mem_nil _⟩

/-! ## Types that are decoded -/

/-- The fields of an object, kept as plain values that a type may have as its literal. -/
def Fitting (fields : List (String × Json)) : Prop := ∀ field ∈ fields, field.2.FitsIn literalRoom

theorem Fitting.nil : Fitting [] := List.forall_mem_nil _

theorem typeParts_fitting {fields : List (Draft × Draft)} {cut : Option Cut}
    {parts parts' : TypeParts} (hfields : ∀ field ∈ fields, field.2.IsHeld)
    (hparts : Fitting parts.rest) (h : typeParts literalRoom fields cut parts = .ok parts') :
    Fitting parts'.rest := by
  induction fields generalizing parts with
  | nil =>
    cases cut with
    | none =>
      cases h
      exact fun field hfield => hparts field (List.mem_reverse.1 hfield)
    | some cut => cases h
  | cons field fields ih =>
    obtain ⟨hfield, hfields⟩ := List.forall_mem_cons.1 hfields
    simp only [typeParts, outcome_bind_eq_ok] at h
    obtain ⟨name, -, h⟩ := h
    split at h
    · split at h
      · cases h
      · simp only [outcome_bind_eq_ok] at h
        obtain ⟨value, -, h⟩ := h
        refine ih hfields ?_ h
        exact hparts
    · split at h
      · split at h
        · cases h
        · simp only [outcome_bind_eq_ok] at h
          obtain ⟨value, -, h⟩ := h
          refine ih hfields ?_ h
          exact hparts
      · simp only [outcome_bind_eq_ok] at h
        obtain ⟨value, hvalue, h⟩ := h
        refine ih hfields ?_ h
        exact List.forall_mem_cons.2 ⟨ensures_json _ value hfield hvalue, hparts⟩

/-- A value that fits is kept as it is. -/
theorem json_ofJson_eq {v w : Json} (hv : v.FitsIn literalRoom)
    (h : json Draft.maxDepth (Draft.ofJson v) = .ok w) : w = v := by
  rw [show json Draft.maxDepth (Draft.ofJson v) = .ok v from Reads.json (hv.mono (by decide))] at h
  cases h
  rfl

theorem require_eq_ok {α : Type} {name : String} {value : Option α} {a : α} :
    require name value = .ok a ↔ value = some a := by
  cases value <;> simp [require, fail]

theorem splitKind_fitting {α : Type} {decode : Decoder α} {P : α → Prop}
    (hdecode : ∀ d a, decode Draft.maxDepth d = .ok a → P a) {fields kept : List (String × Json)}
    (hfields : Fitting fields) (hkept : Fitting kept) {kind : Option α} (hkind : ∀ a ∈ kind, P a)
    {a : α} {rest : List (String × Json)}
    (h : splitKind decode Draft.maxDepth (Draft.ofFields fields) none kind kept = .ok (a, rest)) :
    P a ∧ Fitting rest := by
  induction fields generalizing kind kept with
  | nil =>
    simp only [Draft.ofFields, splitKind, outcome_bind_eq_ok, require_eq_ok] at h
    obtain ⟨found, rfl, h⟩ := h
    cases h
    exact ⟨hkind a rfl, fun field hfield => hkept field (List.mem_reverse.1 hfield)⟩
  | cons field fields ih =>
    obtain ⟨hfield, hfields⟩ := List.forall_mem_cons.1 hfields
    simp only [Draft.ofFields, splitKind, outcome_bind_eq_ok] at h
    obtain ⟨name, -, h⟩ := h
    split at h
    · split at h
      · cases h
      · simp only [outcome_bind_eq_ok, within_eq_ok] at h
        obtain ⟨found, hfound, h⟩ := h
        refine ih hfields hkept ?_ h
        rintro _ ⟨⟩
        exact hdecode _ found hfound
    · simp only [outcome_bind_eq_ok] at h
      obtain ⟨value, hvalue, h⟩ := h
      refine ih hfields ?_ hkind h
      refine List.forall_mem_cons.2 ⟨?_, hkept⟩
      rw [json_ofJson_eq hfield hvalue]
      exact hfield

theorem nameOrPlace_mem {α : Type} {known : List (String × α)} {d : Draft} {a : α}
    (h : nameOrPlace known room d = .ok a) : ∃ entry ∈ known, entry.2 = a := by
  have hname {d : Draft} (h : Decoder.name known room d = .ok a) :
      ∃ entry ∈ known, entry.2 = a := by
    unfold Decoder.name at h
    split at h
    · unfold alternative at h
      split at h
      · rename_i hfind
        cases h
        exact ⟨_, Entries.mem_of_find?_eq_some hfind, rfl⟩
      · cases h
    · exact absurd h mismatch_ne_ok
  unfold nameOrPlace at h
  split at h
  · split at h
    · exact hname h
    · split at h
      · rename_i entry hentry
        cases h
        exact ⟨entry, List.mem_of_getElem? hentry, rfl⟩
      · cases h
  · exact hname h

theorem mem_ofFields {fields : List (String × Json)} {entry : Draft × Draft}
    (h : entry ∈ Draft.ofFields fields) :
    ∃ field ∈ fields, entry = (.str field.1, Draft.ofJson field.2) := by
  induction fields with
  | nil => cases h
  | cons field fields ih =>
    rcases List.mem_cons.1 h with rfl | h
    · exact ⟨field, List.mem_cons_self, rfl⟩
    · obtain ⟨found, hfound, heq⟩ := ih h
      exact ⟨found, List.mem_cons_of_mem _ hfound, heq⟩

theorem required_json {name : String} {fields : List (String × Json)} {v : Json}
    (hfields : Fitting fields) (h : required name json fields = .ok v) : v.FitsIn literalRoom := by
  simp only [required, outcome_bind_eq_ok, require_eq_ok] at h
  obtain ⟨value, hvalue, rfl⟩ := h
  refine ofFields_keeps (Q := fun value => ∀ v ∈ value, v.FitsIn literalRoom) ?_
    (fun _ h => absurd h (Option.not_mem_none _)) (here_eq_ok.1 hvalue) v rfl
  intro entry hentry f hf store hstore _ _
  obtain ⟨field, hfield, rfl⟩ := mem_ofFields hentry
  obtain rfl := List.mem_singleton.1 hf
  obtain ⟨w, hw, rfl⟩ := outcome_map_eq_ok.1 hstore
  rintro _ ⟨⟩
  rw [json_ofJson_eq (hfields field hfield) hw]
  exact hfields field hfield

theorem typeKinds_storable :
    ∀ entry ∈ typeKinds, ∀ fields kind, Fitting fields → entry.2 fields = .ok kind →
      kind.IsStorable := by
  have hplain {α : Type} {decode : Decoder α} {name : String} {make : α → TypeKind}
      (hmake : ∀ a, (make a).IsStorable) (fields : List (String × Json)) (kind : TypeKind)
      (_ : Fitting fields) (h : (required name decode fields).map make = .ok kind) :
      kind.IsStorable := by
    obtain ⟨a, -, rfl⟩ := outcome_map_eq_ok.1 h
    exact hmake a
  have hbare {kind : TypeKind} (hkind : kind.IsStorable) (fields : List (String × Json))
      (found : TypeKind) (_ : Fitting fields)
      (h : (Except.ok kind : Except Problem TypeKind) = .ok found) : found.IsStorable := by
    cases h
    exact hkind
  have hliteral (fields : List (String × Json)) (kind : TypeKind) (hfields : Fitting fields)
      (h : (required "value" json fields).map .enumLiteral = .ok kind) : kind.IsStorable := by
    obtain ⟨v, hv, rfl⟩ := outcome_map_eq_ok.1 h
    exact required_json hfields hv
  have hobject (fields : List (String × Json)) (kind : TypeKind) (_ : Fitting fields)
      (h : (ofEntries objectForm fields).map .object = .ok kind) : kind.IsStorable := by
    obtain ⟨type, -, rfl⟩ := outcome_map_eq_ok.1 h
    trivial
  simp only [typeKinds, List.forall_mem_cons]
  exact ⟨hbare trivial, hbare trivial, hbare trivial, hbare trivial, hbare trivial, hbare trivial,
    hbare trivial, hbare trivial, hbare trivial, hbare trivial, hbare trivial, hbare trivial,
    hplain fun _ => trivial, hplain fun _ => trivial, hplain fun _ => trivial, hliteral,
    hplain fun _ => trivial, hplain fun _ => trivial, hplain fun _ => trivial, hobject,
    hbare trivial, hbare trivial, List.forall_mem_nil _⟩

theorem TypeNode.ensures :
    Ensures Graph.Format.typeNode (literalRoom + 1) fun node => node.kind.IsStorable := by
  intro d node hd h
  cases d with
  | obj fields cut =>
    simp only [Graph.Format.typeNode, outcome_bind_eq_ok, here_eq_ok] at h
    obtain ⟨parts, hparts, ⟨build, rest⟩, hsplit, kind, hkind, hnode⟩ := h
    cases hnode
    have hfitting : Fitting parts.rest :=
      typeParts_fitting (Draft.isHeld_obj.1 hd) (by exact .nil) hparts
    obtain ⟨⟨entry, hentry, rfl⟩, hrest⟩ :=
      splitKind_fitting (fun _ _ => nameOrPlace_mem) hfitting .nil
        (fun _ h => absurd h (Option.not_mem_none _)) hsplit
    exact typeKinds_storable entry hentry rest kind hrest hkind
  | _ => cases h

/-! ## Graphs that are decoded -/

theorem Graph.ensures : Ensures Graph.decode Draft.maxDepth Graph.IsStorable := by
  refine .record ⟨List.forall_mem_nil _, List.forall_mem_nil _, List.forall_mem_nil _⟩ ?_
  simp only [graphForm, List.forall_mem_cons]
  have hdeclarations : Ensures declarationForm.decode 125 Declaration.IsStorable :=
    Declaration.ensures
  have htypes : Ensures Graph.Format.typeNode 125 fun node => node.kind.IsStorable :=
    TypeNode.ensures
  have hdiagnostics : Ensures diagnosticForm.decode 125 Diagnostic.IsStorable := Diagnostic.ensures
  exact ⟨.other fun _ _ h => ⟨h.1, h.2, h.3⟩,
    hdeclarations.dict.keeps fun _ _ hd h => ⟨hd, h.2, h.3⟩,
    .other fun _ _ h => ⟨h.1, h.2, h.3⟩,
    htypes.dict.keeps fun _ _ ht h => ⟨h.1, ht, h.3⟩,
    hdiagnostics.list.keeps fun _ _ hd h => ⟨h.1, h.2, hd⟩,
    .other fun _ _ h => ⟨h.1, h.2, h.3⟩, List.forall_mem_nil _⟩

/-! ## Loading -/

namespace Graph

/-- A graph that comes from a text, or from merging graphs that do. -/
inductive Loaded : Graph → Prop
  | text {file text : String} {g : Graph} (h : Loading.graph file text = .ok g) : Loaded g
  | merge {g later : Graph} (h : Loaded g) (h' : Loaded later) : Loaded (g.merge later)

theorem loading_eq_ok {file text : String} :
    Loading.graph file text = .ok g ↔ Graph.decode Draft.maxDepth (Draft.ofText text) = .ok g := by
  unfold Loading.graph Loading.read
  split <;> simp [*]

theorem IsStorable.merge (h : g.IsStorable) (h' : later.IsStorable) :
    (g.merge later).IsStorable where
  declarations entry hentry :=
    (Entries.mem_of_mem_merge hentry).elim (h.declarations entry) (h'.declarations entry)
  types entry hentry := (Entries.mem_of_mem_merge hentry).elim (h.types entry) (h'.types entry)
  diagnostics d hd := (List.mem_append.1 hd).elim (h.diagnostics d) (h'.diagnostics d)

theorem Loaded.isStorable (h : g.Loaded) : g.IsStorable := by
  induction h with
  | text h => exact Graph.ensures _ _ (Draft.isHeld_ofText _) (loading_eq_ok.1 h)
  | merge _ _ ih ih' => exact ih.merge ih'

theorem Loaded.empty : Loaded ∅ := by
  have h : Loading.graph "" "\x7b\x7d" = .ok ∅ := rfl
  exact .text h

theorem Loaded.mergeAll {graphs : List Graph} (h : ∀ g ∈ graphs, Loaded g) :
    Loaded (mergeAll graphs) :=
  List.foldlRecOn (motive := Loaded) graphs Graph.merge .empty fun _ hg later hlater =>
    .merge hg (h later hlater)

/-- A loaded graph is written to a text from which the same graph is loaded. -/
theorem loads_back (h : g.Loaded) (hreals : g.toJson.RealsReadBack) (file : String) :
    Loading.graph file g.toJson.text = .ok g := by
  have hstorable := h.isStorable
  have hscans : Draft.Scans g.toJson g.toJson.compact :=
    Draft.scans_compact (hstorable.numbersHeld.readsBack hreals)
  have hdraft : Draft.ofText g.toJson.text = Draft.ofJson g.toJson := by
    have hwhole := hscans.whole .nil
    rw [List.append_nil] at hwhole
    rw [Draft.ofText, Json.text, String.toList_ofList, hwhole]
  rw [loading_eq_ok, hdraft]
  exact hstorable.reads

/-! ## An enum and its literal -/

/-- An enum whose constant is a list, as the compiler may write it. -/
def shadeText : String :=
  "\x7b\"declarations\": \x7b\"d\": \x7b\"kind\": \"enum\", \"enumMembers\": " ++
    "[\x7b\"name\": \"Dark\", \"constantValue\": [1.5, \"\\u00e9\"]\x7d]\x7d\x7d, \"extra\": 0\x7d"

def literalText : String :=
  "\x7b\"types\": \x7b\"t\": \x7b\"value\": 2, \"kind\": \"numberLiteral\"\x7d\x7d, " ++
    "\"diagnostics\": [[\"a.ts\", 3, 4, \"lost\"]]\x7d"

def mergedReals (first second : String) : Bool :=
  match Loading.graph "first.json" first, Loading.graph "second.json" second with
  | .ok g, .ok later => (g.merge later).toJson.numbers.all Number.readsBack
  | _, _ => false

theorem loads_back_shade :
    ∃ g later, Loading.graph "first.json" shadeText = .ok g ∧
      Loading.graph "second.json" literalText = .ok later ∧
      (g.merge later).toJson.RealsReadBack ∧
      Loading.graph "merged.json" (g.merge later).toJson.text = .ok (g.merge later) := by
  have h : mergedReals shadeText literalText = true := by decide +kernel
  unfold mergedReals at h
  split at h
  · rename_i g later hg hlater
    have hreals : (g.merge later).toJson.RealsReadBack := fun x hx => List.all_eq_true.1 h _ hx
    exact ⟨g, later, hg, hlater, hreals,
      loads_back (.merge (.text hg) (.text hlater)) hreals "merged.json"⟩
  · cases h

end Graph

end TypeSchema
