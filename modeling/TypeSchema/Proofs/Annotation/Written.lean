import TypeSchema.Annotation
import TypeSchema.Proofs.Json.Fields

/-!
# What annotations write

The annotations of a symbol stand in its comment and in its tags.  `written` lists them in the order
in which they are recorded, so what recording one of them preserves holds of all keywords of the
symbol.
-/

namespace TypeSchema.Annotations

/-- The names and the texts of the annotations of a symbol. -/
def written (symbol : Symbol) : List (String × List Char) :=
  (Text.split '@' (joinDocumentation symbol.documentation)).2.filterMap readAnnotation ++
    symbol.tags.map readTag

theorem foldl_recordSegment (extra : List String) (notes : Annotations)
    (segments : List (List Char)) :
    segments.foldl (recordSegment extra) notes =
      (segments.filterMap readAnnotation).foldl (fun notes a => record extra notes a.1 a.2)
        notes := by
  rw [List.foldl_filterMap]
  congr 1
  funext notes text
  rw [recordSegment]
  cases readAnnotation text <;> rfl

theorem ofSymbol_eq (extra : List String) (symbol : Symbol) :
    ofSymbol extra symbol =
      (written symbol).foldl (fun notes a => record extra notes a.1 a.2)
        (describe (Text.split '@' (joinDocumentation symbol.documentation)).1) := by
  rw [written, List.foldl_append, List.foldl_map, ← foldl_recordSegment]
  rfl

theorem ofSymbol_induction {extra : List String} {symbol : Symbol} {P : Annotations → Prop}
    (describe : ∀ text, P (describe text))
    (record : ∀ notes, P notes → ∀ a ∈ written symbol, P (record extra notes a.1 a.2)) :
    P (ofSymbol extra symbol) := by
  rw [ofSymbol_eq]
  exact List.foldlRecOn _ _ (describe _) record

/-! ## Keywords -/

/-- Whether an annotation of this name writes into definitions. -/
def namesKeyword (extra : List String) (name : String) : Bool :=
  match path name with
  | [] => false
  | key :: inner => isKeyword extra (inner.getLastD key)

theorem record_keywords (extra : List String) (notes : Annotations) (name : String)
    (text : List Char) :
    (record extra notes name text).keywords = notes.keywords ∨
      ∃ key inner, namesKeyword extra name = true ∧
        isKeyword extra (inner.getLastD key) = true ∧
        (record extra notes name text).keywords =
          if inner.isEmpty then notes.keywords.insert key (parseValue text)
          else mergeAt notes.keywords key (nest inner (parseValue text)) := by
  unfold record
  split
  · exact .inl rfl
  · rename_i key inner hpath
    split
    · rename_i hkeyword
      refine .inr ⟨key, inner, ?_, hkeyword, ?_⟩
      · rw [namesKeyword, hpath]
        exact hkeyword
      · split <;> rfl
    · exact .inl rfl

theorem isKeyword_ref {extra : List String} (h : "$ref" ∉ extra) :
    isKeyword extra "$ref" = false := by
  simp [isKeyword, builtinKeywords, h]

/-! ## Paths -/

theorem mergeAt_eq_insert (keywords : Dict String Json) (key : String) (value : Json) :
    ∃ stored, mergeAt keywords key value = keywords.insert key stored := by
  obtain ⟨stored, heq⟩ := mergeKeyword_eq_insert keywords.entries key value
  exact ⟨stored, Dict.ext heq⟩

theorem record_keys (extra : List String) (notes : Annotations) (name : String)
    (text : List Char) : notes.keywords.keys ⊆ (record extra notes name text).keywords.keys := by
  intro key hkey
  obtain heq | ⟨stored, inner, -, -, heq⟩ := record_keywords extra notes name text
  · rwa [heq]
  · rw [heq]
    split
    · exact Dict.mem_keys_insert.2 (.inr hkey)
    · obtain ⟨value, hinsert⟩ := mergeAt_eq_insert notes.keywords stored
        (nest inner (parseValue text))
      rw [hinsert]
      exact Dict.mem_keys_insert.2 (.inr hkey)

theorem record_key {extra : List String} {name key : String} {inner : List String}
    (hname : namesKeyword extra name = true) (hpath : path name = key :: inner)
    (notes : Annotations) (text : List Char) :
    key ∈ (record extra notes name text).keywords.keys := by
  unfold namesKeyword at hname
  rw [hpath] at hname
  unfold record
  rw [hpath]
  dsimp only at hname ⊢
  rw [if_pos hname]
  split
  · exact Dict.mem_keys_insert.2 (.inl rfl)
  · obtain ⟨value, heq⟩ := mergeAt_eq_insert notes.keywords key (nest inner (parseValue text))
    rw [heq]
    exact Dict.mem_keys_insert.2 (.inl rfl)

/-- The paths of keys at which the annotations of a symbol write into definitions. -/
def writtenPaths (extra : List String) (symbol : Symbol) : List (List String) :=
  ((written symbol).filter (namesKeyword extra ·.1)).map (path ·.1)

theorem mem_writtenPaths {extra : List String} {symbol : Symbol} {keys : List String} :
    keys ∈ writtenPaths extra symbol ↔
      ∃ a ∈ written symbol, namesKeyword extra a.1 = true ∧ path a.1 = keys := by
  simp [writtenPaths, and_assoc]

/-- Once a keyword is written no other annotation takes it away. -/
theorem ofSymbol_key {extra : List String} {symbol : Symbol} {key : String} {inner : List String}
    (h : key :: inner ∈ writtenPaths extra symbol) :
    key ∈ (ofSymbol extra symbol).keywords.keys := by
  obtain ⟨a, ha, hname, hpath⟩ := mem_writtenPaths.1 h
  obtain ⟨before, after, hwritten⟩ := List.append_of_mem ha
  rw [ofSymbol_eq, hwritten, List.foldl_append, List.foldl_cons]
  exact List.foldlRecOn (motive := fun notes => key ∈ notes.keywords.keys) after _
    (record_key hname hpath _ _) fun notes hnotes b _ => record_keys extra notes b.1 b.2 hnotes

/-! ## References -/

theorem nest_lacksText {inner : List String} {key : String} {value : Json}
    (hlast : inner.getLastD key ≠ "$ref") (h : value.lacksText "$ref" = true) :
    Json.LacksText "$ref" (key, nest inner value) := by
  induction inner generalizing key with
  | nil => exact ⟨fun hkey => absurd hkey hlast, h⟩
  | cons name rest ih =>
      have hrest : Json.LacksText "$ref" (name, nest rest value) :=
        ih (by rwa [List.getLastD_cons] at hlast)
      refine ⟨fun _ text => by simp [nest], Json.lacksText_obj.2 fun field hfield => ?_⟩
      rw [List.mem_singleton] at hfield
      exact hfield ▸ hrest

mutual

theorem mergeKeyword_lacksText {fields : Entries String Json} {name key : String} :
    ∀ value : Json, Json.LacksText key (name, value) → Json.lacksText key (.obj fields) = true →
      Json.lacksText key (.obj (mergeKeyword fields name value)) = true
  | .obj nested => by
      intro hvalue hfields
      rw [mergeKeyword]
      split
      · rename_i existing hexisting
        have hexisting := Json.lacksText_obj.1 hfields _ (Entries.mem_of_find?_eq_some hexisting)
        exact Json.lacksText_insert
          ⟨fun _ text => by simp, mergeKeywords_lacksText nested hvalue.2 hexisting.2⟩ hfields
      · exact Json.lacksText_insert hvalue hfields
  | .null | .bool _ | .num _ | .str _ | .arr _ => by
      intro hvalue hfields
      exact Json.lacksText_insert hvalue hfields
termination_by structural value => value

theorem mergeKeywords_lacksText {fields : Entries String Json} {key : String} :
    ∀ nested : List (String × Json), Json.lacksText key (.obj nested) = true →
      Json.lacksText key (.obj fields) = true →
      Json.lacksText key (.obj (mergeKeywords fields nested)) = true
  | [] => fun _ hfields => hfields
  | (name, value) :: rest => by
      intro hnested hfields
      have hnested := Json.lacksText_obj.1 hnested
      exact mergeKeywords_lacksText rest
        (Json.lacksText_obj.2 fun field hfield => hnested field (List.mem_cons_of_mem _ hfield))
        (mergeKeyword_lacksText value (hnested _ List.mem_cons_self) hfields)
termination_by structural nested => nested

end

/-- No annotation of the symbol that names a keyword has the key of a reference in its value. -/
def LacksReference (extra : List String) (symbol : Symbol) : Prop :=
  ∀ a ∈ written symbol, namesKeyword extra a.1 = true →
    (parseValue a.2).lacksKey "$ref" = true

instance (extra : List String) (symbol : Symbol) : Decidable (LacksReference extra symbol) :=
  inferInstanceAs (Decidable (∀ a ∈ written symbol, namesKeyword extra a.1 = true →
    (parseValue a.2).lacksKey "$ref" = true))

theorem record_lacksText {extra : List String} {notes : Annotations} {name : String}
    {text : List Char} (hextra : "$ref" ∉ extra)
    (htext : namesKeyword extra name = true → (parseValue text).lacksKey "$ref" = true)
    (h : (Json.ofDict notes.keywords).lacksText "$ref" = true) :
    (Json.ofDict (record extra notes name text).keywords).lacksText "$ref" = true := by
  obtain heq | ⟨key, inner, hname, hlast, heq⟩ := record_keywords extra notes name text
  · rw [heq]
    exact h
  · have hvalue : Json.LacksText "$ref" (key, nest inner (parseValue text)) := by
      refine nest_lacksText ?_ (Json.lacksText_of_lacksKey (htext hname))
      intro href
      rw [href, isKeyword_ref hextra] at hlast
      exact absurd hlast (by simp)
    rw [heq]
    split
    · rename_i hinner
      rw [List.isEmpty_iff.1 hinner] at hvalue
      exact Json.lacksText_insert hvalue h
    · exact mergeKeyword_lacksText _ hvalue h

theorem ofSymbol_lacksText {extra : List String} {symbol : Symbol} (hextra : "$ref" ∉ extra)
    (h : LacksReference extra symbol) :
    (Json.ofDict (ofSymbol extra symbol).keywords).lacksText "$ref" = true :=
  ofSymbol_induction (P := fun notes => (Json.ofDict notes.keywords).lacksText "$ref" = true)
    (fun _ => rfl) fun _ hnotes a ha => record_lacksText hextra (h a ha) hnotes

theorem mergeKeyword_obj (fields : Entries String Json) (key : String)
    (nested : List (String × Json)) :
    ∃ stored, mergeKeyword fields key (.obj nested) = Entries.insert key (.obj stored) fields := by
  rw [mergeKeyword]
  split <;> exact ⟨_, rfl⟩

/-- No annotation makes a definition a reference, whatever its value holds. -/
theorem ofSymbol_find?_ref {extra : List String} {symbol : Symbol} (hextra : "$ref" ∉ extra)
    (ref : String) : (ofSymbol extra symbol).keywords.find? "$ref" ≠ some (.str ref) := by
  refine ofSymbol_induction (P := fun notes => notes.keywords.find? "$ref" ≠ some (.str ref))
    (fun _ => by simp [describe, empty]) fun notes hnotes a _ => ?_
  obtain heq | ⟨key, inner, -, hlast, heq⟩ := record_keywords extra notes a.1 a.2
  · rwa [heq]
  · rw [heq]
    cases inner with
    | nil =>
        have hkey : "$ref" ≠ key := by
          rintro rfl
          rw [List.getLastD_nil, isKeyword_ref hextra] at hlast
          exact absurd hlast (by simp)
        simpa [Dict.find?_insert, hkey] using hnotes
    | cons name rest =>
        obtain ⟨stored, hstored⟩ := mergeKeyword_obj notes.keywords.entries key
          [(name, nest rest (parseValue a.2))]
        change Entries.find? "$ref" (mergeKeyword notes.keywords.entries key _) ≠ _
        rw [nest, List.foldr_cons, ← nest, hstored, Entries.find?_insert]
        split
        · simp
        · exact hnotes

end TypeSchema.Annotations
