import TypeSchema.Graph.Format
import TypeSchema.Proofs.Json.Held
import TypeSchema.Proofs.Json.Reading

/-!
# Laws of decoders

Two laws for each way to build a decoder.  `Reads` says that a written value is decoded to what it
was written from.  `Ensures` says what is true of whatever is decoded from the draft of a text.
-/

namespace TypeSchema.Decoder

open Json (ofOption ofList)

variable {α ρ κ : Type} {decode : Decoder α} {write : α → Json} {room : Nat} {v : Json} {a : α}

@[simp] theorem within_eq_ok {step : Step} {outcome : Except Problem α} :
    within step outcome = .ok a ↔ outcome = .ok a := by
  unfold within
  split
  · simp
  · rfl

@[simp] theorem here_eq_ok {outcome : Except Problem α} :
    here outcome = .ok a ↔ outcome = .ok a := by
  unfold here
  split
  · simp
  · rfl

@[simp] theorem lift_eq_ok {outcome : Except Cut α} : lift outcome = .ok a ↔ outcome = .ok a := by
  unfold lift
  split <;> simp

/-! ## Reading back -/

/-- The decoder takes the written value to the value of the domain. -/
def Reads (decode : Decoder α) (room : Nat) (v : Json) (a : α) : Prop :=
  decode room (Draft.ofJson v) = .ok a

theorem Reads.nat32 {n : Nat} (h : n < Nat.pow 2 32) : Reads nat32 room (Json.nat n) n := by
  change (if 0 ≤ (n : Int) ∧ (n : Int).toNat < Nat.pow 2 32 then _ else _) = _
  rw [if_pos ⟨Int.natCast_nonneg n, h⟩]
  rfl

theorem Reads.json (h : v.FitsIn room) : Reads json room v v :=
  lift_eq_ok.2 (Draft.toJson_ofJson h.keys h.depth)

theorem Reads.some (h : Reads decode room v a) (hne : v ≠ .null) :
    Reads (optional decode) room v (some a) := by
  have hdraft : Draft.ofJson v ≠ .null := by
    cases v <;> first | exact absurd rfl hne | nofun
  unfold Reads optional
  split
  · exact absurd ‹_› hdraft
  · rw [h]
    rfl

theorem Reads.option {value : Option α}
    (h : ∀ a ∈ value, Reads decode room (write a) a ∧ write a ≠ .null) :
    Reads (optional decode) room (ofOption write value) value := by
  cases value with
  | none => rfl
  | some a => exact (h a rfl).1.some (h a rfl).2

theorem Reads.items {values : List α} (position : Nat)
    (h : ∀ a ∈ values, Reads decode room (write a) a) :
    items decode room position (Draft.ofItems (values.map write)) none = .ok values := by
  induction values generalizing position with
  | nil => rfl
  | cons a values ih =>
    obtain ⟨ha, hvalues⟩ := List.forall_mem_cons.1 h
    rw [List.map_cons, Draft.ofItems, Decoder.items, ha, ih (position + 1) hvalues]
    rfl

theorem Reads.list {values : List α} (h : ∀ a ∈ values, Reads decode room (write a) a) :
    Reads (list decode) (room + 1) (ofList write values) values :=
  Reads.items 0 h

theorem Reads.entries [DecidableEq κ] {key : String → κ} {name : κ → String}
    (hkey : ∀ k, key (name k) = k) {values : Entries κ α} {read : Dict κ α}
    (hnodup : (Entries.keys (read.entries ++ values)).Nodup)
    (h : ∀ entry ∈ values, Reads decode room (write entry.2) entry.2) :
    ∃ d, entries key decode room
        (Draft.ofFields (values.map fun entry => (name entry.1, write entry.2))) none read = .ok d ∧
      d.entries = read.entries ++ values := by
  induction values generalizing read with
  | nil => exact ⟨read, rfl, (List.append_nil _).symm⟩
  | cons entry values ih =>
    obtain ⟨k, a⟩ := entry
    obtain ⟨ha, hvalues⟩ := List.forall_mem_cons.1 h
    have hinsert : (read.insert k a).entries = read.entries ++ [(k, a)] :=
      Entries.insert_of_nodup hnodup
    obtain ⟨d, hd, hentries⟩ := @ih (read.insert k a) (by rwa [hinsert, List.append_assoc]) hvalues
    refine ⟨d, ?_, by rw [hentries, hinsert, List.append_assoc]; rfl⟩
    rw [List.map_cons, Draft.ofFields, Decoder.entries]
    simp only [outcome_bind_eq_ok, within_eq_ok]
    exact ⟨name k, rfl, a, ha, by rwa [hkey]⟩

theorem Reads.dict [DecidableEq κ] {key : String → κ} {name : κ → String}
    (hkey : ∀ k, key (name k) = k) {d : Dict κ α}
    (h : ∀ entry ∈ d.entries, Reads decode room (write entry.2) entry.2) :
    Reads (dict key decode) (room + 1) (Json.ofEntries name write d) d := by
  obtain ⟨e, hread, hentries⟩ := @Reads.entries _ _ _ write room _ _ _ hkey d.entries ∅ d.nodup h
  rw [Dict.ext hentries] at hread
  exact hread

theorem Reads.variant {known : List (String × α)} {name : String}
    (h : Entries.find? name known = Option.some a) : Reads (variant known) room (.str name) a := by
  change alternative known name = _
  rw [alternative, h]

theorem Reads.name {known : List (String × α)} {text : String}
    (h : Entries.find? text known = Option.some a) : Reads (name known) room (.str text) a := by
  change alternative known text = _
  rw [alternative, h]

/-! ## Records -/

/-- Fields written in their declared order, each of them read, take one record to another. -/
inductive ReadsFields (room : Nat) : List (Field ρ) → List (String × Json) → ρ → ρ → Prop
  | nil (r : ρ) : ReadsFields room [] [] r r
  | cons {α : Type} {name : String} {decode : Decoder α} {store : α → ρ → ρ} {v : Json} {a : α}
      {fields : List (Field ρ)} {written : List (String × Json)} {r r' : ρ}
      (h : Reads decode room v a) (hrest : ReadsFields room fields written (store a r) r') :
      ReadsFields room (field name decode store :: fields) ((name, v) :: written) r r'

theorem ReadsFields.ofFields {form : Record ρ} {before fields : List (Field ρ)}
    {written : List (String × Json)} {r r' : ρ} {seen : List String}
    (h : ReadsFields room fields written r r') (hform : form.fields = before ++ fields)
    (hnames : (form.fields.map (·.name)).Nodup)
    (hseen : ∀ name ∈ seen, name ∈ before.map (·.name)) :
    form.ofFields room (Draft.ofFields written) none seen r = .ok r' := by
  induction h generalizing before seen with
  | nil r => rfl
  | @cons α name decode store v a fields written r r' h _ ih =>
    have hnew : name ∉ before.map (·.name) := by
      rw [hform, List.map_append, List.nodup_append] at hnames
      exact fun hold => hnames.2.2 _ hold name List.mem_cons_self rfl
    have hfind : form.fields.find? (·.name == name) = some (field name decode store) := by
      rw [hform, List.find?_append, List.find?_eq_none.2 fun f hf => ?_, Option.none_or]
      · exact List.find?_cons_of_pos (beq_self_eq_true name)
      · exact fun heq => hnew (List.mem_map.2 ⟨f, hf, eq_of_beq heq⟩)
    rw [Draft.ofFields, Record.ofFields]
    simp only [outcome_bind_eq_ok]
    refine ⟨name, rfl, ?_⟩
    rw [hfind]
    dsimp only
    rw [if_neg fun hold => hnew (hseen name hold)]
    simp only [outcome_bind_eq_ok, within_eq_ok]
    refine ⟨store a, ?_, ?_⟩
    · exact outcome_map_eq_ok.2 ⟨a, h, rfl⟩
    · refine @ih (before ++ [field name decode store]) (name :: seen) ?_ ?_
      · rw [hform, List.append_assoc]
        rfl
      · rw [List.map_append]
        exact List.forall_mem_cons.2 ⟨List.mem_append_right _ List.mem_cons_self,
          fun old hold => List.mem_append_left _ (hseen old hold)⟩

theorem ReadsFields.record {form : Record ρ} {written : List (String × Json)} {r : ρ}
    (h : ReadsFields room form.fields written form.blank r)
    (hnames : (form.fields.map (·.name)).Nodup) : Reads form.decode (room + 1) (.obj written) r :=
  h.ofFields (List.nil_append _).symm hnames (List.forall_mem_nil _)

theorem ReadsFields.ofEntries {form : Record ρ} {written : List (String × Json)} {r : ρ}
    (h : ReadsFields Draft.maxDepth form.fields written form.blank r)
    (hnames : (form.fields.map (·.name)).Nodup) : ofEntries form written = .ok r :=
  here_eq_ok.2 (h.ofFields (List.nil_append _).symm hnames (List.forall_mem_nil _))

theorem Reads.required {name : String} (h : Reads decode Draft.maxDepth v a) :
    Graph.Format.required name decode [(name, v)] = .ok a := by
  have hfields : ofEntries
      ⟨name, none, [field name decode fun value _ => Option.some value], false⟩ [(name, v)] =
        .ok (Option.some a) :=
    ReadsFields.ofEntries (.cons h (.nil _)) (List.pairwise_singleton _ _)
  rw [Graph.Format.required]
  simp only [hfields]
  rfl

/-! ## What is ensured -/

/-- What is decoded from a draft of a text has the property. -/
def Ensures (decode : Decoder α) (room : Nat) (P : α → Prop) : Prop :=
  ∀ d a, d.IsHeld → decode room d = .ok a → P a

variable {P : α → Prop}

theorem mismatch_ne_ok {wanted : String} {d : Draft} : mismatch wanted d ≠ .ok a := by
  cases d <;> nofun

theorem ensures_json : Ensures json room (·.FitsIn room) :=
  fun _ _ hd h => Draft.fitsIn_toJson hd (lift_eq_ok.1 h)

theorem ensures_nat32 : Ensures nat32 room (· < Nat.pow 2 32) := by
  intro d n _ h
  unfold nat32 at h
  split at h
  · split at h
    · rename_i hbound
      cases h
      exact hbound.2
    · cases h
  · exact absurd h mismatch_ne_ok

theorem toJson_eq_null {d : Draft} (h : d.toJson room = .ok .null) : d = .null := by
  cases d with
  | null => rfl
  | arr items cut =>
    cases room with
    | zero => cases h
    | succ room =>
      obtain ⟨values, -, heq⟩ := outcome_map_eq_ok.1 h
      cases heq
  | obj fields cut =>
    cases room with
    | zero => cases h
    | succ room =>
      obtain ⟨values, -, heq⟩ := outcome_map_eq_ok.1 h
      cases heq
  | _ => cases h

/-- No value that is there is null. -/
theorem ensures_optional_json :
    Ensures (optional json) room fun value => ∀ v ∈ value, v.FitsIn room ∧ v ≠ .null := by
  intro d value hd h
  unfold optional at h
  split at h
  · cases h
    nofun
  · rename_i hnull
    obtain ⟨v, hv, rfl⟩ := outcome_map_eq_ok.1 h
    rintro _ ⟨⟩
    refine ⟨ensures_json d v hd hv, ?_⟩
    rintro rfl
    exact hnull (toJson_eq_null (lift_eq_ok.1 hv))

theorem Ensures.items (h : Ensures decode room P) {drafts : List Draft}
    (hdrafts : ∀ d ∈ drafts, d.IsHeld) {position : Nat} {cut : Option Cut} {values : List α}
    (hvalues : items decode room position drafts cut = .ok values) : ∀ a ∈ values, P a := by
  induction drafts generalizing position values with
  | nil =>
    cases cut with
    | none =>
      cases hvalues
      exact List.forall_mem_nil _
    | some cut => cases hvalues
  | cons d drafts ih =>
    obtain ⟨hd, hdrafts⟩ := List.forall_mem_cons.1 hdrafts
    simp only [Decoder.items, outcome_bind_eq_ok, within_eq_ok] at hvalues
    obtain ⟨a, ha, rest, hrest, hvalues⟩ := hvalues
    cases hvalues
    exact List.forall_mem_cons.2 ⟨h d a hd ha, ih hdrafts hrest⟩

theorem Ensures.list (h : Ensures decode room P) :
    Ensures (list decode) (room + 1) fun values => ∀ a ∈ values, P a := by
  intro d values hd hvalues
  cases d with
  | arr drafts cut => exact h.items (Draft.isHeld_arr.1 hd) hvalues
  | _ => cases hvalues

theorem Ensures.entries [DecidableEq κ] {key : String → κ} (h : Ensures decode room P)
    {fields : List (Draft × Draft)} (hfields : ∀ field ∈ fields, field.2.IsHeld)
    {cut : Option Cut} {read d : Dict κ α} (hread : ∀ entry ∈ read.entries, P entry.2)
    (hd : entries key decode room fields cut read = .ok d) : ∀ entry ∈ d.entries, P entry.2 := by
  induction fields generalizing read with
  | nil =>
    cases cut with
    | none =>
      cases hd
      exact hread
    | some cut => cases hd
  | cons field fields ih =>
    obtain ⟨hfield, hfields⟩ := List.forall_mem_cons.1 hfields
    simp only [Decoder.entries, outcome_bind_eq_ok, within_eq_ok] at hd
    obtain ⟨name, -, a, ha, hd⟩ := hd
    refine ih hfields (fun entry hentry => ?_) hd
    rcases Entries.mem_of_mem_insert hentry with rfl | hold
    · exact h _ a hfield ha
    · exact hread entry hold

theorem Ensures.dict [DecidableEq κ] {key : String → κ} (h : Ensures decode room P) :
    Ensures (dict key decode) (room + 1) fun d => ∀ entry ∈ d.entries, P entry.2 := by
  intro d values hd hvalues
  cases d with
  | obj fields cut =>
    exact h.entries (Draft.isHeld_obj.1 hd) (List.forall_mem_nil _) hvalues
  | _ => cases hvalues

/-! ## Records that are decoded -/

/-- Decoding the field leaves a record with the property. -/
def Field.Keeps (f : Field ρ) (room : Nat) (P : ρ → Prop) : Prop :=
  Ensures f.decode room fun store => ∀ r, P r → P (store r)

theorem Ensures.keeps {name : String} {store : α → ρ → ρ} {Q : ρ → Prop}
    (h : Ensures decode room P) (hstore : ∀ a r, P a → Q r → Q (store a r)) :
    (field name decode store).Keeps room Q := by
  intro d f hd hf r hr
  obtain ⟨a, ha, rfl⟩ := outcome_map_eq_ok.1 hf
  exact hstore a r (h d a hd ha) hr

/-- A property that does not speak about the field. -/
theorem Field.Keeps.other {name : String} {store : α → ρ → ρ} {Q : ρ → Prop}
    (hstore : ∀ a r, Q r → Q (store a r)) : (field name decode store).Keeps room Q :=
  Ensures.keeps (fun _ _ _ _ => trivial) fun a r (_ : True) => hstore a r

theorem ofFields_keeps {form : Record ρ} {Q : ρ → Prop} {fields : List (Draft × Draft)}
    (h : ∀ entry ∈ fields, ∀ f ∈ form.fields, ∀ store, f.decode room entry.2 = .ok store →
      ∀ r, Q r → Q (store r))
    {cut : Option Cut} {seen : List String} {r r' : ρ} (hr : Q r)
    (hr' : form.ofFields room fields cut seen r = .ok r') : Q r' := by
  induction fields generalizing seen r with
  | nil =>
    cases cut with
    | none =>
      cases hr'
      exact hr
    | some cut => cases hr'
  | cons entry fields ih =>
    obtain ⟨hentry, hfields⟩ := List.forall_mem_cons.1 h
    simp only [Record.ofFields, outcome_bind_eq_ok] at hr'
    obtain ⟨name, -, hr'⟩ := hr'
    split at hr'
    · split at hr'
      · cases hr'
      · split at hr'
        · exact ih hfields hr hr'
        · cases hr'
    · rename_i f hfind
      split at hr'
      · cases hr'
      · simp only [outcome_bind_eq_ok, within_eq_ok] at hr'
        obtain ⟨store, hstore, hr'⟩ := hr'
        exact ih hfields (hentry f (List.mem_of_find?_eq_some hfind) store hstore r hr) hr'

theorem ofItems_keeps {Q : ρ → Prop} {fields : List (Field ρ)} (h : ∀ f ∈ fields, f.Keeps room Q)
    {position : Nat} {drafts : List Draft} (hdrafts : ∀ d ∈ drafts, d.IsHeld) {cut : Option Cut}
    {r r' : ρ} (hr : Q r) (hr' : Record.ofItems room fields position drafts cut r = .ok r') :
    Q r' := by
  induction fields generalizing position drafts r with
  | nil =>
    cases drafts with
    | nil =>
      cases cut with
      | none =>
        cases hr'
        exact hr
      | some cut => cases hr'
    | cons d drafts => cases hr'
  | cons f fields ih =>
    obtain ⟨hf, hfields⟩ := List.forall_mem_cons.1 h
    cases drafts with
    | nil =>
      cases cut with
      | none =>
        cases hr'
        exact hr
      | some cut => cases hr'
    | cons d drafts =>
      obtain ⟨hd, hdrafts⟩ := List.forall_mem_cons.1 hdrafts
      simp only [Record.ofItems, outcome_bind_eq_ok, within_eq_ok] at hr'
      obtain ⟨store, hstore, hr'⟩ := hr'
      exact ih hfields hdrafts (hf d store hd hstore r hr) hr'

theorem Ensures.record {form : Record ρ} {Q : ρ → Prop} (hblank : Q form.blank)
    (h : ∀ f ∈ form.fields, f.Keeps room Q) : Ensures form.decode (room + 1) Q := by
  intro d r hd hr
  cases d with
  | obj fields cut =>
    refine ofFields_keeps (fun entry hentry f hf store => ?_) hblank hr
    exact h f hf entry.2 store (Draft.isHeld_obj.1 hd entry hentry)
  | arr drafts cut => exact ofItems_keeps h (Draft.isHeld_arr.1 hd) hblank hr
  | _ => cases hr

end TypeSchema.Decoder
