import Mathlib.Data.List.Forall2
import TypeSchema.Proofs.Json.Scanning

/-!
# Reading printed values

Each of the two printed forms of a value is read as the value, whatever stands behind it, if its
numbers are read back.  The forms differ in the blanks between their tokens alone, so both are
built from the same lemma for lists and the same for objects.
-/

namespace TypeSchema.Draft

open Json (printString printNumber)

variable {text blank blank' rest : List Char} {v : Json} {n : Number} {fuel : Nat}

/-! ## Blanks -/

def IsBlank (text : List Char) : Prop := ∀ c ∈ text, isSpace c = true

theorem IsBlank.nil : IsBlank [] := nofun

theorem isBlank_singleton {c : Char} (h : isSpace c = true) : IsBlank [c] := by
  intro d hd
  rwa [List.mem_singleton.1 hd]

theorem IsBlank.skipSpace_append (h : IsBlank blank) (text : List Char) :
    skipSpace (blank ++ text) = skipSpace text :=
  List.dropWhile_append_of_pos h

theorem IsBlank.endsNumber (h : IsBlank blank) (hrest : EndsNumber rest) :
    EndsNumber (blank ++ rest) := by
  cases blank with
  | nil => exact hrest
  | cons c blank =>
    have hc := h c List.mem_cons_self
    simp only [isSpace, Bool.or_eq_true, beq_iff_eq] at hc
    rcases hc with ((rfl | rfl) | rfl) | rfl <;> exact .cons (by decide)

/-! ## Texts of values -/

/-- The text is read as the value, with fuel enough and nothing that it goes on with behind it. -/
def Scans (v : Json) (text : List Char) : Prop :=
  ∀ fuel rest, 2 * text.length ≤ fuel + 1 → EndsNumber rest →
    scanValue fuel (text ++ rest) = (ofJson v, some rest)

theorem Scans.whole (h : Scans v text) (hblank : IsBlank blank) :
    scan (text ++ blank) = (ofJson v, some blank) := by
  refine h _ blank ?_ ?_
  · rw [List.length_append]
    omega
  · rw [← List.append_nil blank]
    exact hblank.endsNumber .nil

theorem ofJson_ne_unset (v : Json) : ofJson v ≠ .unset := by
  cases v <;> nofun

theorem ofJson_ne_badWord (v : Json) (read : Cut) (skip : Option Cut) :
    ofJson v ≠ .badWord read skip := by
  cases v <;> nofun

theorem Scans.ne_nil (h : Scans v text) : text ≠ [] := by
  rintro rfl
  exact ofJson_ne_unset v (congrArg Prod.fst (h 0 [] (by decide) .nil)).symm

theorem Scans.pos (h : Scans v text) (hfuel : 2 * text.length ≤ fuel) : 0 < fuel := by
  have := List.length_pos_iff.2 h.ne_nil
  omega

/-- What begins with the text of a value begins with no bracket that closes. -/
theorem Scans.head (h : Scans v text) (hrest : EndsNumber rest) :
    skipSpace (text ++ rest) ≠ [] ∧ (∀ after, skipSpace (text ++ rest) ≠ ']' :: after) := by
  have hscan := congrArg Prod.fst (h (2 * text.length + 1) rest (by omega) hrest)
  rw [scanValue] at hscan
  constructor
  · intro heq
    rw [heq] at hscan
    exact ofJson_ne_unset v hscan.symm
  · intro after heq
    rw [heq] at hscan
    exact ofJson_ne_badWord v _ _ hscan.symm

/-! ## Leaves -/

theorem Scans.null : Scans .null "null".toList := by
  intro fuel rest hfuel _
  cases fuel with
  | zero => exact absurd hfuel (by decide)
  | succ fuel => rfl

theorem Scans.bool (b : Bool) : Scans (.bool b) (Json.printBool b) := by
  intro fuel rest hfuel _
  cases fuel with
  | zero => cases b <;> exact absurd hfuel (by decide)
  | succ fuel => cases b <;> rfl

theorem Scans.num (h : n.readsBack = true) : Scans (.num n) (printNumber n) := by
  intro fuel rest hfuel hrest
  have hscan := Number.scan_of_readsBack h
  have hne : printNumber n ≠ [] := fun heq => by
    rw [heq] at hscan
    cases hscan
  cases fuel with
  | zero =>
    have := List.length_pos_iff.2 hne
    omega
  | succ fuel => exact scanValue_append hrest hscan fuel

theorem Scans.str (s : String) : Scans (.str s) (printString s) := by
  intro fuel rest hfuel _
  cases fuel with
  | zero =>
    rw [printString, List.length_append, List.length_cons] at hfuel
    omega
  | succ fuel =>
    have hscan := scanString_escaped s.toList rest
    rw [String.ofList_toList] at hscan
    rw [printString, List.cons_append, List.cons_append, List.append_assoc]
    exact hscan

/-! ## Containers -/

/-- The parts of a container behind the first, each with a comma and blanks in front. -/
def others (blank : List Char) : List (List Char) → List Char
  | [] => []
  | part :: parts => ',' :: (blank ++ (part ++ others blank parts))

theorem intercalate_cons (part : List Char) (parts : List (List Char)) :
    (',' :: blank).intercalate (part :: parts) = part ++ others blank parts := by
  induction parts generalizing part with
  | nil => simp [List.intercalate, others]
  | cons next parts ih =>
    rw [List.intercalate_cons_cons, ih, others, List.append_assoc, List.cons_append]

theorem scanItems_last {item : Json} (hblank : IsBlank blank) (hblank' : IsBlank blank')
    (hitem : Scans item text) (hfuel : 2 * text.length ≤ fuel + 1) :
    scanItems (fuel + 1) (blank ++ (text ++ (blank' ++ ']' :: rest))) =
      ([ofJson item], none, some rest) := by
  have hclose : skipSpace (blank' ++ ']' :: rest) = ']' :: rest := hblank'.skipSpace_append _
  rw [scanItems, scanValue_congr (hblank.skipSpace_append _),
    hitem fuel _ hfuel (hblank'.endsNumber (.cons (by decide)))]
  simp only [Option.map_some, hclose]

theorem scanItems_next {item : Json} (hblank : IsBlank blank) (hitem : Scans item text)
    (hfuel : 2 * text.length ≤ fuel + 1) :
    scanItems (fuel + 1) (blank ++ (text ++ ',' :: rest)) =
      (ofJson item :: (scanItems fuel rest).1, (scanItems fuel rest).2) := by
  have hcomma : skipSpace (',' :: rest) = ',' :: rest := rfl
  rw [scanItems, scanValue_congr (hblank.skipSpace_append _),
    hitem fuel _ hfuel (.cons (by decide))]
  simp only [Option.map_some, hcomma]

theorem scanItems_parts {items : List Json} {parts : List (List Char)} {item : Json}
    {part lead : List Char} (hlead : IsBlank lead) (hblank : IsBlank blank)
    (hblank' : IsBlank blank') (hitem : Scans item part)
    (hitems : List.Forall₂ Scans items parts)
    (hfuel : 2 * (part ++ others blank parts).length ≤ fuel) :
    scanItems fuel (lead ++ (part ++ (others blank parts ++ (blank' ++ ']' :: rest)))) =
      (ofItems (item :: items), none, some rest) := by
  induction hitems generalizing item part lead fuel with
  | nil =>
    obtain ⟨fuel, rfl⟩ := Nat.exists_eq_add_one.2 (hitem.pos (by simpa [others] using hfuel))
    exact scanItems_last hlead hblank' hitem (by simp [others] at hfuel; omega)
  | @cons next nextPart items parts hnext _ ih =>
    rw [others, List.length_append, List.length_cons, List.length_append] at hfuel
    obtain ⟨fuel, rfl⟩ := Nat.exists_eq_add_one.2 (show 0 < fuel by omega)
    rw [others, List.cons_append, scanItems_next hlead hitem (by omega), List.append_assoc,
      List.append_assoc, ih hblank hnext (by omega)]
    rfl

theorem scanItems_congr {text text' : List Char} (h : skipSpace text = skipSpace text')
    (fuel : Nat) : scanItems fuel text = scanItems fuel text' := by
  cases fuel with
  | zero => rfl
  | succ fuel => rw [scanItems, scanItems, scanValue_congr h]

theorem scanValue_arr {items : List Draft} {cut : Option Cut} {after : Option (List Char)}
    (hne : skipSpace text ≠ []) (hopen : ∀ after, skipSpace text ≠ ']' :: after)
    (h : scanItems fuel text = (items, cut, after)) :
    scanValue (fuel + 1) ('[' :: text) = (.arr items cut, after) := by
  have hbracket : skipSpace ('[' :: text) = '[' :: text := rfl
  rw [scanValue]
  simp only [hbracket]
  rw [scanItems_congr (skipSpace_skipSpace text), h]

theorem Scans.arr {items : List Json} {parts : List (List Char)} {item : Json} {part : List Char}
    (hblank : IsBlank blank) (hblank' : IsBlank blank') (hitem : Scans item part)
    (hitems : List.Forall₂ Scans items parts) :
    Scans (.arr (item :: items))
      ('[' :: (blank ++ ((',' :: blank).intercalate (part :: parts) ++ (blank' ++ [']'])))) := by
  intro fuel rest hfuel _
  rw [intercalate_cons] at hfuel ⊢
  simp only [List.length_append, List.length_cons, List.length_nil] at hfuel
  obtain ⟨fuel, rfl⟩ := Nat.exists_eq_add_one.2 (show 0 < fuel by omega)
  simp only [List.cons_append, List.append_assoc, List.nil_append]
  have hends : EndsNumber (others blank parts ++ (blank' ++ ']' :: rest)) := by
    cases parts with
    | nil => exact hblank'.endsNumber (.cons (by decide))
    | cons next parts => exact .cons (by decide)
  obtain ⟨hne, hopen⟩ := hitem.head hends
  rw [← hblank.skipSpace_append] at hne
  simp only [← hblank.skipSpace_append (part ++ _)] at hopen
  refine scanValue_arr hne hopen (scanItems_parts hblank hblank hblank' hitem hitems ?_)
  rw [List.length_append]
  omega

/-- The text of a field: its key, a colon and its value. -/
def ScansField (field : String × Json) (part : List Char) : Prop :=
  ∃ blank text, IsBlank blank ∧ Scans field.2 text ∧
    part = printString field.1 ++ ':' :: (blank ++ text)

/-- Behind a field stands either the bracket that closes the object or the next field. -/
theorem scanFields_field {field : String × Json} {part : List Char} (hfield : ScansField field part)
    (hfuel : 2 * part.length ≤ fuel + 1) (hrest : EndsNumber rest) :
    (∀ after, skipSpace rest = '\x7d' :: after →
      scanFields (fuel + 1) (part ++ rest) =
        ([(.str field.1, ofJson field.2)], none, some after)) ∧
    (∀ after, skipSpace rest = ',' :: after →
      scanFields (fuel + 1) (part ++ rest) =
        ((.str field.1, ofJson field.2) :: (scanFields fuel (skipSpace after)).1,
          (scanFields fuel (skipSpace after)).2)) := by
  obtain ⟨key, v⟩ := field
  obtain ⟨blank, text, hblank, hscans, rfl⟩ := hfield
  dsimp only at hscans hfuel ⊢
  simp only [List.length_append, List.length_cons] at hfuel
  have hcolon : ∀ text, skipSpace (':' :: text) = ':' :: text := fun _ => rfl
  have hkey := scanString_escaped key.toList (':' :: (blank ++ (text ++ rest)))
  rw [String.ofList_toList] at hkey
  have hvalue : scanValue fuel (blank ++ (text ++ rest)) = (ofJson v, some rest) := by
    rw [scanValue_congr (hblank.skipSpace_append _), hscans fuel _ (by omega) hrest]
  constructor
  all_goals
    intro after hafter
    simp only [printString, List.cons_append, List.append_assoc, List.nil_append, scanFields, hkey,
      hcolon, hvalue, Option.map_some, hafter]

theorem ScansField.head {field : String × Json} {part : List Char} (h : ScansField field part) :
    ∃ text, part = '"' :: text := by
  obtain ⟨blank, text, -, -, rfl⟩ := h
  exact ⟨_, rfl⟩

theorem ScansField.pos {field : String × Json} {part : List Char} (h : ScansField field part)
    (hfuel : 2 * part.length ≤ fuel) : 0 < fuel := by
  obtain ⟨text, rfl⟩ := h.head
  rw [List.length_cons] at hfuel
  omega

theorem ScansField.skipSpace_append {field : String × Json} {part : List Char}
    (h : ScansField field part) (rest : List Char) : skipSpace (part ++ rest) = part ++ rest := by
  obtain ⟨text, rfl⟩ := h.head
  rfl

theorem scanFields_parts {fields : List (String × Json)} {parts : List (List Char)}
    {field : String × Json} {part : List Char} (hblank : IsBlank blank) (hblank' : IsBlank blank')
    (hfield : ScansField field part) (hfields : List.Forall₂ ScansField fields parts)
    (hfuel : 2 * (part ++ others blank parts).length ≤ fuel) :
    scanFields fuel (part ++ (others blank parts ++ (blank' ++ '\x7d' :: rest))) =
      (ofFields (field :: fields), none, some rest) := by
  induction hfields generalizing field part fuel with
  | nil =>
    obtain ⟨fuel, rfl⟩ := Nat.exists_eq_add_one.2 (hfield.pos (by simpa [others] using hfuel))
    have hends : EndsNumber (blank' ++ '\x7d' :: rest) := hblank'.endsNumber (.cons (by decide))
    rw [others, List.append_nil] at hfuel
    exact (scanFields_field hfield (by omega) hends).1 rest (hblank'.skipSpace_append _)
  | @cons next nextPart fields parts hnext _ ih =>
    rw [others, List.length_append, List.length_cons, List.length_append] at hfuel
    obtain ⟨fuel, rfl⟩ := Nat.exists_eq_add_one.2 (show 0 < fuel by omega)
    have hfollowing := ih hnext (show _ ≤ fuel by omega)
    rw [others, List.cons_append,
      (scanFields_field hfield (by omega) (.cons (by decide))).2 _ rfl, List.append_assoc,
      List.append_assoc, hblank.skipSpace_append, hnext.skipSpace_append, hfollowing]
    rfl

theorem scanValue_obj {fields : List (Draft × Draft)} {cut : Option Cut}
    {after : Option (List Char)} (hopen : ∃ rest, skipSpace text = '"' :: rest)
    (h : scanFields fuel (skipSpace text) = (fields, cut, after)) :
    scanValue (fuel + 1) ('\x7b' :: text) = (.obj fields cut, after) := by
  obtain ⟨rest, hopen⟩ := hopen
  have hbracket : skipSpace ('\x7b' :: text) = '\x7b' :: text := rfl
  rw [hopen] at h
  rw [scanValue]
  simp only [hbracket, hopen]
  change (Draft.obj (scanFields fuel ('"' :: rest)).1 _, _) = _
  rw [h]

theorem Scans.obj {fields : List (String × Json)} {parts : List (List Char)}
    {field : String × Json} {part : List Char} (hblank : IsBlank blank) (hblank' : IsBlank blank')
    (hfield : ScansField field part) (hfields : List.Forall₂ ScansField fields parts) :
    Scans (.obj (field :: fields))
      ('\x7b' :: (blank ++
        ((',' :: blank).intercalate (part :: parts) ++ (blank' ++ ['\x7d'])))) := by
  intro fuel rest hfuel _
  rw [intercalate_cons] at hfuel ⊢
  simp only [List.length_append, List.length_cons, List.length_nil] at hfuel
  obtain ⟨fuel, rfl⟩ := Nat.exists_eq_add_one.2 (show 0 < fuel by omega)
  simp only [List.cons_append, List.append_assoc, List.nil_append]
  have hskip := hblank.skipSpace_append
    (part ++ (others blank parts ++ (blank' ++ '\x7d' :: rest)))
  rw [hfield.skipSpace_append] at hskip
  refine scanValue_obj ?_ ?_
  · obtain ⟨text, rfl⟩ := hfield.head
    exact ⟨_, hskip⟩
  · rw [hskip]
    refine scanFields_parts hblank hblank' hfield hfields ?_
    rw [List.length_append]
    omega

/-! ## The printed forms -/

/-- The parts of a container between its brackets, with commas and blanks. -/
def enclosed (opening closing : Char) (blank blank' : List Char) (parts : List (List Char)) :
    List Char :=
  if parts.isEmpty then [opening, closing]
  else opening :: (blank ++ ((',' :: blank).intercalate parts ++ (blank' ++ [closing])))

theorem Scans.items {items : List Json} (write : Json → List Char) (hblank : IsBlank blank)
    (hblank' : IsBlank blank') (h : ∀ item ∈ items, Scans item (write item)) :
    Scans (.arr items) (enclosed '[' ']' blank blank' (items.map write)) := by
  cases items with
  | nil =>
    intro fuel rest hfuel _
    cases fuel with
    | zero => exact absurd (show 4 ≤ 1 from hfuel) (by decide)
    | succ fuel => rfl
  | cons item items =>
    obtain ⟨hitem, hitems⟩ := List.forall_mem_cons.1 h
    refine .arr hblank hblank' hitem ?_
    rw [List.forall₂_map_right_iff, List.forall₂_same]
    exact hitems

theorem Scans.fields {fields : List (String × Json)} {colon : List Char}
    (write : Json → List Char) (hblank : IsBlank blank) (hblank' : IsBlank blank')
    (hcolon : IsBlank colon) (h : ∀ field ∈ fields, Scans field.2 (write field.2)) :
    Scans (.obj fields) (enclosed '\x7b' '\x7d' blank blank'
      (fields.map fun field => printString field.1 ++ ':' :: (colon ++ write field.2))) := by
  have hfields : ∀ field ∈ fields,
      ScansField field (printString field.1 ++ ':' :: (colon ++ write field.2)) :=
    fun field hfield => ⟨colon, write field.2, hcolon, h field hfield, rfl⟩
  cases fields with
  | nil =>
    intro fuel rest hfuel _
    cases fuel with
    | zero => exact absurd (show 4 ≤ 1 from hfuel) (by decide)
    | succ fuel => rfl
  | cons field fields =>
    obtain ⟨hfield, hfields⟩ := List.forall_mem_cons.1 hfields
    refine .obj hblank hblank' hfield ?_
    rw [List.forall₂_map_right_iff, List.forall₂_same]
    exact hfields

theorem compact_arr (items : List Json) :
    (Json.arr items).compact = enclosed '[' ']' [] [] (items.map Json.compact) := by
  rw [Json.compact, Json.compactItems_eq]
  cases items <;> rfl

theorem compact_obj (fields : List (String × Json)) :
    (Json.obj fields).compact = enclosed '\x7b' '\x7d' [] []
      (fields.map fun field => printString field.1 ++ ':' :: ([] ++ field.2.compact)) := by
  rw [Json.compact, Json.compactFields_eq]
  cases fields <;> rfl

theorem block_eq (opening closing : Char) (depth : Nat) (parts : List (List Char)) :
    Json.block opening closing depth parts =
      enclosed opening closing (Json.newline (depth + 1)) (Json.newline depth) parts := by
  unfold Json.block enclosed
  simp only [List.cons_append, List.append_assoc]

theorem indented_arr (items : List Json) (depth : Nat) :
    (Json.arr items).indented depth =
      enclosed '[' ']' (Json.newline (depth + 1)) (Json.newline depth)
        (items.map fun item => item.indented (depth + 1)) := by
  rw [Json.indented, Json.indentedItems_eq, block_eq]

theorem indented_obj (fields : List (String × Json)) (depth : Nat) :
    (Json.obj fields).indented depth =
      enclosed '\x7b' '\x7d' (Json.newline (depth + 1)) (Json.newline depth)
        (fields.map fun field =>
          printString field.1 ++ ':' :: ([' '] ++ field.2.indented (depth + 1))) := by
  rw [Json.indented, Json.indentedFields_eq, block_eq]
  rfl

theorem isBlank_newline (depth : Nat) : IsBlank (Json.newline depth) := by
  intro c hc
  rcases List.mem_cons.1 hc with rfl | hc
  · rfl
  · rw [List.eq_of_mem_replicate hc]
    rfl

theorem scans_compact (h : ∀ n ∈ v.numbers, n.readsBack = true) : Scans v v.compact := by
  induction v using Json.induction with
  | null => exact .null
  | bool b => exact .bool b
  | num n => exact .num (h n List.mem_cons_self)
  | str s => exact .str s
  | arr items ih =>
    rw [compact_arr]
    exact .items Json.compact .nil .nil fun item hitem => ih item hitem fun n hn =>
      h n (Json.mem_numbers_arr hitem hn)
  | obj fields ih =>
    rw [compact_obj]
    exact .fields Json.compact .nil .nil .nil fun field hfield => ih field hfield fun n hn =>
      h n (Json.mem_numbers_obj hfield hn)

theorem scans_indented (h : ∀ n ∈ v.numbers, n.readsBack = true) (depth : Nat) :
    Scans v (v.indented depth) := by
  induction v using Json.induction generalizing depth with
  | null => exact .null
  | bool b => exact .bool b
  | num n => exact .num (h n List.mem_cons_self)
  | str s => exact .str s
  | arr items ih =>
    rw [indented_arr]
    exact .items (·.indented (depth + 1)) (isBlank_newline _) (isBlank_newline _)
      fun item hitem => ih item hitem (fun n hn => h n (Json.mem_numbers_arr hitem hn)) _
  | obj fields ih =>
    rw [indented_obj]
    exact .fields (·.indented (depth + 1)) (isBlank_newline _) (isBlank_newline _)
      (isBlank_singleton rfl) fun field hfield =>
        ih field hfield (fun n hn => h n (Json.mem_numbers_obj hfield hn)) _

/-! ## Values of drafts -/

theorem toFields_ofFields {fields read : List (String × Json)} {room : Nat}
    (hkeys : (Entries.keys (read ++ fields)).Nodup)
    (h : ∀ field ∈ fields, (ofJson field.2).toJson room = .ok field.2) :
    toFields (ofFields fields) none room read = .ok (read ++ fields) := by
  induction fields generalizing read with
  | nil => rw [List.append_nil]; rfl
  | cons field fields ih =>
    obtain ⟨key, v⟩ := field
    obtain ⟨hv, hrest⟩ := List.forall_mem_cons.1 h
    rw [ofFields, toFields]
    dsimp only at hv
    simp only [toKey, hv, Entries.insert_of_nodup hkeys, bind, Except.bind]
    rw [ih (by rwa [List.append_assoc]) hrest, List.append_assoc]
    rfl

theorem toItems_ofItems {items : List Json} {room : Nat}
    (h : ∀ item ∈ items, (ofJson item).toJson room = .ok item) :
    toItems (ofItems items) none room = .ok items := by
  induction items with
  | nil => rfl
  | cons item items ih =>
    obtain ⟨hitem, hrest⟩ := List.forall_mem_cons.1 h
    rw [ofItems, toItems, hitem, ih hrest]
    rfl

theorem toJson_ofJson {room : Nat} (hkeys : v.everyObject Json.keysDiffer = true)
    (hdepth : v.depth ≤ room) : (ofJson v).toJson room = .ok v := by
  induction v using Json.induction generalizing room with
  | null => rfl
  | bool b => rfl
  | num n => rfl
  | str s => rfl
  | arr items ih =>
    cases room with
    | zero => exact absurd hdepth (Nat.not_succ_le_zero _)
    | succ room =>
      have hitems := toItems_ofItems fun item hitem =>
        ih item hitem (Json.everyObject_arr.1 hkeys item hitem)
          (Json.depth_arr_le.1 hdepth item hitem)
      rw [ofJson, toJson, hitems]
      rfl
  | obj fields ih =>
    cases room with
    | zero => exact absurd hdepth (Nat.not_succ_le_zero _)
    | succ room =>
      obtain ⟨hdiffer, hkeys⟩ := Json.everyObject_obj.1 hkeys
      have hnodup : (Entries.keys ([] ++ fields)).Nodup := of_decide_eq_true hdiffer
      have hfields := toFields_ofFields hnodup fun field hfield =>
        ih field hfield (hkeys field hfield) (Json.depth_obj_le.1 hdepth field hfield)
      rw [ofJson, toJson, hfields]
      rfl

theorem Scans.parse (h : Scans v text) (hblank : IsBlank blank)
    (hkeys : v.everyObject Json.keysDiffer = true) (hdepth : v.depth ≤ maxDepth) :
    Json.parse (text ++ blank) = some v := by
  have hskip : skipSpace blank = [] := by
    rw [← List.append_nil blank]
    exact hblank.skipSpace_append []
  rw [Json.parse, h.whole hblank]
  simp only [hskip, List.isEmpty_nil, if_true, toJson_ofJson hkeys hdepth]
  rfl

end TypeSchema.Draft
