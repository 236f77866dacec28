import Mathlib.Data.List.Basic
import TypeSchema.QualifiedName

/-!
# The tokens of a qualified name

A name is made of text, of literals, and of qualifiers, each a quoted path with a point behind it.
Quotation marks do not say whether they open or close.  The mark that closes a literal is tried as
one that opens a qualifier, and it does open one if text and then a quoted token that begins with a
point follow it.
-/

namespace TypeSchema.QualifiedName

/-! ## Tokens -/

inductive Token where
  | text (s : List Char)
  | literal (s : List Char)
  | qualifier (path : List Char)

def Token.chars : Token → List Char
  | .text s => s
  | .literal s => '"' :: s ++ ['"']
  | .qualifier path => '"' :: path ++ ['"', '.']

def Token.isQualifier : Token → Bool
  | .qualifier _ => true
  | _ => false

def written (tokens : List Token) : List Char := tokens.flatMap Token.chars

def name (tokens : List Token) : String := String.ofList (written tokens)

def unqualified (tokens : List Token) : List Token := tokens.filter (!·.isQualifier)

/-- No token has a quotation mark inside, and no point follows a literal. -/
def WellFormed : List Token → Prop
  | [] => True
  | .text s :: rest => '"' ∉ s ∧ WellFormed rest
  | .literal s :: rest => '"' ∉ s ∧ (written rest).head? ≠ some '.' ∧ WellFormed rest
  | .qualifier path :: rest => '"' ∉ path ∧ WellFormed rest

variable {s path v w : List Char} {tokens after : List Token}

@[simp] theorem written_nil : written [] = [] := rfl

@[simp] theorem written_text : written (.text s :: tokens) = s ++ written tokens := rfl

@[simp] theorem written_literal :
    written (.literal s :: tokens) = '"' :: (s ++ '"' :: written tokens) := by
  simp [written, Token.chars]

@[simp] theorem written_qualifier :
    written (.qualifier path :: tokens) = '"' :: (path ++ '"' :: '.' :: written tokens) := by
  simp [written, Token.chars]

@[simp] theorem unqualified_nil : unqualified [] = [] := rfl

@[simp] theorem unqualified_text :
    unqualified (.text s :: tokens) = .text s :: unqualified tokens := rfl

@[simp] theorem unqualified_literal :
    unqualified (.literal s :: tokens) = .literal s :: unqualified tokens := rfl

@[simp] theorem unqualified_qualifier :
    unqualified (.qualifier path :: tokens) = unqualified tokens := rfl

/-! ## What becomes of a token -/

/-- What is left of the tokens when no mark is open. -/
def outside (tokens : List Token) : List Char := stripFrom (written tokens) none

/-- What is left of a mark, the text since, and the tokens. -/
def behind (v : List Char) (tokens : List Token) : List Char :=
  stripFrom (written tokens) (some v.reverse)

theorem stripFrom_append_none (hs : '"' ∉ s) (rest : List Char) :
    stripFrom (s ++ rest) none = s ++ stripFrom rest none := by
  induction s with
  | nil => rfl
  | cons c s ih =>
      rw [List.mem_cons, not_or] at hs
      rw [List.cons_append, stripFrom, ih hs.2, List.cons_append]
      exact fun h => hs.1 h.symm

theorem stripFrom_append_some (hs : '"' ∉ s) (quoted rest : List Char) :
    stripFrom (s ++ rest) (some quoted) = stripFrom rest (some (s.reverse ++ quoted)) := by
  induction s generalizing quoted with
  | nil => rfl
  | cons c s ih =>
      rw [List.mem_cons, not_or] at hs
      rw [List.cons_append, stripFrom, ih hs.2, List.reverse_cons, List.append_assoc]
      · rfl
      · exact fun _ h _ => hs.1 h.symm
      · exact fun h => hs.1 h.symm

/-- A mark that no point follows is left, and may open a qualifier itself. -/
theorem stripFrom_mark {rest : List Char} (hrest : rest.head? ≠ some '.') (v : List Char) :
    stripFrom ('"' :: rest) (some v.reverse) = '"' :: v ++ stripFrom rest (some []) := by
  cases rest with
  | nil => simp [stripFrom]
  | cons c rest =>
      rw [stripFrom, List.reverse_reverse]
      rintro _ h
      cases h
      exact hrest rfl

theorem stripFrom_mark_point (rest quoted : List Char) :
    stripFrom ('"' :: '.' :: rest) (some quoted) = stripFrom rest none := rfl

theorem head?_append_mark (rest : List Char) :
    (s ++ '"' :: rest).head? = some '.' ↔ s.head? = some '.' := by
  cases s <;> simp

theorem outside_text (hs : '"' ∉ s) : outside (.text s :: tokens) = s ++ outside tokens :=
  stripFrom_append_none hs _

theorem outside_literal (hs : '"' ∉ s) (hnext : (written tokens).head? ≠ some '.') :
    outside (.literal s :: tokens) = '"' :: s ++ behind [] tokens := by
  rw [outside, written_literal, stripFrom, stripFrom_append_some hs, List.append_nil,
    stripFrom_mark hnext]
  rfl

theorem outside_qualifier (hpath : '"' ∉ path) :
    outside (.qualifier path :: tokens) = outside tokens := by
  rw [outside, written_qualifier, stripFrom, stripFrom_append_some hpath, stripFrom_mark_point]
  rfl

theorem behind_text (hs : '"' ∉ s) : behind v (.text s :: tokens) = behind (v ++ s) tokens := by
  rw [behind, written_text, stripFrom_append_some hs, ← List.reverse_append]
  rfl

theorem behind_literal (hs : '"' ∉ s) (hpoint : s.head? ≠ some '.')
    (hnext : (written tokens).head? ≠ some '.') :
    behind v (.literal s :: tokens) = '"' :: v ++ '"' :: s ++ behind [] tokens := by
  have hopen : (s ++ '"' :: written tokens).head? ≠ some '.' := by rwa [ne_eq, head?_append_mark]
  rw [behind, written_literal, stripFrom_mark hopen, stripFrom_append_some hs, List.append_nil,
    stripFrom_mark hnext]
  simp [behind]

theorem behind_literal_point (hs : '"' ∉ s) :
    behind v (.literal ('.' :: s) :: tokens) = s ++ behind [] tokens := by
  rw [behind, written_literal, List.cons_append, stripFrom_mark_point, stripFrom_append_none hs,
    stripFrom]
  rfl

theorem behind_qualifier (hpath : '"' ∉ path) (hpoint : path.head? ≠ some '.') :
    behind v (.qualifier path :: tokens) = '"' :: v ++ outside tokens := by
  have hopen : (path ++ '"' :: '.' :: written tokens).head? ≠ some '.' := by
    rwa [ne_eq, head?_append_mark]
  rw [behind, written_qualifier, stripFrom_mark hopen, stripFrom_append_some hpath,
    stripFrom_mark_point]
  rfl

theorem behind_qualifier_point (hpath : '"' ∉ path) :
    behind v (.qualifier ('.' :: path) :: tokens) = path ++ behind ['.'] tokens := by
  rw [behind, written_qualifier, List.cons_append, stripFrom_mark_point,
    stripFrom_append_none hpath]
  rfl

/-! ## Marks that are left -/

/-- Behind a mark there is at most this mark more than there is to be. -/
theorem count_marks_le (h : WellFormed tokens) :
    (outside tokens).count '"' ≤ (written (unqualified tokens)).count '"' ∧
      ∀ v, '"' ∉ v →
        (behind v tokens).count '"' ≤ (written (unqualified tokens)).count '"' + 1 := by
  have hcount {s : List Char} (hs : '"' ∉ s) : s.count '"' = 0 := List.count_eq_zero.2 hs
  induction tokens with
  | nil =>
      refine ⟨Nat.le_refl _, fun v hv => ?_⟩
      simp [behind, stripFrom, hcount hv]
  | cons token rest ih =>
      cases token with
      | text s =>
          obtain ⟨hs, hrest⟩ := h
          obtain ⟨houtside, hbehind⟩ := ih hrest
          refine ⟨?_, fun v hv => ?_⟩
          · simpa [outside_text hs, hcount hs] using houtside
          · simpa [behind_text hs, hcount hs] using hbehind (v ++ s) (by simp [hv, hs])
      | literal s =>
          obtain ⟨hs, hnext, hrest⟩ := h
          have hbehind := (ih hrest).2 [] List.not_mem_nil
          refine ⟨?_, fun v hv => ?_⟩
          · simp [outside_literal hs hnext, hcount hs]
            omega
          · by_cases hpoint : s.head? = some '.'
            · obtain ⟨s, rfl⟩ := List.head?_eq_some_iff.1 hpoint
              have hs := List.not_mem_of_not_mem_cons hs
              simp [behind_literal_point hs, hcount hs]
              omega
            · simp [behind_literal hs hpoint hnext, hcount hs, hcount hv]
              omega
      | qualifier path =>
          obtain ⟨hpath, hrest⟩ := h
          obtain ⟨houtside, hbehind⟩ := ih hrest
          refine ⟨?_, fun v hv => ?_⟩
          · simpa [outside_qualifier hpath] using houtside
          · by_cases hpoint : path.head? = some '.'
            · obtain ⟨path, rfl⟩ := List.head?_eq_some_iff.1 hpoint
              have hpath := List.not_mem_of_not_mem_cons hpath
              simpa [behind_qualifier_point hpath, hcount hpath] using hbehind ['.'] (by decide)
            · simpa [behind_qualifier hpath hpoint, hcount hv] using houtside

/-- The text in front of the first mark. -/
def lead (text : List Char) : List Char := text.takeWhile (· ≠ '"')

theorem lead_mark (text text' : List Char) : lead ('"' :: text) = lead ('"' :: text') := rfl

theorem lead_append (hs : '"' ∉ s) (rest : List Char) : lead (s ++ rest) = s ++ lead rest :=
  List.takeWhile_append_of_pos fun _ hc => decide_eq_true fun h => hs (h ▸ hc)

theorem lead_outside (h : WellFormed tokens) :
    lead (outside tokens) = lead (written (unqualified tokens)) := by
  induction tokens with
  | nil => rfl
  | cons token rest ih =>
      cases token with
      | text s =>
          rw [outside_text h.1, unqualified_text, written_text, lead_append h.1, lead_append h.1,
            ih h.2]
      | literal s =>
          rw [outside_literal h.1 h.2.1, unqualified_literal, written_literal]
          rfl
      | qualifier path => rw [outside_qualifier h.1, unqualified_qualifier, ih h.2]

/-- Texts are alike just if they are so up to the first mark and from it on. -/
theorem append_eq_append_iff {text text' : List Char} (hv : '"' ∉ v) (hw : '"' ∉ w)
    (hlead : lead text = lead text') : v ++ text = w ++ text' ↔ v = w ∧ text = text' := by
  constructor
  · intro h
    have heq : v = w := by
      have hsame := congrArg lead h
      rwa [lead_append hv, lead_append hw, hlead, List.append_left_inj] at hsame
    subst heq
    exact ⟨rfl, List.append_right_inj v |>.1 h⟩
  · rintro ⟨rfl, rfl⟩
    rfl

/-! ## Literals that are left alone -/

/-- Only text comes before the next quoted token, if any, and that does not begin with a point. -/
def Clear : List Token → Prop
  | [] => True
  | .text _ :: rest => Clear rest
  | .literal s :: _ => s.head? ≠ some '.'
  | .qualifier path :: _ => path.head? ≠ some '.'

/-- All text between the tokens, after the text `w`, is a point between qualifiers whose path is a
point: what is dropped instead of such a qualifier looks like one. -/
def Mended (w : List Char) (tokens : List Token) : Prop :=
  ∃ before rest, tokens = before ++ .qualifier ['.'] :: rest ∧
    (∀ token ∈ before, (∃ s, token = .text s) ∨ token = .qualifier ['.']) ∧
    w ++ written (unqualified before) = ['.'] ∧ Clear rest

theorem mended_text : Mended w (.text s :: tokens) ↔ Mended (w ++ s) tokens := by
  constructor
  · rintro ⟨before, rest, heq, hbefore, hw, hclear⟩
    rcases List.cons_eq_append_iff.1 heq with ⟨rfl, h⟩ | ⟨before, rfl, rfl⟩
    · cases h
    · refine ⟨before, rest, rfl, (List.forall_mem_cons.1 hbefore).2, ?_, hclear⟩
      rwa [unqualified_text, written_text, ← List.append_assoc] at hw
  · rintro ⟨before, rest, rfl, hbefore, hw, hclear⟩
    rw [List.append_assoc] at hw
    exact ⟨.text s :: before, rest, rfl,
      List.forall_mem_cons.2 ⟨.inl ⟨s, rfl⟩, hbefore⟩, hw, hclear⟩

theorem mended_point :
    Mended w (.qualifier ['.'] :: tokens) ↔ w = ['.'] ∧ Clear tokens ∨ Mended w tokens := by
  constructor
  · rintro ⟨before, rest, heq, hbefore, hw, hclear⟩
    rcases List.cons_eq_append_iff.1 heq with ⟨rfl, h⟩ | ⟨before, rfl, rfl⟩
    · cases h
      rw [unqualified_nil, written_nil, List.append_nil] at hw
      exact .inl ⟨hw, hclear⟩
    · exact .inr ⟨before, rest, rfl, (List.forall_mem_cons.1 hbefore).2, hw, hclear⟩
  · rintro (⟨rfl, hclear⟩ | ⟨before, rest, rfl, hbefore, hw, hclear⟩)
    · exact ⟨[], tokens, rfl, List.forall_mem_nil _, rfl, hclear⟩
    · exact ⟨.qualifier ['.'] :: before, rest, rfl,
        List.forall_mem_cons.2 ⟨.inr rfl, hbefore⟩, hw, hclear⟩

theorem not_mended {token : Token} (htext : ∀ s, token ≠ .text s)
    (hpoint : token ≠ .qualifier ['.']) : ¬ Mended w (token :: tokens) := by
  rintro ⟨before, rest, heq, hbefore, -⟩
  rcases List.cons_eq_append_iff.1 heq with ⟨rfl, h⟩ | ⟨before, rfl, -⟩
  · cases h
    exact hpoint rfl
  · rcases (List.forall_mem_cons.1 hbefore).1 with ⟨s, rfl⟩ | rfl
    · exact htext s rfl
    · exact hpoint rfl

/-- The tokens behind a literal leave it alone, wherever there is one. -/
def Harmless (tokens : List Token) : Prop :=
  ∀ s after, .literal s :: after <:+ tokens → Clear after ∨ Mended [] after

@[simp] theorem harmless_nil : Harmless [] := by
  intro s after h
  cases List.suffix_nil.1 h

@[simp] theorem harmless_text : Harmless (.text s :: tokens) ↔ Harmless tokens := by
  simp [Harmless, List.suffix_cons_iff]

@[simp] theorem harmless_literal :
    Harmless (.literal s :: tokens) ↔ (Clear tokens ∨ Mended [] tokens) ∧ Harmless tokens := by
  simp only [Harmless, List.suffix_cons_iff]
  constructor
  · exact fun h => ⟨h s tokens (.inl rfl), fun s after hsuffix => h s after (.inr hsuffix)⟩
  · rintro ⟨hafter, hrest⟩ s after (h | hsuffix)
    · cases h
      exact hafter
    · exact hrest s after hsuffix

@[simp] theorem harmless_qualifier : Harmless (.qualifier path :: tokens) ↔ Harmless tokens := by
  simp [Harmless, List.suffix_cons_iff]

/-! ## What is left of the tokens -/

/-- Behind a mark the text `v` is left where `w` is to be, and the tokens make up for it. -/
def MakesUp (v w : List Char) (tokens : List Token) : Prop :=
  v = w ∧ Clear tokens ∨ Mended w tokens

/-- The tokens without qualifiers are left, both outside and behind a mark, just if no literal is
harmed. -/
structure LeftIff (tokens : List Token) : Prop where
  outside_iff : outside tokens = written (unqualified tokens) ↔ Harmless tokens
  behind_iff : ∀ v w, '"' ∉ v → '"' ∉ w →
    (behind v tokens = '"' :: (w ++ written (unqualified tokens)) ↔
      MakesUp v w tokens ∧ Harmless tokens)

theorem leftIff_nil : LeftIff [] where
  outside_iff := by simp [outside, stripFrom]
  behind_iff v w _ _ := by simp [behind, stripFrom, MakesUp, Clear, Mended]

theorem LeftIff.text (h : LeftIff tokens) (hs : '"' ∉ s) : LeftIff (.text s :: tokens) where
  outside_iff := by
    rw [outside_text hs, unqualified_text, written_text, List.append_right_inj, h.outside_iff,
      harmless_text]
  behind_iff v w hv hw := by
    have hbehind := h.behind_iff (v ++ s) (w ++ s) (by simp [hv, hs]) (by simp [hw, hs])
    rw [List.append_assoc, MakesUp, List.append_left_inj] at hbehind
    rw [behind_text hs, unqualified_text, written_text, hbehind, MakesUp, mended_text,
      harmless_text, Clear]

theorem LeftIff.literal (h : LeftIff tokens) (hrest : WellFormed tokens) (hs : '"' ∉ s)
    (hnext : (written tokens).head? ≠ some '.') : LeftIff (.literal s :: tokens) := by
  have hclosing : behind [] tokens = '"' :: written (unqualified tokens) ↔
      (Clear tokens ∨ Mended [] tokens) ∧ Harmless tokens := by
    simpa [MakesUp] using h.behind_iff [] [] List.not_mem_nil List.not_mem_nil
  refine ⟨?_, fun v w hv hw => ?_⟩
  · rw [outside_literal hs hnext, unqualified_literal, written_literal, List.cons_append,
      List.cons_inj_right, List.append_right_inj, hclosing, harmless_literal]
  · have hmended : ¬ Mended w (.literal s :: tokens) := not_mended nofun nofun
    rw [unqualified_literal, written_literal]
    by_cases hpoint : s.head? = some '.'
    · -- The mark and that of this literal are dropped, so that too few marks are left.
      obtain ⟨s, rfl⟩ := List.head?_eq_some_iff.1 hpoint
      rw [List.mem_cons, not_or] at hs
      rw [behind_literal_point hs.2]
      refine iff_of_false (fun heq => ?_) (by simp [MakesUp, Clear, hmended])
      have hle := (count_marks_le hrest).2 [] List.not_mem_nil
      have hcount := congrArg (List.count '"') heq
      simp [List.count_eq_zero.2 hs.2, List.count_eq_zero.2 hw] at hcount
      omega
    · rw [behind_literal hs hpoint hnext, List.append_assoc, List.cons_append, List.cons_append,
        List.cons_inj_right, append_eq_append_iff hv hw (lead_mark _ _), List.cons_inj_right,
        List.append_right_inj, hclosing, harmless_literal, MakesUp, or_iff_left hmended, Clear]
      exact and_congr_left fun _ => (and_iff_left hpoint).symm

theorem LeftIff.qualifier (h : LeftIff tokens) (hrest : WellFormed tokens) (hpath : '"' ∉ path) :
    LeftIff (.qualifier path :: tokens) := by
  refine ⟨?_, fun v w hv hw => ?_⟩
  · rw [outside_qualifier hpath, unqualified_qualifier, h.outside_iff, harmless_qualifier]
  · rw [unqualified_qualifier, harmless_qualifier]
    by_cases hpoint : path.head? = some '.'
    · obtain ⟨path, rfl⟩ := List.head?_eq_some_iff.1 hpoint
      rw [List.mem_cons, not_or] at hpath
      rw [behind_qualifier_point hpath.2]
      cases path with
      | nil =>
          rw [List.nil_append, h.behind_iff ['.'] w (by decide) hw, MakesUp, MakesUp, mended_point,
            eq_comm]
          simp [Clear]
      | cons c path =>
          -- What is left of the path stands where a mark is to be.
          have hmended : ¬ Mended w (.qualifier ('.' :: c :: path) :: tokens) :=
            not_mended nofun (by simp)
          refine iff_of_false (fun heq => ?_) (by simp [MakesUp, Clear, hmended])
          obtain ⟨rfl, -⟩ := List.cons.inj heq
          exact hpath.2 List.mem_cons_self
    · have hmended : ¬ Mended w (.qualifier path :: tokens) := by
        refine not_mended nofun fun heq => ?_
        cases heq
        exact hpoint rfl
      rw [behind_qualifier hpath hpoint, List.cons_append, List.cons_inj_right,
        append_eq_append_iff hv hw (lead_outside hrest), h.outside_iff, MakesUp,
        or_iff_left hmended, Clear]
      exact and_congr_left fun _ => (and_iff_left hpoint).symm

theorem WellFormed.leftIff (h : WellFormed tokens) : LeftIff tokens := by
  induction tokens with
  | nil => exact leftIff_nil
  | cons token rest ih =>
      cases token with
      | text s => exact (ih h.2).text h.1
      | literal s => exact (ih h.2.2).literal h.2.2 h.1 h.2.1
      | qualifier path => exact (ih h.2).qualifier h.2 h.1

/-- From a name made of tokens just the qualifiers are dropped if and only if behind every literal
the next quoted token does not begin with a point, or what is dropped instead looks the same. -/
theorem stripModulePath_name_iff (h : WellFormed tokens) :
    stripModulePath (name tokens) = name (unqualified tokens) ↔
      ∀ s after, .literal s :: after <:+ tokens → Clear after ∨ Mended [] after := by
  rw [stripModulePath, name, name, String.toList_ofList, String.ofList_inj]
  exact h.leftIff.outside_iff

/-- `Record<"left", "src/sides".Side>` -/
def recordTokens : List Token :=
  [.text "Record<".toList, .literal "left".toList, .text ", ".toList,
    .qualifier "src/sides".toList, .text "Side>".toList]

theorem wellFormed_recordTokens : WellFormed recordTokens := by
  simp [WellFormed, recordTokens]

theorem stripModulePath_name_iff_record :
    WellFormed recordTokens ∧ stripModulePath (name recordTokens) = "Record<\"left\", Side>" ∧
      (stripModulePath (name recordTokens) = name (unqualified recordTokens) ↔
        ∀ s after, .literal s :: after <:+ recordTokens → Clear after ∨ Mended [] after) :=
  ⟨wellFormed_recordTokens, by decide +kernel, stripModulePath_name_iff wellFormed_recordTokens⟩

/-- `Array<".js" | ".ts">` -/
def unionTokens : List Token :=
  [.text "Array<".toList, .literal ".js".toList, .text " | ".toList, .literal ".ts".toList,
    .text ">".toList]

/-- Two literals may become one. -/
theorem literal_may_be_harmed :
    ¬ ∀ tokens, WellFormed tokens →
      stripModulePath (name tokens) = name (unqualified tokens) := by
  intro hclaim
  have hunion := hclaim unionTokens (by simp [WellFormed, unionTokens])
  have hstripped : stripModulePath (name unionTokens) = "Array<\".jsts\">" := by decide +kernel
  rw [hstripped] at hunion
  exact absurd hunion (by decide +kernel)

end TypeSchema.QualifiedName
