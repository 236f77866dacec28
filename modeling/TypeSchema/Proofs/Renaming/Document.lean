import Mathlib.Logic.Equiv.Basic
import TypeSchema.Document
import TypeSchema.Proofs.Renaming.Schema

/-!
# Documents of renamed graphs

The ids of a graph are not seen in its documents.  A graph and one that it is renamed to have equal
documents for the same target and settings, or there is none for either, or both generations fail
with failures of one kind.
-/

namespace TypeSchema

namespace Document

variable {r : Pairing} {env env' : Environment} {g g' : Graph}

section

variable (h : env.Renamed r env')

include h

theorem define_renamed {type type' : TypeId} (htype : r.types type type') (asRef : Bool) :
    Describing.Parallel r Eq (Schema.define env type (Context.standing asRef))
      (Schema.define env' type' (Context.standing asRef)) :=
  Schema.typeDefinition_renamed h Schema.maxDepth htype (Context.renamed_standing r asRef)

theorem forType_renamed (name : String) :
    Describing.Parallel r Eq (forType env name) (forType env' name) := by
  have hfound : Option.Rel r.types (env.table.all.find? name) (env'.table.all.find? name) :=
    h.table.all.find? name
  unfold forType
  rw [h.settings]
  generalize env.table.all.find? name = found at hfound
  generalize env'.table.all.find? name = found' at hfound
  cases hfound with
  | none => exact .throw rfl
  | some htype =>
      refine (define_renamed h htype _).bind fun root _ hroot => Run.Parallel.get.bind
        fun p p' hp => ?_
      rw [hroot, hp.registry]
      exact .pure rfl

theorem inlined_renamed {types types' : Entries String TypeId}
    (htypes : types.Alike r.types types') :
    Describing.Parallel r Eq (inlined env types) (inlined env' types') := by
  refine .forEach htypes fun entry entry' hentry =>
    (define_renamed h hentry.2 false).bind fun d _ hd => ?_
  rw [hd, hentry.1]
  exact .pure rfl

theorem forAllTypes_renamed : Describing.Parallel r Eq (forAllTypes env) (forAllTypes env') := by
  refine (inlined_renamed h h.table.user).bind fun definitions _ hdefinitions =>
    Run.Parallel.get.bind fun p p' hp => ?_
  rw [hdefinitions, hp.registry]
  exact .pure rfl

theorem forTarget_renamed (target : String) :
    Describing.Parallel r Eq (forTarget env target) (forTarget env' target) := by
  unfold forTarget
  split
  · exact forAllTypes_renamed h
  · exact forType_renamed h target

end

/-- Graphs that correspond are not told apart by what is generated from them. -/
theorem generate_alike (h : g.Renamed r g') (target : String) (settings : Settings) :
    Parallel Eq (generate g target settings).1 (generate g' target settings).1 := by
  have htable := SymbolTable.collect_renamed h
  unfold generate
  dsimp only
  rw [h.diagnostics]
  split
  · exact .ok rfl
  · generalize SymbolTable.collect g = collected at htable
    generalize SymbolTable.collect g' = collected' at htable
    obtain ⟨result, notices⟩ := collected
    obtain ⟨result', notices'⟩ := collected'
    cases htable with
    | error hfailure => exact .error hfailure
    | @ok table table' htable =>
        have henv : (environment g settings table).Renamed r (environment g' settings table') :=
          ⟨h, rfl, htable⟩
        have hinitial : Progress.Renamed r .initial .initial :=
          ⟨rfl, fun _ => iff_of_false List.not_mem_nil List.not_mem_nil⟩
        exact (forTarget_renamed henv target _ _ hinitial).outcome.map fun _ _ => congrArg some

/-- Renaming the ids of a graph, reordering its entries and adding others under ids that it does not
mention changes no document, and no failure but for what it names. -/
theorem generate_renamed {ρ : Renaming} (h : g.RenamesTo ρ g') (target : String)
    (settings : Settings) :
    Parallel Eq (generate g target settings).1 (generate g' target settings).1 :=
  generate_alike h.renamed target settings

/-! ## A renamed list -/

/-- `interface Link { next: Link | undefined }` -/
def linkGraph : Graph where
  modules := [⟨"list.ts", false, [⟨"1"⟩]⟩]
  declarations := ⟨[
    (⟨"1"⟩, { Declaration.blank with
      kind := .interface, symbol := some ⟨"1"⟩, members := [.property ⟨"2"⟩] }),
    (⟨"2"⟩, { Declaration.blank with kind := .property, symbol := some ⟨"2"⟩ })], by decide⟩
  symbols := ⟨[
    (⟨"1"⟩, { Symbol.blank with
      name := "Link", qualifiedName := "Link", type := some ⟨"1"⟩, declarations := [⟨"1"⟩] }),
    (⟨"2"⟩, { Symbol.blank with
      name := "next", type := some ⟨"3"⟩, declarations := [⟨"2"⟩] })], by decide⟩
  types := ⟨[
    (⟨"1"⟩, ⟨"Link", some ⟨"1"⟩, .object { ObjectType.blank with properties := [⟨"2"⟩] }⟩),
    (⟨"2"⟩, ⟨"undefined", none, .undefined⟩),
    (⟨"3"⟩, ⟨"Link | undefined", none, .union [⟨"1"⟩, ⟨"2"⟩]⟩)], by decide⟩
  diagnostics := []
  strictNullChecks := false

def linkRenaming : Renaming where
  types := Equiv.swap ⟨"1"⟩ ⟨"2"⟩
  symbols := Equiv.swap ⟨"1"⟩ ⟨"2"⟩
  declarations := Equiv.swap ⟨"1"⟩ ⟨"2"⟩

/-- The other way round, with an interface that nothing mentions. -/
def relinkedGraph : Graph where
  modules := [⟨"list.ts", false, [⟨"2"⟩]⟩]
  declarations := ⟨[
    (⟨"4"⟩, { Declaration.blank with kind := .interface, symbol := some ⟨"4"⟩ }),
    (⟨"1"⟩, { Declaration.blank with kind := .property, symbol := some ⟨"1"⟩ }),
    (⟨"2"⟩, { Declaration.blank with
      kind := .interface, symbol := some ⟨"2"⟩, members := [.property ⟨"1"⟩] })], by decide⟩
  symbols := ⟨[
    (⟨"4"⟩, { Symbol.blank with
      name := "Tree", qualifiedName := "Tree", type := some ⟨"4"⟩, declarations := [⟨"4"⟩] }),
    (⟨"1"⟩, { Symbol.blank with
      name := "next", type := some ⟨"3"⟩, declarations := [⟨"1"⟩] }),
    (⟨"2"⟩, { Symbol.blank with
      name := "Link", qualifiedName := "Link", type := some ⟨"2"⟩,
      declarations := [⟨"2"⟩] })], by decide⟩
  types := ⟨[
    (⟨"4"⟩, ⟨"Tree", some ⟨"4"⟩, .object { ObjectType.blank with baseTypes := [⟨"2"⟩] }⟩),
    (⟨"3"⟩, ⟨"Link | undefined", none, .union [⟨"2"⟩, ⟨"1"⟩]⟩),
    (⟨"1"⟩, ⟨"undefined", none, .undefined⟩),
    (⟨"2"⟩, ⟨"Link", some ⟨"2"⟩, .object { ObjectType.blank with properties := [⟨"1"⟩] }⟩)],
    by decide⟩
  diagnostics := []
  strictNullChecks := false

theorem generate_renamed_link :
    linkGraph.RenamesTo linkRenaming relinkedGraph ∧
      ∃ document, (generate linkGraph "Link" .default).1 = .ok (some document) ∧
        (generate relinkedGraph "Link" .default).1 = .ok (some document) := by
  have hrenames : linkGraph.RenamesTo linkRenaming relinkedGraph :=
    ⟨rfl,
      ⟨relinkedGraph.declarations.entries.take 1, (List.reverse_perm _).symm, by decide⟩,
      ⟨relinkedGraph.symbols.entries.take 1, (List.reverse_perm _).symm, by decide⟩,
      ⟨relinkedGraph.types.entries.take 1, (List.reverse_perm _).symm, by decide⟩, rfl, rfl⟩
  have hparallel := generate_renamed hrenames "Link" .default
  have hsome : (generate linkGraph "Link" .default).1.toOption.join.isSome = true := by
    decide +kernel
  generalize (generate linkGraph "Link" .default).1 = outcome at hparallel hsome ⊢
  generalize (generate relinkedGraph "Link" .default).1 = outcome' at hparallel ⊢
  cases hparallel with
  | error _ => cases hsome
  | ok heq =>
      obtain ⟨document, hdocument⟩ := Option.isSome_iff_exists.1 hsome
      cases hdocument
      cases heq
      exact ⟨hrenames, document, rfl, rfl⟩

end Document

end TypeSchema
