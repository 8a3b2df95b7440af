import FieldTables.Proofs.Artifact.Readback
import FieldTables.Proofs.Generation

/-!
# The two files agree

Both files are read back. Between its preamble and its closing line, the enum header has one
enumeration for each structure and then the declarations of each. Behind its front, the source has
one size table for each structure and then one accessor for each. All are in the order of the flat
header, and there is nothing else in either file. What is read agrees on the number of fields, on
the field that each place belongs to, and on the signature of the accessor.
-/

namespace FieldTables

open Text Outcome

/-- The lines of the source in front of what it defines: the notice, what the settings include, and
the two headers. -/
def Settings.front (settings : Settings) : List Text :=
  generatedNotice :: settings.includes.map ("#include ".toList ++ ·)
    ++ ["#include \"".toList ++ settings.structHeader ++ ['"'],
        "#include \"".toList ++ settings.headerName ++ ['"']]

/-- The text of paragraphs, each with an empty line behind it. -/
def Text.ofParagraphs (paragraphs : List (List Text)) : Text :=
  ['\n'].intercalate (paragraphs.map fun lines => ['\n'].intercalate (lines ++ [[]]))

namespace Header

variable {settings : Settings} {h : Header}

/-- The first paragraph of the enum header. -/
def preamble (settings : Settings) : List Text :=
  [generatedNotice, "#ifndef ".toList ++ settings.guard, "#define ".toList ++ settings.guard]

/-- The last line of the enum header. -/
def closing (settings : Settings) : Text := "#endif /* ".toList ++ settings.guard ++ " */".toList

end Header

/-- Both texts consist of what is read from them, paragraph by paragraph, and of what the settings
put around it. -/
structure Listing.Fills (settings : Settings) (listing : Listing) (enumHeader source : Text) :
    Prop where
  /-- The enum header has its preamble, a paragraph for each enumeration, a paragraph for each of
  the declarations, its closing line, and no more. -/
  enumHeader : ∃ enumerations declarations : List (List Text),
    enumHeader.paragraphs = Header.preamble settings :: (enumerations ++ declarations) ++
      [[Header.closing settings], []] ∧
    enumerations.mapM enumeration? = some listing.enumerations ∧
    declarations.mapM declarations? = some listing.declarations
  /-- The source has its front, an empty line, a paragraph for each size table, a paragraph for each
  accessor, and no more. -/
  source : ∃ tables definitions : List (List Text),
    source = ['\n'].intercalate
      (settings.front ++ [[], ofParagraphs tables, ofParagraphs definitions]) ∧
    tables.mapM sizeTable? = some listing.tables ∧
    definitions.mapM definition? = some listing.definitions

namespace Header

variable {settings : Settings} {h : Header}

private theorem oneLine_preamble : ∀ line ∈ preamble settings, line.OneLine ∧ line ≠ [] := by
  have guard : settings.guard.OneLine := (Symbol.isName_guardName settings.headerName).oneLine
  have opens : OneLine "#ifndef ".toList := by decide
  have defines : OneLine "#define ".toList := by decide
  rw [preamble, List.forall_mem_cons, List.forall_mem_cons, List.forall_mem_singleton]
  refine ⟨⟨by decide, by decide⟩, ⟨opens.append guard, fun empty => ?_⟩,
    ⟨defines.append guard, fun empty => ?_⟩⟩
  · exact absurd (List.append_eq_nil_iff.mp empty).1 (by decide)
  · exact absurd (List.append_eq_nil_iff.mp empty).1 (by decide)

private theorem oneLine_closing : (closing settings).OneLine ∧ closing settings ≠ [] := by
  have guard : settings.guard.OneLine := (Symbol.isName_guardName settings.headerName).oneLine
  have ends : OneLine "#endif /* ".toList := by decide
  exact ⟨(ends.append guard).append (by decide), fun empty =>
    absurd (List.append_eq_nil_iff.mp empty).2 (by decide)⟩

/-- Lines without line feeds are the lines that they give. -/
private theorem flatMap_lines {lines : List Text} (each : ∀ line ∈ lines, line.OneLine) :
    lines.flatMap Text.lines = lines := by
  induction lines with
  | nil => rfl
  | cons line rest ih =>
    obtain ⟨here, below⟩ := List.forall_mem_cons.mp each
    rw [List.flatMap_cons, lines_of_oneLine here, ih below, List.singleton_append]

/-- Paragraphs, each with an empty line behind it, as texts give them. -/
private theorem flatMap_map_lines {α : Type} {items : List α} {text : α → Text}
    {paragraph : α → List Text} (each : ∀ a ∈ items, (text a).lines = paragraph a ++ [[]]) :
    (items.map text).flatMap Text.lines = (items.map paragraph).flatMap (· ++ [[]]) := by
  rw [List.flatMap_map, List.flatMap_map]
  exact List.flatMap_congr each

private theorem enumHeader_eq : h.enumHeader settings =
    ['\n'].intercalate ((preamble settings ++ [[]]) ++
      h.entries.map (fun s => (s.enumeration settings).text) ++
        h.entries.flatMap (Structure.declarations settings) ++ [closing settings]) ++ '\n' :: [] :=
  rfl

/-- The paragraphs of the enum header in front of its end. -/
def declaring (settings : Settings) (h : Header) : List (List Text) :=
  preamble settings :: (h.entries.map (fun s => (s.enumeration settings).paragraph) ++
    h.entries.map (Structure.declarationParagraph settings))

private theorem flatMap_declarations (reads : ∀ s ∈ h.entries, s.ReadsBack settings) :
    (h.entries.flatMap (Structure.declarations settings)).flatMap Text.lines =
      (h.entries.map (Structure.declarationParagraph settings)).flatMap (· ++ [[]]) := by
  rw [List.flatMap_assoc, List.flatMap_map]
  refine List.flatMap_congr fun s hs => ?_
  have lines := fun line mem => ((reads s hs).declarations.1 line mem).1
  have shape : s.declarations settings = s.declarationParagraph settings ++ [[]] := rfl
  rw [shape, List.flatMap_append, flatMap_lines lines]
  rfl

/-- The lines of the enum header. -/
private theorem lines_enumHeader (reads : ∀ s ∈ h.entries, s.ReadsBack settings) :
    (h.enumHeader settings).lines =
      (h.declaring settings).flatMap (· ++ [[]]) ++ [closing settings, []] := by
  have enums : (h.entries.map fun s => (s.enumeration settings).text).flatMap Text.lines =
      (h.entries.map fun s => (s.enumeration settings).paragraph).flatMap (· ++ [[]]) :=
    flatMap_map_lines fun s _ => (s.enumeration settings).lines_text
  have opening : (preamble settings ++ [[]]).flatMap Text.lines = preamble settings ++ [[]] := by
    rw [List.flatMap_append, flatMap_lines fun line mem => (oneLine_preamble line mem).1]
    rfl
  have ending : [closing settings].flatMap Text.lines = [closing settings] :=
    flatMap_lines (List.forall_mem_singleton.mpr oneLine_closing.1)
  rw [enumHeader_eq, lines_append, lines_nil, lines_intercalate (by simp), List.flatMap_append,
    List.flatMap_append, List.flatMap_append, opening, enums, flatMap_declarations reads, ending,
    declaring, List.flatMap_cons, List.flatMap_append]
  simp only [List.append_assoc, List.cons_append, List.nil_append]

/-- The paragraphs of the enum header. -/
theorem paragraphs_enumHeader (reads : ∀ s ∈ h.entries, s.ReadsBack settings) :
    (h.enumHeader settings).paragraphs =
      h.declaring settings ++ [[closing settings], []] := by
  have free : ∀ paragraph ∈ h.declaring settings, [] ∉ paragraph := by
    rw [declaring, List.forall_mem_cons, List.forall_mem_append, List.forall_mem_map,
      List.forall_mem_map]
    exact ⟨fun mem => (oneLine_preamble _ mem).2 rfl, fun s hs => (reads s hs).enumeration.1,
      fun s hs mem => ((reads s hs).declarations.1 _ mem).2 rfl⟩
  have last : [closing settings, []].splitOn [] = [[closing settings], []] :=
    List.splitOn_append_cons_self_of_not_mem (show [] ∉ [closing settings] from fun mem =>
      oneLine_closing.2 (List.mem_singleton.mp mem).symm) []
  rw [paragraphs, lines_enumHeader reads, splitOn_flatMap_append [] free, last]

/-- The source consists of its front, an empty line, the size tables and the accessors. -/
theorem source_eq (settings : Settings) (h : Header) : (h.artifacts settings).source =
    ['\n'].intercalate
      (settings.front ++ [[], h.sizeTables settings, h.accessors settings]) := by
  have shape : settings.front ++ [[], h.sizeTables settings, h.accessors settings] =
      generatedNotice :: (settings.includes.map ("#include ".toList ++ ·) ++
        ["#include \"".toList ++ settings.structHeader ++ ['"'],
          "#include \"".toList ++ settings.headerName ++ ['"'], [], h.sizeTables settings,
          h.accessors settings]) := by
    simp [Settings.front]
  rw [shape]
  rfl

private theorem intercalate_map_eq_ofParagraphs {text : Structure → Text}
    {paragraph : Structure → List Text}
    (each : ∀ s ∈ h.entries, (text s).lines = paragraph s ++ [[]]) :
    ['\n'].intercalate (h.entries.map text) = ofParagraphs (h.entries.map paragraph) := by
  rw [ofParagraphs, List.map_map]
  refine congrArg _ (List.map_congr_left fun s hs => ?_)
  have whole : ['\n'].intercalate (text s).lines = text s := List.intercalate_splitOn '\n'
  rw [Function.comp_apply, ← each s hs, whole]

private theorem lines_text_accessor (reads : ∀ s ∈ h.entries, s.ReadsBack settings) :
    ∀ s ∈ h.entries, (s.accessor settings).text.lines = (s.accessor settings).lines ++ [[]] :=
  fun s hs => Accessor.lines_text fun line mem => ((reads s hs).definition.1 line mem).1

/-- The source consists of its front, an empty line, the paragraphs of the size tables and those of
the accessors. -/
theorem source_eq_ofParagraphs (reads : ∀ s ∈ h.entries, s.ReadsBack settings) :
    (h.artifacts settings).source = ['\n'].intercalate (settings.front ++
      [[], ofParagraphs (h.entries.map fun s => (s.sizeTable settings).paragraph),
        ofParagraphs (h.entries.map fun s => (s.accessor settings).lines)]) := by
  rw [source_eq, sizeTables, accessors,
    intercalate_map_eq_ofParagraphs fun s _ => (s.sizeTable settings).lines_text,
    intercalate_map_eq_ofParagraphs (lines_text_accessor reads)]

/-- The source ends with the paragraphs of the size tables and the accessors. -/
theorem paragraphs_source (reads : ∀ s ∈ h.entries, s.ReadsBack settings)
    (nonempty : h.entries ≠ []) :
    (h.artifacts settings).source.paragraphs = (settings.front.flatMap Text.lines).splitOn [] ++
      (h.entries.map (fun s => (s.sizeTable settings).paragraph) ++
        h.entries.map (fun s => (s.accessor settings).lines)) ++ [[]] := by
  have tables : (h.entries.map fun s => (s.sizeTable settings).text).flatMap Text.lines =
      (h.entries.map fun s => (s.sizeTable settings).paragraph).flatMap (· ++ [[]]) :=
    flatMap_map_lines fun s _ => (s.sizeTable settings).lines_text
  have functions : (h.entries.map fun s => (s.accessor settings).text).flatMap Text.lines =
      (h.entries.map fun s => (s.accessor settings).lines).flatMap (· ++ [[]]) :=
    flatMap_map_lines (lines_text_accessor reads)
  have given : ∀ text : Structure → Text, h.entries.map text ≠ [] := fun _ empty =>
    nonempty (List.map_eq_nil_iff.mp empty)
  have whole : (h.artifacts settings).source.lines = settings.front.flatMap Text.lines ++ [] ::
      ((h.entries.map (fun s => (s.sizeTable settings).paragraph) ++
        h.entries.map (fun s => (s.accessor settings).lines)).flatMap (· ++ [[]]) ++ []) := by
    rw [source_eq, lines_intercalate (by simp), List.flatMap_append, List.flatMap_cons,
      List.flatMap_cons, List.flatMap_singleton, lines_nil, sizeTables, accessors,
      lines_intercalate (given _), lines_intercalate (given _), tables, functions,
      List.flatMap_append, List.append_nil]
    rfl
  have free : ∀ paragraph ∈ h.entries.map (fun s => (s.sizeTable settings).paragraph) ++
      h.entries.map (fun s => (s.accessor settings).lines), [] ∉ paragraph := by
    rw [List.forall_mem_append, List.forall_mem_map, List.forall_mem_map]
    exact ⟨fun s hs => (reads s hs).table.1,
      fun s hs mem => ((reads s hs).definition.1 _ mem).2 rfl⟩
  rw [paragraphs, whole, List.splitOn_append_cons_self, splitOn_flatMap_append [] free,
    List.splitOn_nil]
  exact (List.append_assoc ..).symm

/-- What is read from the artifacts of a header. -/
def listing (settings : Settings) (h : Header) : Listing where
  enumerations := h.entries.map (Structure.enumeration settings)
  declarations := h.entries.map (Structure.declared settings)
  tables := h.entries.map (Structure.sizeTable settings)
  definitions := h.entries.map (Structure.definition settings)

/-- Both texts are read back. -/
theorem read_artifacts (reads : ∀ s ∈ h.entries, s.ReadsBack settings) :
    Listing.read (h.artifacts settings).enumHeader (h.artifacts settings).source =
      some (h.listing settings) := by
  have declared : (h.artifacts settings).enumHeader.paragraphs.tail.dropLast.dropLast =
      h.entries.map (fun s => (s.enumeration settings).paragraph) ++
        h.entries.map (Structure.declarationParagraph settings) := by
    have whole : (h.artifacts settings).enumHeader.paragraphs = _ := paragraphs_enumHeader reads
    rw [whole, declaring, List.cons_append, List.tail_cons,
      show [[closing settings], []] = [[closing settings]] ++ [[]] from rfl, ← List.append_assoc,
      List.dropLast_concat, List.dropLast_concat]
  have defined : (h.artifacts settings).source.paragraphs.dropLast.drop
      ((h.artifacts settings).source.paragraphs.dropLast.length - 2 * h.entries.length) =
        h.entries.map (fun s => (s.sizeTable settings).paragraph) ++
          h.entries.map (fun s => (s.accessor settings).lines) := by
    by_cases empty : h.entries = []
    · -- Nothing is counted, so nothing is read from what stands there instead.
      simp [empty]
    · rw [paragraphs_source reads empty, List.dropLast_concat]
      refine List.drop_left' ?_
      simp only [List.length_append, List.length_map]
      omega
  have half : (h.entries.map (fun s => (s.enumeration settings).paragraph) ++
        h.entries.map (Structure.declarationParagraph settings)).length / 2 = h.entries.length := by
    simp only [List.length_append, List.length_map]
    omega
  unfold Listing.read
  simp only [declared, half, defined, List.take_left' (List.length_map ..),
    List.drop_left' (List.length_map ..)]
  rw [mapM_map_eq_some fun s hs => (reads s hs).enumeration.2,
    mapM_map_eq_some fun s hs => (reads s hs).declarations.2,
    mapM_map_eq_some fun s hs => (reads s hs).table.2,
    mapM_map_eq_some fun s hs => (reads s hs).definition.2]
  rfl

/-- Both texts of a header consist of what is read from them. -/
theorem fills_listing (reads : ∀ s ∈ h.entries, s.ReadsBack settings) :
    (h.listing settings).Fills settings (h.artifacts settings).enumHeader
      (h.artifacts settings).source where
  enumHeader := ⟨_, _, paragraphs_enumHeader reads,
    mapM_map_eq_some fun s hs => (reads s hs).enumeration.2,
    mapM_map_eq_some fun s hs => (reads s hs).declarations.2⟩
  source := ⟨_, _, source_eq_ofParagraphs reads, mapM_map_eq_some fun s hs => (reads s hs).table.2,
    mapM_map_eq_some fun s hs => (reads s hs).definition.2⟩

end Header

/-- What is read for a structure agrees with its fields. -/
structure Structure.Agrees (settings : Settings) (s : Structure) (e : Enumeration)
    (d : Declarations) (t : SizeTable) (a : Definition) : Prop where
  /-- There is a field, and each part has as many places as there are fields, the enumeration one
  more for its sentinel. -/
  counted : 1 ≤ s.fields.size ∧ e.enumerators.length - 1 = s.fields.size ∧
    d.length = s.fields.size ∧ t.operands.length = s.fields.size ∧ a.cases.length = s.fields.size
  /-- The parts are those of the structure. -/
  named : e.tag = (s.labels settings).enumTag ∧ d.tag = s.name ∧
    d.table = (s.labels settings).sizes ∧ t.name = (s.labels settings).sizes
  /-- The sentinel comes first. -/
  sentinel : e.enumerators[0]? = some (s.labels settings).sentinel
  /-- Each place belongs to the field at this place: the enumerator behind the sentinel, the size,
  and the label, the members and the constant of the case. -/
  field : ∀ k f, s.fields.entries[k]? = some f →
    e.enumerators[k + 1]? = some ((s.labels settings).constant f.name) ∧
    t.operands[k]? = some f.sizedType ∧
    a.cases[k]? = some { label := (s.labels settings).constant f.name
                         inst := (s.labels settings).short
                         path := f.path
                         sizes := t.name
                         index := (s.labels settings).constant f.name }
  /-- The accessor is declared with the signature that it is defined with. -/
  prototype : d.prototype = a.signature ∧ a.signature = (s.accessor settings).signature

/-- What is read agrees with a flat header: there is one of each part for each structure, in the
same order, and the parts of a structure agree with its fields. -/
structure Listing.Agrees (settings : Settings) (flat : Header) (listing : Listing) : Prop where
  complete : listing.enumerations.length = flat.entries.length ∧
    listing.declarations.length = flat.entries.length ∧
    listing.tables.length = flat.entries.length ∧
    listing.definitions.length = flat.entries.length
  ordered : ∀ (i : Nat) s, flat.entries[i]? = some s →
    ∃ e d t a, listing.enumerations[i]? = some e ∧ listing.declarations[i]? = some d ∧
      listing.tables[i]? = some t ∧ listing.definitions[i]? = some a ∧ s.Agrees settings e d t a

namespace Header

variable {settings : Settings} {h flat : Header}

/-- The parts of a structure with fields agree with its fields. -/
theorem agrees_structure {s : Structure} (nonempty : s.fields.entries ≠ []) :
    s.Agrees settings (s.enumeration settings) (s.declared settings) (s.sizeTable settings)
      (s.definition settings) where
  counted := by
    refine ⟨List.length_pos_iff.mpr nonempty, ?_, rfl, List.length_map .., ?_⟩
    · simp [Structure.enumeration, Roster.names, Roster.size]
    · simp [Structure.cases_definition, Roster.size]
  named := ⟨rfl, rfl, rfl, rfl⟩
  sentinel := rfl
  field := by
    intro k f hf
    refine ⟨?_, ?_, ?_⟩
    · simp only [Structure.enumeration, Roster.names, List.getElem?_cons_succ, List.getElem?_map,
        hf, Option.map_some]
      rfl
    · simp only [Structure.sizeTable, List.getElem?_map, hf, Option.map_some]
    · simp only [Structure.cases_definition, List.getElem?_map, hf, Option.map_some]
      rfl
  prototype := ⟨rfl, rfl⟩

/-- What is read from the artifacts of a header without empty structures agrees with it. -/
theorem agrees_listing (full : flat.Full) : (flat.listing settings).Agrees settings flat where
  complete := by simp [listing]
  ordered := by
    intro i s hs
    have mem := List.mem_of_getElem? hs
    refine ⟨_, _, _, _, ?_, ?_, ?_, ?_, agrees_structure (full s mem)⟩ <;> simp [listing, hs]

/-- When artifacts are generated from a text, both files are read back. They consist of what is read
from them, and this agrees with the flat header of the text. -/
theorem generate_agrees {text : Text} {out : Artifacts} (ok : generate settings text = .ok out) :
    ∃ flat listing, compile settings text = .ok flat ∧
      Listing.read out.enumHeader out.source = some listing ∧
      listing.Fills settings out.enumHeader out.source ∧ listing.Agrees settings flat := by
  obtain ⟨flat, compiled, rfl⟩ := generate_eq_ok_iff.mp ok
  obtain ⟨declared, read, flattened, -⟩ := compile_eq_ok_iff.mp compiled
  have spelled := (spelled_of_ofStatements read).flatten flattened
  have full := full_of_flatten flattened
  have reads : ∀ s ∈ flat.entries, s.ReadsBack settings := fun s hs =>
    (spelled s hs).readsBack (full s hs)
  exact ⟨flat, flat.listing settings, compiled, read_artifacts reads, fills_listing reads,
    agrees_listing full⟩

/-- A text with an array length that looks like a list of entries. -/
def noteText : Text :=
  "struct evfs_note \x7b char text[',' + \"é\",\t2]; struct evfs_time at; \x7d;\n".toList
    ++ "struct evfs_time \x7b long sec; \x7d;".toList

theorem generate_agrees_noteText :
    ∃ out, generate {} noteText = .ok out ∧
      (∃ flat listing, compile {} noteText = .ok flat ∧
        Listing.read out.enumHeader out.source = some listing ∧
        listing.Fills {} out.enumHeader out.source ∧ listing.Agrees {} flat) ∧
      (compile {} noteText).toOption.map (fun flat => flat.entries.map fun s =>
        s.fields.entries.map Field.sizedType) =
          some [["char[',' + \"é\",\t2]".toList, "long".toList], ["long".toList]] := by
  have types : (compile {} noteText).toOption.map (fun flat => flat.entries.map fun s =>
      s.fields.entries.map Field.sizedType) =
        some [["char[',' + \"é\",\t2]".toList, "long".toList], ["long".toList]] := by
    decide +kernel
  cases compiled : compile {} noteText with
  | error e =>
    rw [compiled] at types
    cases types
  | ok flat =>
    rw [compiled] at types
    have ok := generate_eq_ok_iff.mpr ⟨flat, compiled, rfl⟩
    obtain agreement := generate_agrees ok
    rw [compiled] at agreement
    exact ⟨_, ok, agreement, types⟩

end Header

end FieldTables
