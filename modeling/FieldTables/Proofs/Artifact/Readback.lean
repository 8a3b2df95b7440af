import FieldTables.Artifact.Basic
import FieldTables.Proofs.Accessor.Instruction
import FieldTables.Proofs.Source.Spelling
import FieldTables.Proofs.Symbol.Spelling

/-!
# Reading artifacts back

What is printed for a structure fills one paragraph each: its enumeration, its declarations, its
size table and its accessor. A paragraph is read back without knowing the settings or the header,
and gives the names, types and numbers that it was printed from. For this names have to be names,
and no type or length may go over a line feed.
-/

namespace FieldTables

open Text Outcome

/-- What the enum header declares of a structure besides its enumeration, as it is read. -/
structure Declarations where
  /-- The tag of the structure. -/
  tag : Text
  /-- The name of the size table. -/
  table : Text
  /-- The number of entries of the size table. -/
  length : Nat
  /-- The signature of the accessor. -/
  prototype : Text

/-- The definition of an accessor, as it is read. -/
structure Definition where
  /-- The signature. -/
  signature : Text
  /-- The instructions between the braces of the switch. -/
  selection : List Instruction
  /-- The instructions behind the switch. -/
  ending : List Instruction
  /-- The cases in order. -/
  cases : List CaseText

/-- The definition of an accessor with a list of cases. -/
def Definition.ofCases (signature : Text) (cases : List CaseText) : Definition where
  signature := signature
  selection := cases.flatMap CaseText.instructions ++ refusal
  ending := [.finish (.number 0)]
  cases := cases

/-- A name and entries between braces, each entry on a line of its own. -/
def listText (keyword name opener : Text) (entries : List Text) : Text :=
  keyword ++ name ++ opener ++ '\n' :: ('\t' :: entrySeparator.intercalate entries
    ++ '\n' :: "\x7d;".toList)

/-- The name and the entries of a paragraph that lists entries between braces. -/
def list? (keyword opener : Text) (paragraph : List Text) : Option (Text × List Text) := do
  let rest ← (['\n'].intercalate paragraph).dropPrefix? keyword
  let entries ← between? (opener ++ "\n\t".toList) "\n\x7d;".toList (rest.dropWhile isNameCharacter)
  return (rest.takeWhile isNameCharacter, splitBy entrySeparator entries)

/-- The enumeration that a paragraph defines. -/
def enumeration? (paragraph : List Text) : Option Enumeration := do
  let (tag, enumerators) ← list? "enum ".toList " \x7b".toList paragraph
  return ⟨tag, enumerators⟩

/-- The size table that a paragraph defines. -/
def sizeTable? (paragraph : List Text) : Option SizeTable := do
  let (name, entries) ← list? "const unsigned int ".toList "[] = \x7b".toList paragraph
  return ⟨name, ← entries.mapM (between? "sizeof(".toList [')'])⟩

/-- What a paragraph declares of a structure. -/
def declarations? : List Text → Option Declarations
  | [own, table, prototype] => do
    let tag ← between? "struct ".toList [';'] own
    let rest ← between? "extern const unsigned int ".toList "];".toList table
    let length ← number? (← (rest.dropWhile isNameCharacter).dropPrefix? ['['])
    return ⟨tag, rest.takeWhile isNameCharacter, length, ← prototype.dropSuffix? [';']⟩
  | _ => none

/-- The accessor that a paragraph defines. -/
def definition? : List Text → Option Definition
  | signature :: opening :: selector :: body => do
    let (inside, behind) ← match body.splitOn "\t\x7d".toList with
      | [inside, behind] => some (inside, behind)
      | _ => none
    let selection ← inside.mapM instruction?
    let ending ← (← behind.dropSuffix? ["\x7d".toList]).mapM instruction?
    let cases ← cases? selection
    if opening = "\x7b".toList ∧ selector = "\tswitch (ev) \x7b".toList ∧
        ending = [.finish (.number 0)] then
      return ⟨signature, selection, ending, cases⟩
    else none
  | _ => none

/-- Everything that is read from both texts. -/
structure Listing where
  /-- The enumerations of the enum header. -/
  enumerations : List Enumeration
  /-- The declarations of the enum header. -/
  declarations : List Declarations
  /-- The size tables of the source. -/
  tables : List SizeTable
  /-- The accessors of the source. -/
  definitions : List Definition

/-- Read both texts. Between the guard and its end, the enum header has as many paragraphs with
enumerations as with declarations; the source ends with as many size tables and accessors. -/
def Listing.read (enumHeader source : Text) : Option Listing := do
  let declared := enumHeader.paragraphs.tail.dropLast.dropLast
  let count := declared.length / 2
  let defined := source.paragraphs.dropLast
  let own := defined.drop (defined.length - 2 * count)
  return { enumerations := ← (declared.take count).mapM enumeration?
           declarations := ← (declared.drop count).mapM declarations?
           tables := ← (own.take count).mapM sizeTable?
           definitions := ← (own.drop count).mapM definition? }

section RoundTrip

variable {settings : Settings} {s : Structure} {name : Text}

/-- A list between braces fills its lines. -/
theorem solid_listText {keyword opener : Text} {entries : List Text} (first : keyword.OneLine)
    (start : keyword ≠ []) (named : name.IsName) (last : opener.OneLine) (nonempty : entries ≠ [])
    (lines : ∀ entry ∈ entries, entry.OneLine) : (listText keyword name opener entries).Solid := by
  have front : OneLine (keyword ++ name ++ opener) := (first.append named.oneLine).append last
  have first := solid_of_oneLine front (by simp [start])
  refine first.append ((solid_entries nonempty lines).append ?_)
  exact solid_of_oneLine (by decide) (by decide)

/-- A list between braces is read back, if its name ends where the brace is opened. -/
theorem list?_listText {opener front : Text} {entries : List Text} {c : Char} (keyword : Text)
    (named : name.IsName) (start : opener = c :: front) (other : isNameCharacter c = false)
    (nonempty : entries ≠ []) (lines : ∀ entry ∈ entries, entry.OneLine) :
    list? keyword opener (listText keyword name opener entries).lines = some (name, entries) := by
  subst start
  have shape : listText keyword name (c :: front) entries = keyword ++ (name ++ c :: (front ++
      "\n\t".toList ++ entrySeparator.intercalate entries ++ "\n\x7d;".toList)) := by
    simp [listText]
  have rest : c :: (front ++ "\n\t".toList ++ entrySeparator.intercalate entries ++
      "\n\x7d;".toList) = (c :: front ++ "\n\t".toList) ++ entrySeparator.intercalate entries ++
      "\n\x7d;".toList := rfl
  rw [list?, Text.lines, List.intercalate_splitOn, shape,
    dropPrefix?_append]
  simp only [Option.bind_eq_bind, Option.bind_some, takeWhile_name named other,
    dropWhile_name named other]
  rw [rest, between?_append, Option.bind_some, splitBy_intercalate nonempty lines]
  rfl

/-- The definition of an accessor is read back. -/
theorem definition?_lines {a : Accessor} (inst : a.inst.IsName) (sizes : a.sizes.IsName)
    (named : ∀ c ∈ a.cases, (∀ member ∈ c.path, member.IsName) ∧ c.path ≠ [] ∧ c.index.IsName) :
    definition? a.lines = some (.ofCases a.signature (a.cases.map a.caseText)) := by
  have apart : "\t\x7d".toList ∉
      a.cases.flatMap a.caseLines ++ ["\tdefault:".toList, "\t\treturn -EINVAL;".toList] := by
    rw [List.mem_append, not_or]
    refine ⟨fun mem => ?_, by decide⟩
    obtain ⟨c, -, line⟩ := List.mem_flatMap.mp mem
    simp only [Accessor.caseLines, List.mem_cons, List.not_mem_nil, or_false] at line
    rcases line with same | same | same | same <;> cases same
  have cut : (a.cases.flatMap a.caseLines ++ ["\tdefault:".toList, "\t\treturn -EINVAL;".toList,
      "\t\x7d".toList, "\treturn 0;".toList, "\x7d".toList]).splitOn "\t\x7d".toList =
        [a.cases.flatMap a.caseLines ++ ["\tdefault:".toList, "\t\treturn -EINVAL;".toList],
          ["\treturn 0;".toList, "\x7d".toList]] := by
    have behind : ["\treturn 0;".toList, "\x7d".toList].splitOn "\t\x7d".toList =
        [["\treturn 0;".toList, "\x7d".toList]] := by decide
    rw [← behind, ← List.splitOn_append_cons_self_of_not_mem apart, List.append_assoc]
    rfl
  have ending : ["\treturn 0;".toList].mapM instruction? = some [.finish (.number 0)] := by decide
  have last : ["\treturn 0;".toList, "\x7d".toList].dropSuffix? ["\x7d".toList] =
      some ["\treturn 0;".toList] := dropSuffix?_append ["\treturn 0;".toList] _
  rw [Accessor.lines]
  simp only [List.cons_append, List.nil_append, definition?]
  rw [cut]
  simp only [last, Option.bind_eq_bind, Option.bind_some, ending, and_self, if_true,
    mapM_instruction?_selection inst sizes named, cases?_append_refusal]
  rfl

/-- The signature of an accessor is one line. -/
theorem oneLine_signature {a : Accessor} (name : a.name.IsName) (tag : a.tag.IsName)
    (inst : a.inst.IsName) : a.signature.OneLine := by
  have words : OneLine "int ".toList := by decide
  have typed := (words.append name.oneLine).append (t := "(int ev, struct ".toList) (by decide)
  have star := (typed.append tag.oneLine).append (t := " *".toList) (by decide)
  exact (star.append inst.oneLine).append (by decide)

/-- The lines of a case are one line each. -/
theorem oneLine_caseLines {a : Accessor} {c : AccessorCase} (inst : a.inst.IsName)
    (sizes : a.sizes.IsName) (label : c.label.IsName) (members : ∀ member ∈ c.path, member.IsName)
    (index : c.index.IsName) : ∀ line ∈ a.caseLines c, line.OneLine ∧ line ≠ [] := by
  have path : OneLine (['.'].intercalate c.path) := fun mem =>
    (mem_intercalate mem).elim (by decide) fun ⟨member, listed, has⟩ =>
      (members member listed).oneLine has
  have front : OneLine "\tcase ".toList := by decide
  have store : OneLine "\t\t*fieldptr = &".toList := by decide
  have size : OneLine "\t\t*size = ".toList := by decide
  have member := (store.append inst.oneLine).append (t := "->".toList) (by decide)
  have place := OneLine.append (s := ['[']) (by decide) index.oneLine
  have element := (size.append sizes.oneLine).append place
  simp only [Accessor.caseLines, List.forall_mem_cons]
  refine ⟨⟨(front.append label.oneLine).append (by decide), ?_⟩,
    ⟨(member.append path).append (by decide), ?_⟩, ⟨element.append (by decide), ?_⟩,
    ⟨by decide, by decide⟩, List.forall_mem_nil _⟩ <;> simp

/-- The lines of an accessor are one line each. -/
theorem oneLine_lines {a : Accessor} (name : a.name.IsName) (tag : a.tag.IsName)
    (inst : a.inst.IsName) (sizes : a.sizes.IsName)
    (cases : ∀ c ∈ a.cases, c.label.IsName ∧ (∀ member ∈ c.path, member.IsName) ∧ c.index.IsName) :
    ∀ line ∈ a.lines, line.OneLine ∧ line ≠ [] := by
  have selected : ∀ line ∈ a.cases.flatMap a.caseLines, line.OneLine ∧ line ≠ [] := by
    intro line mem
    obtain ⟨c, listed, within⟩ := List.mem_flatMap.mp mem
    obtain ⟨label, members, index⟩ := cases c listed
    exact oneLine_caseLines inst sizes label members index line within
  have signature : a.signature ≠ [] := fun empty =>
    absurd (List.append_eq_nil_iff.mp empty).2 (by decide)
  rw [Accessor.lines, List.forall_mem_append, List.forall_mem_append, List.forall_mem_cons]
  exact ⟨⟨⟨⟨oneLine_signature name tag inst, signature⟩, by decide⟩, selected⟩, by decide⟩

/-- The declarations of a structure are read back. -/
theorem declarations?_eq_some {tag signature : Text} {t : SizeTable} (named : t.name.IsName) :
    declarations? ["struct ".toList ++ tag ++ [';'], t.declaration, signature ++ [';']] =
      some ⟨tag, t.name, t.operands.length, signature⟩ := by
  have table : t.declaration = "extern const unsigned int ".toList ++
      (t.name ++ '[' :: Text.decimal t.operands.length) ++ "];".toList := by
    unfold SizeTable.declaration
    simp only [List.append_assoc, List.cons_append]
  have bracket : ('[' :: Text.decimal t.operands.length).dropPrefix? ['['] =
      some (Text.decimal t.operands.length) :=
    dropPrefix?_append ['['] _
  have ending : (signature ++ [';']).dropSuffix? [';'] = some signature :=
    dropSuffix?_append ..
  rw [declarations?, table]
  simp only [between?_append, Option.bind_eq_bind, Option.bind_some,
    takeWhile_name named (c := '[') (by decide), dropWhile_name named (c := '[') (by decide),
    bracket, number?_decimal, ending]
  rfl

/-- The declaration of a size table is one line. -/
theorem oneLine_declaration {t : SizeTable} (named : t.name.IsName) :
    t.declaration.OneLine ∧ t.declaration ≠ [] := by
  have keyword : OneLine "extern const unsigned int ".toList := by decide
  have digits : OneLine (Text.decimal t.operands.length) := fun mem =>
    absurd (Nat.isDigit_of_mem_toDigits (by decide) (by decide) mem) (by decide)
  have length := OneLine.append (s := ['[']) (by decide) digits
  refine ⟨((keyword.append named.oneLine).append length).append (by decide), fun empty => ?_⟩
  exact absurd (List.append_eq_nil_iff.mp empty).2 (by decide)

end RoundTrip

/-- The paragraph of an enumeration. -/
def Enumeration.paragraph (e : Enumeration) : List Text :=
  (listText "enum ".toList e.tag " \x7b".toList e.enumerators).lines

/-- The paragraph of a size table. -/
def SizeTable.paragraph (t : SizeTable) : List Text :=
  (listText "const unsigned int ".toList t.name "[] = \x7b".toList (t.operands.map entry)).lines

/-- A list between braces as it is printed has its lines and then an empty one. -/
private theorem lines_printed {keyword name opener text : Text} {entries : List Text}
    (printed : text = keyword ++ name ++ (opener ++ "\n\t".toList) ++
      entrySeparator.intercalate entries ++ "\n\x7d;\n".toList) :
    text.lines = (listText keyword name opener entries).lines ++ [[]] := by
  have closer : "\n\x7d;\n".toList = '\n' :: "\x7d;".toList ++ ['\n'] := by decide
  have shape : text = listText keyword name opener entries ++ '\n' :: [] := by
    unfold listText
    simp only [printed, closer, List.append_assoc, List.cons_append]
    rfl
  rw [shape, lines_append, lines_nil]

theorem Enumeration.lines_text (e : Enumeration) : e.text.lines = e.paragraph ++ [[]] := by
  have opener : " \x7b\n\t".toList = " \x7b".toList ++ "\n\t".toList := by decide
  have printed : e.text = "enum ".toList ++ e.tag ++ (" \x7b".toList ++ "\n\t".toList) ++
      entrySeparator.intercalate e.enumerators ++ "\n\x7d;\n".toList := by
    unfold Enumeration.text
    simp only [opener]
  exact lines_printed printed

theorem SizeTable.lines_text (t : SizeTable) : t.text.lines = t.paragraph ++ [[]] := by
  have opener : "[] = \x7b\n\t".toList = "[] = \x7b".toList ++ "\n\t".toList := by decide
  have printed : t.text = "const unsigned int ".toList ++ t.name ++
      ("[] = \x7b".toList ++ "\n\t".toList) ++ entrySeparator.intercalate (t.operands.map entry) ++
      "\n\x7d;\n".toList := by
    unfold SizeTable.text
    simp only [opener]
  exact lines_printed printed

/-- An enumeration is read back from its paragraph. -/
theorem Enumeration.enumeration?_paragraph {e : Enumeration} (tag : e.tag.IsName)
    (nonempty : e.enumerators ≠ []) (lines : ∀ name ∈ e.enumerators, name.OneLine) :
    [] ∉ e.paragraph ∧ enumeration? e.paragraph = some e := by
  refine ⟨solid_listText (by decide) (by decide) tag (by decide) nonempty lines, ?_⟩
  have read := list?_listText "enum ".toList tag
    (show " \x7b".toList = ' ' :: ['\x7b'] by decide) (by decide) nonempty lines
  rw [enumeration?, Enumeration.paragraph, read]
  rfl

/-- A size table is read back from its paragraph. -/
theorem SizeTable.sizeTable?_paragraph {t : SizeTable} (name : t.name.IsName)
    (nonempty : t.operands ≠ []) (lines : ∀ operand ∈ t.operands, operand.OneLine) :
    [] ∉ t.paragraph ∧ sizeTable? t.paragraph = some t := by
  have entries : ∀ e ∈ t.operands.map entry, OneLine e := by
    refine List.forall_mem_map.mpr fun operand mem => ?_
    have front : OneLine "sizeof(".toList := by decide
    exact (front.append (lines operand mem)).append (by decide)
  have listed : t.operands.map entry ≠ [] := fun empty => nonempty (List.map_eq_nil_iff.mp empty)
  refine ⟨solid_listText (by decide) (by decide) name (by decide) listed entries, ?_⟩
  have read := list?_listText "const unsigned int ".toList name
    (show "[] = \x7b".toList = '[' :: "] = \x7b".toList by decide) (by decide) listed entries
  have sizes : (t.operands.map entry).mapM (between? "sizeof(".toList [')']) =
      some (t.operands.map id) := mapM_map_eq_some fun operand _ => between?_append ..
  rw [sizeTable?, SizeTable.paragraph, read]
  simp only [Option.bind_eq_bind, Option.bind_some, sizes, List.map_id]
  rfl

theorem Accessor.lines_text {a : Accessor} (lines : ∀ line ∈ a.lines, line.OneLine) :
    a.text.lines = a.lines ++ [[]] := by
  have nonempty : a.lines ≠ [] := by simp [Accessor.lines]
  rw [Accessor.text, lines_append, lines_nil, Text.lines,
    List.splitOn_intercalate '\n' lines nonempty]

namespace Structure

variable {settings : Settings} {s : Structure}

/-- The paragraph that declares what there is for a structure besides its enumeration. -/
def declarationParagraph (settings : Settings) (s : Structure) : List Text :=
  ["struct ".toList ++ s.name ++ [';'], (s.sizeTable settings).declaration,
    (s.accessor settings).signature ++ [';']]

/-- What is declared for a structure. -/
def declared (settings : Settings) (s : Structure) : Declarations :=
  ⟨s.name, (s.sizeTable settings).name, s.fields.size, (s.accessor settings).signature⟩

/-- The definition of the accessor of a structure. -/
def definition (settings : Settings) (s : Structure) : Definition :=
  .ofCases (s.accessor settings).signature
    ((s.accessor settings).cases.map (s.accessor settings).caseText)

/-- The definition has one case for each field. -/
theorem cases_definition (settings : Settings) (s : Structure) : (s.definition settings).cases =
    s.fields.entries.map fun f =>
      { label := (s.labels settings).constant f.name
        inst := (s.labels settings).short
        path := f.path
        sizes := (s.labels settings).sizes
        index := (s.labels settings).constant f.name } :=
  List.map_map

/-- The paragraphs that are printed for a structure have no empty line, and they are read back to
what they were printed from. -/
structure ReadsBack (settings : Settings) (s : Structure) : Prop where
  enumeration : [] ∉ (s.enumeration settings).paragraph ∧
    enumeration? (s.enumeration settings).paragraph = some (s.enumeration settings)
  declarations : (∀ line ∈ s.declarationParagraph settings, line.OneLine ∧ line ≠ []) ∧
    declarations? (s.declarationParagraph settings) = some (s.declared settings)
  table : [] ∉ (s.sizeTable settings).paragraph ∧
    sizeTable? (s.sizeTable settings).paragraph = some (s.sizeTable settings)
  definition : (∀ line ∈ (s.accessor settings).lines, line.OneLine ∧ line ≠ []) ∧
    definition? (s.accessor settings).lines = some (s.definition settings)

/-- What is printed for a structure with fields is read back when it is spelled as it should be. -/
theorem Spelled.readsBack (spelled : s.Spelled) (nonempty : s.fields.entries ≠ []) :
    s.ReadsBack settings := by
  have tagged : s.name.IsName := isName_of_isIdentifier spelled.tag
  have short : (s.labels settings).short.IsName := isName_short tagged
  have constants : ∀ f ∈ s.fields.entries, ((s.labels settings).constant f.name).IsName :=
    fun f hf => Labels.isName_constant short (isName_of_isIdentifier (spelled.fields f hf).name)
  have accessor := Labels.isName_accessor short
  have sizes := Labels.isName_sizes short
  refine ⟨?_, ?_, ?_, ?_⟩
  · refine Enumeration.enumeration?_paragraph (Labels.isName_enumTag tagged)
      (List.cons_ne_nil _ _) (List.forall_mem_cons.mpr ⟨(Labels.isName_sentinel short).oneLine, ?_⟩)
    simp only [Roster.names, List.forall_mem_map]
    exact fun f hf => (constants f hf).oneLine
  · have tag : OneLine "struct ".toList := by decide
    have count : (s.sizeTable settings).operands.length = s.fields.size := List.length_map ..
    refine ⟨?_, (declarations?_eq_some sizes).trans (by rw [count]; rfl)⟩
    simp only [declarationParagraph, List.forall_mem_cons]
    refine ⟨⟨(tag.append tagged.oneLine).append (by decide), by simp⟩,
      oneLine_declaration sizes,
      ⟨(oneLine_signature accessor tagged short).append (by decide), by simp⟩,
      List.forall_mem_nil _⟩
  · refine SizeTable.sizeTable?_paragraph sizes ?_ (List.forall_mem_map.mpr fun f hf =>
      (spelled.fields f hf).sizedType)
    exact fun empty => nonempty (List.map_eq_nil_iff.mp empty)
  · have named : ∀ c ∈ (s.accessor settings).cases, c.label.IsName ∧
        (∀ member ∈ c.path, member.IsName) ∧ c.index.IsName ∧ c.path ≠ [] :=
      List.forall_mem_map.mpr fun f hf => ⟨constants f hf,
        fun m mem => isName_of_isIdentifier ((spelled.fields f hf).members m mem),
        constants f hf, (spelled.fields f hf).reached⟩
    refine ⟨oneLine_lines accessor tagged short sizes fun c mem => ?_,
      definition?_lines short sizes fun c mem => ?_⟩
    · obtain ⟨label, members, index, -⟩ := named c mem
      exact ⟨label, members, index⟩
    · obtain ⟨-, members, index, reached⟩ := named c mem
      exact ⟨members, reached, index⟩

end Structure

end FieldTables
