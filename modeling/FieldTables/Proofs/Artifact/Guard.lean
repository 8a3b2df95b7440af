import FieldTables.Proofs.Artifact.Identifier

/-!
# The guard among the words of both files

The enum header defines its guard, so wherever the guard stands as a word behind that, in the header
itself or in the source that includes it, it is replaced by nothing. A guard has no small letter and
starts with no digit, so it can never be one of the fixed words of both files, the tag of an
enumeration, a size table, an accessor or a number. It can be a word that both files take from the
declared header.
-/

namespace FieldTables

open Text

namespace Text

variable {s t word : Text} {fixed : List Text}

/-- The lines of a text between its first paragraph and its last line. -/
def guarded (t : Text) : List Text := t.paragraphs.tail.dropLast.dropLast.flatten

/-- Whether a text has a small letter or starts with a digit, as no guard does. -/
def isNoGuard (t : Text) : Bool := t.any Char.isLower || t.startsWithDigit

theorem isNoGuard_append_right (s : Text) (small : t.any Char.isLower = true) :
    isNoGuard (s ++ t) = true := by
  rw [isNoGuard, List.any_append, small, Bool.or_true, Bool.true_or]

/-- What could be a guard is none of some words that could not. -/
theorem notMem_of_isNoGuard (guard : word.isNoGuard = false) (others : fixed.all isNoGuard = true) :
    word ∉ fixed := by
  intro mem
  rw [List.all_eq_true.mp others word mem] at guard
  cases guard

theorem ne_of_isNoGuard (guard : word.isNoGuard = false) (other : t.isNoGuard = true) :
    word ≠ t := by
  rintro rfl
  rw [other] at guard
  cases guard

/-- A text has the words of its lines. -/
theorem flatMap_words_lines (t : Text) : t.lines.flatMap words = t.words := by
  have whole : ['\n'].intercalate t.lines = t := List.intercalate_splitOn '\n'
  rw [← words_intercalate ['\n'] t.lines (by decide) (by decide), whole]

end Text

/-- The guard is no fixed word. -/
theorem Settings.isNoGuard_guard (settings : Settings) : settings.guard.isNoGuard = false := by
  have capital : settings.guard.any Char.isLower = false :=
    capital_iff.mp (Symbol.capital_guardName settings.headerName)
  have letter : settings.guard.startsWithDigit = false :=
    Symbol.startsWithDigit_guardName settings.headerName
  rw [isNoGuard, capital, letter, Bool.or_false]

/-- The words of a list between braces. -/
theorem words_listText {keyword name opener : Text} {entries : List Text}
    (front : keyword.endsApart = true) (between : (opener ++ "\n\t".toList).separates = true)
    (word : name.IsWord) :
    words (listText keyword name opener entries) =
      keyword.words ++ [name] ++ words (opener ++ "\n\t".toList) ++ entries.flatMap words := by
  have closer : words "\n\x7d;".toList = [] := by decide
  have shape : listText keyword name opener entries =
      keyword ++ name ++ (opener ++ "\n\t".toList) ++
      entrySeparator.intercalate entries ++ "\n\x7d;".toList := by
    simp [listText]
  rw [shape, words_append_of_startsApart _ (by decide), words_append_append _ _ between,
    words_append_of_endsApart _ front, word.words_eq,
    words_intercalate entrySeparator entries (by decide) (by decide), closer,
    List.append_nil]

section Words

variable {settings : Settings} {s : Structure} {word : Text}

/-- The words of an enumeration that could be a guard are its enumerators. -/
theorem Enumeration.mem_words_paragraph_iff {e : Enumeration} (guard : word.isNoGuard = false)
    (tag : e.tag.IsWord) (small : e.tag.isNoGuard = true)
    (enumerators : ∀ name ∈ e.enumerators, name.IsWord) :
    word ∈ e.paragraph.flatMap words ↔ word ∈ e.enumerators := by
  have keyword : word ∉ words "enum ".toList := notMem_of_isNoGuard guard (by decide)
  have opener : word ∉ words (" \x7b".toList ++ "\n\t".toList) :=
    notMem_of_isNoGuard guard (by decide)
  rw [paragraph, flatMap_words_lines, words_listText (by decide) (by decide) tag,
    flatMap_words enumerators]
  simp only [List.mem_append, List.mem_singleton, keyword, opener, ne_of_isNoGuard guard small,
    false_or]

/-- The words of a size table that could be a guard are words of the types. -/
theorem SizeTable.mem_words_paragraph_iff {t : SizeTable} (guard : word.isNoGuard = false)
    (name : t.name.IsWord) (small : t.name.isNoGuard = true) :
    word ∈ t.paragraph.flatMap words ↔ ∃ operand ∈ t.operands, word ∈ words operand := by
  have keyword : word ∉ words "const unsigned int ".toList := notMem_of_isNoGuard guard (by decide)
  have opener : word ∉ words ("[] = \x7b".toList ++ "\n\t".toList) :=
    notMem_of_isNoGuard guard (by decide)
  have size : word ∉ words "sizeof(".toList := notMem_of_isNoGuard guard (by decide)
  have entries : ∀ operand, word ∈ words (entry operand) ↔ word ∈ words operand := by
    intro operand
    have shape : entry operand = "sizeof(".toList ++ operand ++ [')'] := rfl
    have closer : words [')'] = [] := by decide
    rw [shape, words_append_of_startsApart _ (by decide), words_append_of_endsApart _ (by decide),
      closer, List.append_nil, List.mem_append]
    exact or_iff_right size
  rw [paragraph, flatMap_words_lines, words_listText (by decide) (by decide) name,
    List.flatMap_map]
  simp only [List.mem_append, List.mem_singleton, List.mem_flatMap, keyword, opener, entries,
    ne_of_isNoGuard guard small, false_or]

/-- No word of the declaration of a size table could be a guard. -/
theorem SizeTable.notMem_words_declaration {t : SizeTable} (guard : word.isNoGuard = false)
    (name : t.name.IsWord) (small : t.name.isNoGuard = true) : word ∉ t.declaration.words := by
  have keywords : word ∉ words "extern const unsigned int ".toList :=
    notMem_of_isNoGuard guard (by decide)
  obtain ⟨number, digit⟩ := Text.isWord_decimal t.operands.length
  have digits : (Text.decimal t.operands.length).isNoGuard = true := by
    rw [isNoGuard, digit, Bool.or_true]
  have shape : t.declaration = "extern const unsigned int ".toList ++ t.name ++ '[' ::
      Text.decimal t.operands.length ++ "];".toList := rfl
  have closer : words "];".toList = [] := by decide
  rw [shape, words_append_of_startsApart _ (by decide), words_append_cons (by decide),
    words_append_of_endsApart _ (by decide), name.words_eq, number.words_eq, closer]
  simp only [List.mem_append, List.mem_singleton, keywords, ne_of_isNoGuard guard small,
    ne_of_isNoGuard guard digits, List.not_mem_nil, or_false, not_false_eq_true]

namespace Accessor

variable {a : Accessor}

/-- The names in an accessor are words, and the function and the size table are called like no
guard. -/
structure Worded (a : Accessor) : Prop where
  name : a.name.IsWord
  tag : a.tag.IsWord
  inst : a.inst.IsWord
  sizes : a.sizes.IsWord
  labels : ∀ c ∈ a.cases, c.label.IsWord
  members : ∀ c ∈ a.cases, ∀ member ∈ c.path, member.IsWord
  indices : ∀ c ∈ a.cases, c.index.IsWord
  function : a.name.isNoGuard = true
  table : a.sizes.isNoGuard = true

/-- The words of a signature that could be a guard are the tag and the instance. -/
theorem Worded.mem_words_signature_iff (worded : a.Worded) (guard : word.isNoGuard = false) :
    word ∈ a.signature.words ↔ word = a.tag ∨ word = a.inst := by
  have start : word ∉ ["int".toList, a.name] := by
    refine notMem_of_isNoGuard guard ?_
    rw [List.all_cons, List.all_cons, worded.function]
    decide
  have first : word ∉ ["int".toList, "ev".toList, "struct".toList] :=
    notMem_of_isNoGuard guard (by decide)
  have last : word ∉ ["void".toList, "fieldptr".toList, "unsigned".toList, "int".toList,
    "size".toList] := notMem_of_isNoGuard guard (by decide)
  rw [words_signature worded.name worded.tag worded.inst]
  simp only [List.mem_append, start, first, last, List.mem_singleton, false_or, or_false]

/-- The words of a case that could be a guard are its enumerators, the instance and the members. -/
theorem Worded.mem_words_caseLines_iff (worded : a.Worded) (guard : word.isNoGuard = false)
    {c : AccessorCase} (mem : c ∈ a.cases) : word ∈ (a.caseLines c).flatMap words ↔
      word = c.label ∨ word = a.inst ∨ word ∈ c.path ∨ word = c.index := by
  have first : words ("\tcase ".toList ++ c.label ++ [':']) = ["case".toList, c.label] := by
    rw [words_append_of_startsApart _ (by decide), words_append_of_endsApart _ (by decide),
      (worded.labels c mem).words_eq]
    rfl
  have second : words ("\t\t*fieldptr = &".toList ++ a.inst ++ "->".toList ++
      ['.'].intercalate c.path ++ [';']) = ["fieldptr".toList, a.inst] ++ c.path := by
    have front : words "\t\t*fieldptr = &".toList = ["fieldptr".toList] := by decide
    have arrow : words "->".toList = [] := by decide
    rw [words_append_of_startsApart _ (by decide), words_append_append _ _ (by decide),
      words_append_of_endsApart _ (by decide), worded.inst.words_eq, front, arrow,
      words_intercalate ['.'] c.path (by decide) (by decide),
      flatMap_words (worded.members c mem), words_cons (by decide), words_nil, List.append_nil,
      List.append_nil]
    rfl
  have third : words ("\t\t*size = ".toList ++ a.sizes ++ '[' :: c.index ++ " - 1];".toList) =
      ["size".toList, a.sizes] ++ [c.index] ++ ["1".toList] := by
    rw [words_append_of_startsApart _ (by decide), words_append_cons (by decide),
      words_append_of_endsApart _ (by decide), worded.sizes.words_eq,
      (worded.indices c mem).words_eq]
    rfl
  have fourth : words "\t\tbreak;".toList = ["break".toList] := by decide
  have keyword : word ≠ "case".toList := ne_of_isNoGuard guard (by decide)
  have pointer : word ≠ "fieldptr".toList := ne_of_isNoGuard guard (by decide)
  have table : word ∉ ["size".toList, a.sizes] := by
    refine notMem_of_isNoGuard guard ?_
    rw [List.all_cons, List.all_cons, worded.table]
    decide
  have one : word ∉ ["1".toList] := notMem_of_isNoGuard guard (by decide)
  have leaving : word ∉ ["break".toList] := notMem_of_isNoGuard guard (by decide)
  rw [caseLines]
  simp only [List.flatMap_cons, List.flatMap_nil, first, second, third, fourth, List.mem_append,
    table, one, leaving, List.mem_cons, keyword, pointer, List.not_mem_nil, or_false, false_or,
    or_assoc]

/-- The words of an accessor that could be a guard are the tag, the instance, the error, the
enumerators of its cases and the members. -/
theorem Worded.mem_words_lines_iff (worded : a.Worded) (guard : word.isNoGuard = false) :
    word ∈ a.lines.flatMap words ↔ word = a.tag ∨ word = a.inst ∨ word = "EINVAL".toList ∨
      ∃ c ∈ a.cases, word = c.label ∨ word ∈ c.path ∨ word = c.index := by
  have opening : word ∉ ["\x7b".toList, "\tswitch (ev) \x7b".toList].flatMap words :=
    notMem_of_isNoGuard guard (by decide)
  have ending : ["\tdefault:".toList, "\t\treturn -EINVAL;".toList, "\t\x7d".toList,
      "\treturn 0;".toList, "\x7d".toList].flatMap words =
        ["default".toList, "return".toList] ++ ["EINVAL".toList] ++
          ["return".toList, "0".toList] := by decide
  have before : word ∉ ["default".toList, "return".toList] := notMem_of_isNoGuard guard (by decide)
  have after : word ∉ ["return".toList, "0".toList] := notMem_of_isNoGuard guard (by decide)
  have selected : word ∈ (a.cases.flatMap a.caseLines).flatMap words ↔
      ∃ c ∈ a.cases, word = c.label ∨ word = a.inst ∨ word ∈ c.path ∨ word = c.index := by
    rw [List.flatMap_assoc, List.mem_flatMap]
    exact exists_congr fun c => and_congr_right fun mem => worded.mem_words_caseLines_iff guard mem
  have shape : a.lines.flatMap words = a.signature.words ++
      ["\x7b".toList, "\tswitch (ev) \x7b".toList].flatMap words ++
      (a.cases.flatMap a.caseLines).flatMap words ++ ["\tdefault:".toList,
        "\t\treturn -EINVAL;".toList, "\t\x7d".toList, "\treturn 0;".toList,
        "\x7d".toList].flatMap words := by
    rw [lines, List.flatMap_append, List.flatMap_append, List.flatMap_cons]
  rw [shape, ending]
  simp only [List.mem_append, worded.mem_words_signature_iff guard, opening, selected,
    before, after, List.mem_singleton, false_or, or_false]
  constructor
  · rintro (((isTag | isInst) | ⟨c, mem, label | isInst | member | index⟩) | error)
    · exact .inl isTag
    · exact .inr (.inl isInst)
    · exact .inr (.inr (.inr ⟨c, mem, .inl label⟩))
    · exact .inr (.inl isInst)
    · exact .inr (.inr (.inr ⟨c, mem, .inr (.inl member)⟩))
    · exact .inr (.inr (.inr ⟨c, mem, .inr (.inr index)⟩))
    · exact .inr (.inr (.inl error))
  · rintro (isTag | isInst | error | ⟨c, mem, label | member | index⟩)
    · exact .inl (.inl (.inl isTag))
    · exact .inl (.inl (.inr isInst))
    · exact .inr error
    · exact .inl (.inr ⟨c, mem, .inl label⟩)
    · exact .inl (.inr ⟨c, mem, .inr (.inr (.inl member))⟩)
    · exact .inl (.inr ⟨c, mem, .inr (.inr (.inr index))⟩)

end Accessor

end Words

namespace Structure

variable {settings : Settings} {s : Structure} {word : Text}

/-- The words of both files that a guard can be: what both files take from a structure as it is
declared, its enumerators, and the error of its accessor. -/
def exposed (settings : Settings) (s : Structure) : List Text :=
  "EINVAL".toList :: s.name :: (s.labels settings).short :: (s.enumeration settings).enumerators
    ++ s.fields.entries.flatMap fun f => f.path ++ words f.sizedType

/-- Everything that both files say of a structure behind the guard. -/
def paragraphs (settings : Settings) (s : Structure) : List Text :=
  (s.enumeration settings).paragraph ++ s.declarationParagraph settings
    ++ (s.sizeTable settings).paragraph ++ (s.accessor settings).lines

/-- What is put behind a name for its table, its accessor or the tag of its enumeration has small
letters. -/
theorem isNoGuard_labels (settings : Settings) (s : Structure) :
    (s.labels settings).enumTag.isNoGuard = true ∧ (s.labels settings).sizes.isNoGuard = true ∧
      (s.labels settings).accessor.isNoGuard = true :=
  ⟨isNoGuard_append_right _ (by decide), isNoGuard_append_right _ (by decide),
    isNoGuard_append_right _ (by decide)⟩

/-- An enumerator of a structure is a word. -/
theorem Spelled.isWord_constant {f : Field} (spelled : s.Spelled) (hf : f ∈ s.fields.entries) :
    ((s.labels settings).constant f.name).IsWord :=
  Labels.isWord_constant (isWord_short spelled.tag)
    (isWord_of_isIdentifier (spelled.fields f hf).name)

theorem Spelled.worded_accessor (spelled : s.Spelled) (settings : Settings) :
    (s.accessor settings).Worded := by
  have short : (s.labels settings).short.IsWord := isWord_short spelled.tag
  obtain ⟨-, table, accessor⟩ := isNoGuard_labels settings s
  exact {
    name := short.append (by decide)
    tag := isWord_of_isIdentifier spelled.tag
    inst := short
    sizes := short.append (by decide)
    labels := List.forall_mem_map.mpr fun f hf => spelled.isWord_constant hf
    members := List.forall_mem_map.mpr fun f hf m mem =>
      isWord_of_isIdentifier ((spelled.fields f hf).members m mem)
    indices := List.forall_mem_map.mpr fun f hf => spelled.isWord_constant hf
    function := accessor
    table := table }

/-- The words of what is declared for a structure that could be a guard are its name and its short
name. -/
theorem Spelled.mem_words_declarationParagraph_iff (spelled : s.Spelled)
    (guard : word.isNoGuard = false) :
    word ∈ (s.declarationParagraph settings).flatMap words ↔
      word = s.name ∨ word = (s.labels settings).short := by
  have worded := spelled.worded_accessor settings
  have own : words ("struct ".toList ++ s.name ++ [';']) = ["struct".toList, s.name] := by
    rw [words_append_of_startsApart _ (by decide), words_append_of_endsApart _ (by decide),
      (isWord_of_isIdentifier spelled.tag).words_eq]
    rfl
  have keyword : word ≠ "struct".toList := ne_of_isNoGuard guard (by decide)
  have sizes : word ∉ (s.sizeTable settings).declaration.words :=
    SizeTable.notMem_words_declaration guard worded.sizes worded.table
  have signature : word ∈ words ((s.accessor settings).signature ++ [';']) ↔
      word = s.name ∨ word = (s.labels settings).short := by
    rw [words_append_of_startsApart _ (by decide), words_cons (by decide), words_nil,
      List.append_nil]
    exact worded.mem_words_signature_iff guard
  rw [declarationParagraph]
  simp only [List.flatMap_cons, List.flatMap_nil, List.append_nil, List.mem_append, own, sizes,
    signature, List.mem_cons, keyword, List.not_mem_nil, or_false, false_or]
  exact or_iff_right_of_imp Or.inl

/-- The words of the enumeration of a structure that could be a guard are its enumerators. -/
theorem Spelled.mem_words_enumeration_iff (spelled : s.Spelled) (guard : word.isNoGuard = false) :
    word ∈ (s.enumeration settings).paragraph.flatMap words ↔
      word ∈ (s.enumeration settings).enumerators := by
  have tag : (s.labels settings).enumTag.IsWord :=
    isWord_of_isIdentifier (Labels.isIdentifier_enumTag spelled.tag)
  have sentinel : (s.labels settings).sentinel.IsWord :=
    Labels.isWord_constant (isWord_short spelled.tag) (isWord_of_isIdentifier (by decide))
  refine Enumeration.mem_words_paragraph_iff guard tag (isNoGuard_labels settings s).1 ?_
  exact List.forall_mem_cons.mpr ⟨sentinel, List.forall_mem_map.mpr
    (List.forall_mem_map.mpr fun f hf => spelled.isWord_constant hf)⟩

/-- The words of the size table of a structure that could be a guard are words of the types. -/
theorem Spelled.mem_words_sizeTable_iff (spelled : s.Spelled) (guard : word.isNoGuard = false) :
    word ∈ (s.sizeTable settings).paragraph.flatMap words ↔
      ∃ f ∈ s.fields.entries, word ∈ words f.sizedType := by
  have worded := spelled.worded_accessor settings
  rw [SizeTable.mem_words_paragraph_iff guard worded.sizes worded.table]
  simp only [Structure.sizeTable, List.mem_map, exists_exists_and_eq_and]

/-- The words of the accessor of a structure that could be a guard. -/
theorem Spelled.mem_words_accessor_iff (spelled : s.Spelled) (guard : word.isNoGuard = false) :
    word ∈ (s.accessor settings).lines.flatMap words ↔ word = s.name ∨
      word = (s.labels settings).short ∨ word = "EINVAL".toList ∨ ∃ f ∈ s.fields.entries,
        word = (s.labels settings).constant f.name ∨ word ∈ f.path := by
  rw [(spelled.worded_accessor settings).mem_words_lines_iff guard]
  simp only [Structure.accessor, List.mem_map, exists_exists_and_eq_and]
  -- The enumerator of a case is also its index into the size table.
  refine or_congr_right (or_congr_right (or_congr_right ?_))
  refine exists_congr fun f => and_congr_right fun _ => ⟨?_, ?_⟩
  · rintro (label | member | index)
    · exact .inl label
    · exact .inr member
    · exact .inl index
  · rintro (label | member)
    · exact .inl label
    · exact .inr (.inl member)

/-- The words that both files have for a structure and that could be a guard. -/
theorem Spelled.mem_words_paragraphs_iff (spelled : s.Spelled) (guard : word.isNoGuard = false) :
    word ∈ (s.paragraphs settings).flatMap words ↔ word ∈ s.exposed settings := by
  have listed : ∀ f ∈ s.fields.entries,
      (s.labels settings).constant f.name ∈ (s.enumeration settings).enumerators := fun f hf =>
    List.mem_cons_of_mem _ (List.mem_map_of_mem (List.mem_map_of_mem hf))
  simp only [paragraphs, exposed, List.flatMap_append, List.mem_append, List.mem_cons,
    List.mem_flatMap, spelled.mem_words_enumeration_iff guard,
    spelled.mem_words_declarationParagraph_iff guard, spelled.mem_words_sizeTable_iff guard,
    spelled.mem_words_accessor_iff guard]
  constructor
  · rintro (((enumerator | isName | isShort) | ⟨f, hf, type⟩) |
      isName | isShort | error | ⟨f, hf, rfl | member⟩)
    · exact .inl (.inr (.inr (.inr enumerator)))
    · exact .inl (.inr (.inl isName))
    · exact .inl (.inr (.inr (.inl isShort)))
    · exact .inr ⟨f, hf, .inr type⟩
    · exact .inl (.inr (.inl isName))
    · exact .inl (.inr (.inr (.inl isShort)))
    · exact .inl (.inl error)
    · exact .inl (.inr (.inr (.inr (listed f hf))))
    · exact .inr ⟨f, hf, .inl member⟩
  · rintro ((error | isName | isShort | enumerator) | ⟨f, hf, member | type⟩)
    · exact .inr (.inr (.inr (.inl error)))
    · exact .inl (.inl (.inr (.inl isName)))
    · exact .inl (.inl (.inr (.inr isShort)))
    · exact .inl (.inl (.inl enumerator))
    · exact .inr (.inr (.inr (.inr ⟨f, hf, .inr member⟩)))
    · exact .inl (.inr ⟨f, hf, type⟩)

end Structure

namespace Header

variable {settings : Settings} {h : Header} {text : Text} {out : Artifacts}

/-- The words that the guard could replace in both files. -/
theorem mem_words_artifacts_iff (reads : ∀ s ∈ h.entries, s.ReadsBack settings) {word : Text} :
    word ∈ ((h.enumHeader settings).guarded ++
        [h.sizeTables settings, h.accessors settings]).flatMap words ↔
      ∃ s ∈ h.entries, word ∈ (s.paragraphs settings).flatMap words := by
  have guarded : (h.enumHeader settings).guarded =
      (h.entries.map (fun s => (s.enumeration settings).paragraph) ++
        h.entries.map (Structure.declarationParagraph settings)).flatten := by
    rw [Text.guarded, paragraphs_enumHeader reads, declaring, List.cons_append, List.tail_cons,
      show [[closing settings], []] = [[closing settings]] ++ [[]] from rfl, ← List.append_assoc,
      List.dropLast_concat, List.dropLast_concat]
  -- Paragraphs are put together with line breaks, which are in no word.
  have sizeTables : words (h.sizeTables settings) =
      h.entries.flatMap fun s => (s.sizeTable settings).paragraph.flatMap words := by
    rw [Header.sizeTables, words_intercalate _ _ (by decide) (by decide), List.flatMap_map]
    refine List.flatMap_congr fun s _ => ?_
    rw [← flatMap_words_lines, SizeTable.lines_text, List.flatMap_append]
    simp
  have accessors : words (h.accessors settings) =
      h.entries.flatMap fun s => (s.accessor settings).lines.flatMap words := by
    rw [Header.accessors, words_intercalate _ _ (by decide) (by decide), List.flatMap_map]
    refine List.flatMap_congr fun s hs => ?_
    rw [← flatMap_words_lines,
      Accessor.lines_text fun line mem => ((reads s hs).definition.1 line mem).1,
      List.flatMap_append]
    simp
  rw [guarded, List.flatten_append, ← List.flatMap_def, ← List.flatMap_def]
  simp only [List.flatMap_append, List.flatMap_assoc, List.flatMap_cons, List.flatMap_nil,
    sizeTables, accessors, Structure.paragraphs, List.mem_append, List.mem_flatMap,
    List.append_nil, and_or_left, exists_or, or_assoc]

/-- When artifacts are generated, the guard is a word of what it guards or of the source exactly
when it is one of the words that both files take from the declared structures, one of their
enumerators, or the error of the accessors. -/
theorem generate_exposes_guard_iff (ok : generate settings text = .ok out) :
    ∃ flat, compile settings text = .ok flat ∧ out.enumHeader.guard? = some settings.guard ∧
      out.source = settings.source out.sizeTables out.accessors ∧
      (settings.guard ∈ (out.enumHeader.guarded ++ [out.sizeTables, out.accessors]).flatMap words ↔
        ∃ s ∈ flat.entries, settings.guard ∈ s.exposed settings) := by
  obtain ⟨flat, compiled, rfl, spelled, reads⟩ := exists_printed_of_generate ok
  refine ⟨flat, compiled, guard?_enumHeader reads, rfl, (mem_words_artifacts_iff reads).trans ?_⟩
  refine exists_congr fun s => and_congr_right fun hs => ?_
  exact (spelled s hs).mem_words_paragraphs_iff settings.isNoGuard_guard

/-- A guard that is made from the name of a structure with one of its fields. -/
def nodeSettings : Settings := { nameSpace := [], headerName := "fs_node.h".toList }

/-- A structure with an enumerator like the guard and one without. -/
def nodeText : Text :=
  "struct fs \x7b int node_h; \x7d;\n".toList ++ "struct dir \x7b struct fs *root; \x7d;".toList

theorem generate_exposes_guard_iff_nodeText :
    ∃ out, generate nodeSettings nodeText = .ok out ∧
      (∃ flat, compile nodeSettings nodeText = .ok flat ∧
        out.enumHeader.guard? = some nodeSettings.guard ∧
        out.source = nodeSettings.source out.sizeTables out.accessors ∧
        (nodeSettings.guard ∈
            (out.enumHeader.guarded ++ [out.sizeTables, out.accessors]).flatMap words ↔
          ∃ s ∈ flat.entries, nodeSettings.guard ∈ s.exposed nodeSettings)) ∧
      (compile nodeSettings nodeText).toOption.map (fun flat => flat.entries.map fun s =>
        decide (nodeSettings.guard ∈ s.exposed nodeSettings)) = some [true, false] := by
  have exposed : (compile nodeSettings nodeText).toOption.map (fun flat =>
      flat.entries.map fun s => decide (nodeSettings.guard ∈ s.exposed nodeSettings)) =
        some [true, false] := by decide +kernel
  obtain ⟨-, out, -, ok, -⟩ := exists_listing_of_compile exposed
  exact ⟨out, ok, generate_exposes_guard_iff ok, exposed⟩

/-- A structure with an enumerator like the guard of the enum header that is written unless another
one is given. -/
def enumText : Text := "struct evfs_enum \x7b int h; \x7d;".toList

/-- The guard is an enumerator of the header that it guards, where it is replaced by nothing. -/
theorem guard_enumerator_enumText :
    ∃ out listing, generate {} enumText = .ok out ∧
      out.enumHeader.guard? = some "ENUM_H".toList ∧
      Listing.read out.enumHeader out.source = some listing ∧
      listing.enumerations.map Enumeration.enumerators =
        [["ENUM_INVALID_FIELD".toList, "ENUM_H".toList]] := by
  have named : (compile {} enumText).toOption.map (fun flat =>
      (flat.listing {}).enumerations.map Enumeration.enumerators) =
        some [["ENUM_INVALID_FIELD".toList, "ENUM_H".toList]] := by decide +kernel
  obtain ⟨flat, out, -, ok, guard, read, enumerators⟩ := exists_listing_of_compile named
  exact ⟨out, flat.listing {}, ok, guard, read, enumerators⟩

end Header

end FieldTables
