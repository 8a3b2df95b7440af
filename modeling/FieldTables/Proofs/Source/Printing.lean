import FieldTables.Proofs.Source.Classification
import FieldTables.Proofs.Source.Statement
import Mathlib.Data.List.Induction

/-!
# Printing a header

A header is printed with one line for each opening and one for each field: the type, the name and
the array length. The type is spelled in one way, however it was declared, with the keyword in front
of every tag and all stars together. Reading what was printed gives the header again, as long as no
tag is a type word.
-/

namespace FieldTables

open Outcome Text

/-- The opening of a structure as it is printed. -/
def Structure.opening (s : Structure) : Text := structKeyword ++ ' ' :: s.name ++ [' ', '{']

/-- The declaration of a field as it is printed. -/
def Field.declaration (f : Field) : Text :=
  f.type ++ ' ' :: f.name ++
    match f.length with
    | some length => '[' :: length ++ [']']
    | none => []

/-- The lines that a structure is printed on, with their numbers. -/
def Structure.printed (s : Structure) : List (Nat × Text) :=
  (s.line, s.opening) :: s.fields.entries.map fun f => (f.line, f.declaration)

/-- The lines that a header is printed on, with their numbers. -/
def Header.printed (h : Header) : List (Nat × Text) := h.entries.flatMap Structure.printed

/-- The line of a statement with its number. -/
def Statement.numbered (s : Statement) : Nat × Text := (s.line, s.text)

namespace Lexeme

variable {l : Lexeme} {rest part : Text}

/-- Only words are spelled like identifiers. -/
theorem eq_word_of_isIdentifier (identifier : l.text.isIdentifier = true) : l = .word l.text := by
  cases l with
  | word name => rfl
  | star => cases identifier
  | group inside => cases identifier
  | brace => cases identifier

/-- A lexeme that can stand alone and has no opening brace. -/
structure Plain (l : Lexeme) : Prop where
  alone : l.Ends []
  closed : '{' ∉ l.text

/-- The lexeme of a part of a type: a star, or else a word. -/
def ofPart (part : Text) : Lexeme := if part = ['*'] then .star else .word part

/-- A part of a type that was read. -/
def IsPart (part : Text) : Prop := part = ['*'] ∨ part.isIdentifier = true

theorem text_ofPart (part : Text) : (ofPart part).text = part := by
  unfold ofPart
  split
  next star => exact star.symm
  next => rfl

theorem ofPart_of_isIdentifier (identifier : part.isIdentifier = true) :
    ofPart part = .word part := by
  refine if_neg ?_
  rintro rfl
  cases identifier

/-- A part of a type ends where no name goes on. -/
theorem ends_ofPart (is : IsPart part) (apart : rest.startsApart = true) :
    (ofPart part).Ends rest := by
  rcases is with rfl | identifier
  · trivial
  · rw [ofPart_of_isIdentifier identifier]
    exact ⟨identifier, apart⟩

theorem isPart_of_ends (ends : (ofPart part).Ends rest) : IsPart part := by
  unfold ofPart at ends
  split at ends
  next star => exact .inl star
  next => exact .inr ends.1

end Lexeme

/-- The lexemes of a text without opening braces are plain. -/
theorem Text.Lexed.plain {t : Text} {ls : List Lexeme} (lexed : Lexed t ls) (closed : '{' ∉ t) :
    ∀ l ∈ ls, l.Plain := fun l mem =>
  let ⟨alone, within⟩ := lexed.forall_mem l mem
  ⟨alone, fun has => closed (within has)⟩

/-- A text with plain lexemes has no opening brace. -/
theorem Text.Lexed.closed {t : Text} {ls : List Lexeme} (lexed : Lexed t ls)
    (plain : ∀ l ∈ ls, l.Plain) : '{' ∉ t := by
  induction lexed with
  | nil => exact List.not_mem_nil
  | blank blank _ ih =>
    rintro (_ | ⟨_, mem⟩)
    · exact absurd blank (by decide)
    · exact ih plain mem
  | lexeme _ _ ih =>
    obtain ⟨here, later⟩ := List.forall_mem_cons.mp plain
    exact fun mem => (List.mem_append.mp mem).elim here.closed (ih later)

/-- All words of a vocabulary are identifiers, and no tag is a type word. -/
structure Vocabulary.Apart (v : Vocabulary) : Prop where
  types : ∀ word ∈ v.types, word.isIdentifier = true
  structures : ∀ tag ∈ v.structures, tag.isIdentifier = true ∧ tag ∉ v.types

namespace Declaration

open Lexeme

variable {v : Vocabulary} {d r : Declaration} {ls more : List Lexeme} {parts : List Text}

/-- The last part of a type is written behind the others. -/
theorem typeText_append (parts : List Text) (part : Text) :
    typeText (parts ++ [part]) =
      if (typeText parts).isEmpty || (part == ['*'] && (typeText parts).getLast? == some '*') then
        typeText parts ++ part
      else typeText parts ++ ' ' :: part := by
  rw [typeText, List.foldl_append]
  rfl

/-- A type is cut into the lexemes of its parts again. -/
theorem lexed_typeText {rest : Text} (each : ∀ part ∈ parts, IsPart part)
    (apart : rest.startsApart = true) (below : Lexed rest more) :
    Lexed (typeText parts ++ rest) (parts.map ofPart ++ more) := by
  induction parts using List.reverseRecOn generalizing rest more with
  | nil => exact below
  | append_singleton parts part ih =>
    obtain ⟨front, last⟩ := List.forall_mem_append.mp each
    have is : IsPart part := last part List.mem_cons_self
    have behind : Lexed (part ++ rest) (ofPart part :: more) := by
      have lexed := Lexed.lexeme (ends_ofPart is apart) below
      rwa [text_ofPart] at lexed
    rw [typeText_append, List.map_append, List.append_assoc]
    split
    next glued =>
      rw [List.append_assoc]
      rw [Bool.or_eq_true, Bool.and_eq_true, List.isEmpty_iff, beq_iff_eq] at glued
      rcases glued with first | ⟨star, -⟩
      · -- Nothing was written before, so there are no parts in front.
        have alone : Lexed (typeText parts ++ []) (parts.map ofPart ++ []) := ih front rfl .nil
        rw [first] at alone
        have same := alone.unique .nil
        rw [List.append_nil] at same
        rw [first, same]
        exact behind
      · exact ih front (star ▸ rfl) behind
    next =>
      rw [List.append_assoc]
      exact ih front rfl (.blank (by decide) behind)

/-- A declaration without names and length, as it is when its type was read. -/
def typeOnly (d : Declaration) : Declaration := { d with names := [], length := none }

/-- A word that is taken for a name behind the type of a declaration. -/
structure Names (v : Vocabulary) (d : Declaration) (name : Text) : Prop where
  identifier : name.isIdentifier = true
  keyword : name ≠ structKeyword
  unknown : name ∉ v.types
  structures : name ∈ v.structures → d.inner ≠ none

/-- A name stays one behind a type that names a structure when the other one does. -/
theorem Names.mono {next : Declaration} {name : Text} (names : Names v d name)
    (inner : d.inner ≠ none → next.inner ≠ none) : Names v next name :=
  ⟨names.identifier, names.keyword, names.unknown, fun tag => inner (names.structures tag)⟩

/-- What was read can be printed and read again. -/
structure Printable (v : Vocabulary) (d : Declaration) : Prop where
  /-- Each part of the type is a lexeme. -/
  parts : ∀ part ∈ d.parts, IsPart part
  /-- The parts are taken for the same type again. -/
  again : Reads v {} (d.parts.map ofPart) d.typeOnly
  /-- The first name is taken for a name again. -/
  names : ∀ name ∈ d.names.head?, Names v d name.1
  /-- The length is trimmed and can stand between brackets. -/
  length : ∀ length ∈ d.length, length.trim = length ∧ length ≠ [] ∧ (Lexeme.group length).Plain

variable {next : Declaration}

/-- What is taken in one step is taken in a sequence of steps. -/
theorem Takes.reads (goes : d.length = none) (takes : Takes v d ls next) : Reads v d ls next := by
  have whole := Reads.cons goes takes (.nil next)
  rwa [List.append_nil] at whole

/-- More of the type is read again behind what was read of it. -/
private theorem Printable.extend (printable : Printable v d) {added : List Text}
    (each : ∀ part ∈ added, (ofPart part).Ends []) (parts : next.parts = d.parts ++ added)
    (takes : Takes v d.typeOnly (added.map ofPart) next.typeOnly) (names : next.names = d.names)
    (length : next.length = d.length) (inner : d.inner ≠ none → next.inner ≠ none) :
    Printable v next where
  parts := by
    rw [parts, List.forall_mem_append]
    exact ⟨printable.parts, fun part mem => isPart_of_ends (each part mem)⟩
  again := by
    rw [parts, List.map_append]
    exact printable.again.append (takes.reads rfl)
  names name mem := (printable.names name (names ▸ mem)).mono inner
  length := length ▸ printable.length

private theorem isIdentifier_structKeyword : structKeyword.isIdentifier = true := by decide

/-- A tag is read again behind its keyword. -/
private theorem Printable.addStructure (printable : Printable v d) {tag : Text}
    (identifier : tag.isIdentifier = true) : Printable v (d.addStructure tag) := by
  have lexemes : [structKeyword, tag].map ofPart = [.word structKeyword, .word tag] := by
    rw [List.map_cons, List.map_singleton, ofPart_of_isIdentifier isIdentifier_structKeyword,
      ofPart_of_isIdentifier identifier]
  have each : ∀ part ∈ [structKeyword, tag], (ofPart part).Ends [] := by
    refine List.forall_mem_cons.mpr ⟨ends_ofPart (.inr isIdentifier_structKeyword) rfl, ?_⟩
    exact List.forall_mem_singleton.mpr (ends_ofPart (.inr identifier) rfl)
  refine printable.extend each rfl ?_ rfl rfl fun _ => Option.some_ne_none tag
  rw [lexemes]
  exact .tagged tag

/-- What is taken of a declaration that can be printed can be printed. -/
theorem Printable.takes (apart : v.Apart) (printable : Printable v d)
    (each : ∀ l ∈ ls, l.Plain) (takes : Takes v d ls next) : Printable v next := by
  have star : ¬Text.isIdentifier ['*'] = true := by decide
  cases takes with
  | tagged tag => exact printable.addStructure (each (.word tag) (by simp)).alone.1
  | declared other refers => exact printable.addStructure (apart.structures _ refers.1).1
  | @type l other plain known =>
    have word := eq_word_of_isIdentifier (apart.types _ known)
    have same : ofPart l.text = l := (ofPart_of_isIdentifier (apart.types _ known)).trans word.symm
    have own : ∀ part ∈ [l.text], (ofPart part).Ends [] := by
      rw [List.forall_mem_singleton, same]
      exact (each l List.mem_cons_self).alone
    refine printable.extend own rfl ?_ rfl rfl id
    rw [List.map_singleton, same]
    exact .type other (fun refers => (apart.structures _ refers.1).2 known) known
  | star plain unknown =>
    have own : ∀ part ∈ [['*']], (ofPart part).Ends [] := by
      rw [List.forall_mem_singleton]
      trivial
    refine printable.extend own rfl ?_ rfl rfl id
    exact .star (fun refers => star (apart.structures _ refers.1).1) unknown
  | @name name other plain unknown =>
    refine ⟨printable.parts, printable.again, ?_, printable.length⟩
    intro n mem
    have head : n ∈ (d.names ++ [(name, 0)]).head? := mem
    cases first : d.names with
    | nil =>
      rw [first] at head
      cases head
      refine ⟨(each (.word name) List.mem_cons_self).alone.1, other, unknown, fun tag lead => ?_⟩
      exact plain ⟨tag, lead, first⟩
    | cons m others =>
      rw [first] at head
      exact (printable.names n (first ▸ head)).mono id
  | @array inside plain unknown named full =>
    refine ⟨printable.parts, printable.again, fun n mem => (printable.names n mem).mono id,
      fun length mem => ?_⟩
    cases mem
    obtain ⟨alone, closed⟩ := each (.group inside) List.mem_cons_self
    have kept : Text.trim inside ⊆ inside := trim_subset inside
    refine ⟨trim_trim inside, full, fun c mem => alone c (kept mem), fun mem => closed ?_⟩
    simp only [Lexeme.text, List.cons_append, List.mem_cons, List.mem_append] at mem ⊢
    exact mem.imp_right (Or.imp_left (@kept _))

/-- What is read of a statement can be printed. -/
theorem Reads.printable (apart : v.Apart) (reads : Reads v d ls r) (printable : Printable v d)
    (each : ∀ l ∈ ls, l.Plain) : Printable v r := by
  induction reads with
  | nil => exact printable
  | cons goes takes below ih =>
    obtain ⟨front, back⟩ := List.forall_mem_append.mp each
    exact ih (printable.takes apart front takes) back

/-- The lexemes of a declaration as it is printed. -/
def lexemes (d : Declaration) (name : Text) : List Lexeme :=
  d.parts.map ofPart ++ .word name :: d.length.toList.map .group

/-- What can be printed is read again as it was. -/
theorem Printable.reads {name : Text} {place : Nat} (apart : v.Apart) (printable : Printable v d)
    (named : d.names = [(name, place)]) :
    Reads v {} (d.lexemes name) { d with names := [(name, 0)] } := by
  have names : Names v d name := printable.names (name, place) (by rw [named]; rfl)
  have takesName : Takes v d.typeOnly [.word name] (d.typeOnly.addName name) := by
    refine .name names.keyword ?_ names.unknown
    rintro ⟨tag, own, -⟩
    exact names.structures tag own
  refine printable.again.append (.cons rfl takesName ?_)
  cases stated : d.length with
  | none =>
    have whole : d.typeOnly.addName name = { d with names := [(name, 0)], length := none } := rfl
    rw [whole]
    exact .nil _
  | some length =>
    obtain ⟨trimmed, full, -⟩ := printable.length length stated
    have unknown : (Lexeme.group length).text ∉ v.types := fun known => by
      cases apart.types _ known
    have unread : ¬(d.typeOnly.addName name).Refers v (.group length) :=
      fun refers => nomatch refers.2.2
    have takesLength := Takes.array unread unknown nofun (trimmed.symm ▸ full)
    rw [trimmed] at takesLength
    exact takesLength.reads rfl

/-- A field is printed with the lexemes of its declaration. -/
theorem Printable.lexed_declaration {line : Nat} {f : Field} (printable : Printable v d)
    (gives : d.Gives line f) : Lexed f.declaration (d.lexemes f.name) := by
  obtain ⟨⟨_, place⟩, named, rfl⟩ := List.map_eq_singleton_iff.mp gives.name
  have identifier := (printable.names _ (by rw [named]; rfl)).identifier
  have type : f.type = typeText d.parts := by rw [gives.field]; rfl
  have length : f.length = d.length := by rw [gives.field]
  have suffix : ∃ suffix,
      (match d.length with | some length => '[' :: length ++ [']'] | none => []) = suffix ∧
        suffix.startsApart = true ∧ Lexed suffix (d.length.toList.map .group) := by
    cases stated : d.length with
    | none => exact ⟨[], rfl, rfl, .nil⟩
    | some length =>
      have ends := (printable.length length stated).2.2.alone
      have lexed := Lexed.lexeme ends .nil
      rw [List.append_nil] at lexed
      exact ⟨_, rfl, rfl, lexed⟩
  obtain ⟨suffix, shape, apart, lexed⟩ := suffix
  have name : (Lexeme.word f.name).Ends suffix := ⟨identifier, apart⟩
  rw [Field.declaration, type, length, shape, List.append_assoc]
  exact lexed_typeText printable.parts rfl (.blank (by decide) (.lexeme name lexed))

/-- No lexeme of a printed declaration has an opening brace. -/
theorem Printable.plain (printable : Printable v d) {name : Text}
    (identifier : name.isIdentifier = true) : ∀ l ∈ d.lexemes name, l.Plain := by
  have word : ∀ {name : Text}, name.isIdentifier = true → (Lexeme.word name).Plain :=
    fun identifier => ⟨⟨identifier, rfl⟩, fun mem =>
      absurd (isName_of_isIdentifier identifier _ mem) (by decide)⟩
  refine List.forall_mem_append.mpr ⟨List.forall_mem_map.mpr fun part mem => ?_, ?_⟩
  · rcases printable.parts part mem with rfl | identifier
    · exact ⟨trivial, by decide⟩
    · rw [ofPart_of_isIdentifier identifier]
      exact word identifier
  · refine List.forall_mem_cons.mpr ⟨word identifier, List.forall_mem_map.mpr fun length mem => ?_⟩
    exact (printable.length length (Option.mem_toList.mp mem)).2.2

end Declaration

namespace Statement

variable {v : Vocabulary} {s : Statement} {f : Field} {tag : Text}

/-- A tag that is opened is an identifier. -/
theorem isIdentifier_of_opens (opens : s.Opens tag) : tag.isIdentifier = true := by
  have alone := ((opens_iff.mp opens).forall_mem (.word tag) (by simp)).1
  exact alone.1

/-- A statement that prints the opening of a structure opens its tag. -/
theorem opens_of_opening {t : Structure} (identifier : t.name.isIdentifier = true)
    (text : s.text = t.opening) : s.Opens t.name ∧ s.isOpening = true := by
  have space : isBlank ' ' = true := by decide
  have brace : Lexed ['{'] [.brace] := Lexed.lexeme (l := .brace) trivial .nil
  have name : (Lexeme.word t.name).Ends [' ', '{'] := ⟨identifier, rfl⟩
  have keyword : (Lexeme.word structKeyword).Ends (' ' :: (t.name ++ [' ', '{'])) :=
    ⟨by decide, rfl⟩
  have lexed := Lexed.lexeme keyword (.blank space (.lexeme name (.blank space brace)))
  have shape : s.text = structKeyword ++ ' ' :: (t.name ++ [' ', '{']) := by
    simp [text, Structure.opening]
  constructor
  · rw [opens_iff, shape]
    exact lexed
  · simp [isOpening, shape]

/-- A field that a statement without opening braces declares is declared again by every statement on
its line that prints it, and that one has no opening braces either. -/
theorem field_of_declaration (apart : v.Apart) (ok : s.field v = .ok f)
    (closed : s.isOpening = false) {d : Statement} (same : d.numbered = (f.line, f.declaration)) :
    d.field v = .ok f ∧ d.isOpening = false := by
  obtain ⟨line, text⟩ := Prod.mk.inj same
  obtain ⟨ls, read, lexed, reads, gives⟩ := field_eq_ok_iff.mp ok
  have start : Declaration.Printable v {} := ⟨List.forall_mem_nil _, .nil _, nofun, nofun⟩
  have brace : '{' ∉ s.text := by simpa [isOpening] using closed
  have printable := reads.printable apart start (lexed.plain brace)
  have again := printable.lexed_declaration gives
  obtain ⟨⟨_, place⟩, named, rfl⟩ := List.map_eq_singleton_iff.mp gives.name
  have identifier := (printable.names _ (by rw [named]; rfl)).identifier
  rw [← text] at again
  constructor
  · refine field_eq_ok_iff.mpr ⟨_, _, again, printable.reads apart named, ?_⟩
    rw [line, line_of_field ok]
    exact ⟨rfl, gives.typed, gives.single, gives.field⟩
  · simpa [isOpening] using again.closed (printable.plain identifier)

end Statement

/-- What a segment becomes is declared by the statements that print it. -/
theorem Segment.exists_declares {v : Vocabulary} {g : Segment} {s : Structure} (apart : v.Apart)
    (becomes : g.Becomes v s) {lines : List Statement}
    (printed : lines.map Statement.numbered = s.printed) :
    ∃ g : Segment, g.statements = lines ∧ g.Declares v s := by
  obtain ⟨opener, body, rfl, first, rest⟩ := List.map_eq_cons_iff.mp printed
  obtain ⟨line, text⟩ := Prod.mk.inj first
  have identifier := Statement.isIdentifier_of_opens becomes.tag
  obtain ⟨tag, opens⟩ := Statement.opens_of_opening identifier text
  have each : ∀ f ∈ s.fields.entries, ∀ d : Statement, d.numbered = (f.line, f.declaration) →
      d.field v = .ok f ∧ d.isOpening = false := by
    intro f listed d same
    obtain ⟨own, mem, field, -⟩ := exists_of_mem_right becomes.fields listed
    exact Statement.field_of_declaration apart field (g.plain own (List.mem_of_mem_filter mem)) same
  have lines : List.Forall₂ Eq (body.map Statement.numbered) (s.printed.tail) :=
    List.forall₂_eq_eq_eq ▸ rest
  rw [Structure.printed, List.tail_cons, List.forall₂_map_left_iff,
    List.forall₂_map_right_iff] at lines
  have declared := ((List.forall₂_and_left _ _).mpr ⟨each, lines.flip⟩).imp fun f d here =>
    here.1 d here.2
  have plain : ∀ d ∈ body, d.isOpening = false := fun d mem =>
    let ⟨_, _, _, closed⟩ := exists_of_mem_right declared mem
    closed
  have full : body.filter (fun d => !d.text.isEmpty) = body := by
    refine List.filter_eq_self.mpr fun d mem => ?_
    obtain ⟨f, -, same⟩ := exists_of_mem_left lines mem
    have text : d.text = f.declaration := (Prod.mk.inj same).2
    simp [text, Field.declaration]
  refine ⟨⟨opener, body, opens, plain⟩, rfl, ?_⟩
  refine ⟨Statement.openedTag_eq_ok_iff.mpr tag, line.symm, ?_⟩
  rw [declarations, full]
  exact declared.flip.imp fun d f here => here.1

/-- What segments become is declared by the statements that print it. -/
theorem Segment.exists_forall₂_declares {v : Vocabulary} (apart : v.Apart) {segments : List Segment}
    {structures : List Structure} (becomes : List.Forall₂ (Becomes v) segments structures)
    {lines : List Statement}
    (printed : lines.map Statement.numbered = structures.flatMap Structure.printed) :
    ∃ segments : List Segment, segments.flatMap Segment.statements = lines ∧
      List.Forall₂ (Declares v) segments structures := by
  induction becomes generalizing lines with
  | nil =>
    obtain rfl := List.map_eq_nil_iff.mp printed
    exact ⟨[], rfl, .nil⟩
  | cons here _ ih =>
    rw [List.flatMap_cons] at printed
    obtain ⟨front, back, rfl, first, others⟩ := List.map_eq_append_iff.mp printed
    obtain ⟨g, rfl, declares⟩ := exists_declares apart here first
    obtain ⟨segments, rfl, below⟩ := ih others
    exact ⟨g :: segments, List.flatMap_cons, .cons declares below⟩

namespace Header

variable {extraTypes : List Text} {statements : List Statement} {h : Header}

/-- The words that a header is read with are identifiers, and no tag is a type word. -/
private theorem apart_of_ofStatements (identifiers : ∀ word ∈ extraTypes, word.isIdentifier = true)
    (ok : ofStatements extraTypes statements = .ok h)
    (apart : ∀ tag ∈ h.names, tag ∉ typeKeywords ++ extraTypes) :
    (Vocabulary.extend extraTypes h.names).Apart := by
  have keywords : ∀ word ∈ typeKeywords, word.isIdentifier = true := by decide
  refine ⟨List.forall_mem_append.mpr ⟨keywords, identifiers⟩, fun tag mem => ⟨?_, apart tag mem⟩⟩
  obtain ⟨s, listed, rfl⟩ := List.mem_map.mp mem
  obtain ⟨g, -, becomes⟩ := exists_of_mem_right (ofStatements_eq_ok_iff_becomes.mp ok).2 listed
  exact Statement.isIdentifier_of_opens becomes.tag

/-- A header that was read from any statements is read again from the lines that it is printed on,
wherever these start, as long as no tag is a type word. -/
theorem ofStatements_printed (identifiers : ∀ word ∈ extraTypes, word.isIdentifier = true)
    (ok : ofStatements extraTypes statements = .ok h)
    (apart : ∀ tag ∈ h.names, tag ∉ typeKeywords ++ extraTypes) {lines : List Statement}
    (printed : lines.map Statement.numbered = h.printed) :
    ofStatements extraTypes lines = .ok h := by
  have words := apart_of_ofStatements identifiers ok apart
  obtain ⟨-, becomes⟩ := ofStatements_eq_ok_iff_becomes.mp ok
  obtain ⟨segments, rfl, declared⟩ := Segment.exists_forall₂_declares words becomes printed
  exact ofSegments_eq_ok_iff.mpr declared

/-- Stars and tags in several places, and a field that is named like a structure. -/
def cacheText : Text :=
  ("struct evfs_cache \x7b\n\tu64 * const*rows [ 2*n ]; evfs_key const evfs_key;\n\x7d;\n" ++
    "struct evfs_key \x7b int id; \x7d;").toList

theorem ofStatements_printed_cacheText : ∃ h : Header, ∃ lines : List Statement,
    ofStatements ["u64".toList] (Statement.ofText cacheText) = .ok h ∧
      lines.map Statement.numbered = [(1, "struct evfs_cache \x7b".toList),
        (2, "u64 * const * rows[2*n]".toList), (2, "struct evfs_key const evfs_key".toList),
        (4, "struct evfs_key \x7b".toList), (4, "int id".toList)] ∧
      ofStatements ["u64".toList] lines = .ok h := by
  have value : (ofStatements ["u64".toList] (Statement.ofText cacheText)).toOption.map
      (fun h => (h.names, h.printed)) =
        some (["evfs_cache".toList, "evfs_key".toList], [(1, "struct evfs_cache \x7b".toList),
          (2, "u64 * const * rows[2*n]".toList), (2, "struct evfs_key const evfs_key".toList),
          (4, "struct evfs_key \x7b".toList), (4, "int id".toList)]) := by decide +kernel
  obtain ⟨h, ok, look⟩ := exists_of_map_toOption value
  obtain ⟨names, printed⟩ := Prod.mk.inj look
  let lines : List Statement := h.printed.map fun line => ⟨line.2, line.1, 1⟩
  have numbered : lines.map Statement.numbered = h.printed := by
    simp [lines, Function.comp_def, Statement.numbered]
  refine ⟨h, lines, ok, numbered.trans printed, ?_⟩
  refine ofStatements_printed (by decide) ok ?_ numbered
  rw [names]
  decide

end Header

end FieldTables
