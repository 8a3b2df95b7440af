import FieldTables.Proofs.Flattening.Exactness
import FieldTables.Proofs.Source.Placement
import FieldTables.Proofs.Source.Reading
import FieldTables.Proofs.Text.Identifier
import FieldTables.Proofs.Text.Line
import FieldTables.Proofs.Text.Marker

/-!
# How names, types and lengths are spelled

A statement is cut out of one line, so nothing in it goes over a line feed. Its words are
identifiers, and so are the tags and the field names of a header, also after flattening. Types and
array lengths can hold other characters, but no line feed.
-/

namespace FieldTables

open Outcome

open Text

namespace Statement

variable {v : Vocabulary} {s : Statement} {f : Field}

/-- A statement of a line without line feeds has none. -/
theorem oneLine_of_mem_ofLine {n : Nat} {t : Text} (line : t.OneLine) (mem : s ∈ ofLine n t) :
    s.text.OneLine := by
  rw [ofLine] at mem
  split at mem
  next =>
    obtain rfl := List.mem_singleton.mp mem
    exact List.not_mem_nil
  next =>
    obtain ⟨piece, cut, rfl⟩ := List.mem_map.mp mem
    have code : (Wrapper.blank t).OneLine := line.of_mem (Wrapper.mem_blankFrom false 0 t)
    have own : piece.2.OneLine := code.of_subset (subset_of_mem_pieces 0 _ piece cut)
    exact (own.of_mem (mem_withoutClosing _)).of_subset (trim_subset _)

/-- No statement goes over a line feed. -/
theorem oneLine_of_mem_ofText {t : Text} (mem : s ∈ ofText t) : s.text.OneLine := by
  obtain ⟨i, line, at_, mem⟩ := mem_ofText_iff.mp mem
  obtain ⟨raw, listed, rfl⟩ := getElem?_sourceLines_iff.mp at_
  have oneLine := oneLine_of_mem_physicalLines t raw (List.mem_of_getElem? listed)
  have clean := oneLine.of_subset (withoutMarkers_subset raw)
  exact oneLine_of_mem_ofLine (clean.of_mem (Comment.mem_strip _ _)) mem

end Statement

/-- A token of a text on one line; a word is an identifier. -/
structure Token.Spelled (t : Token) : Prop where
  oneLine : t.lexeme.text.OneLine
  word : ∀ name, t.lexeme = .word name → name.isIdentifier = true

private theorem isIdentifier_of_first? {t rest name : Text}
    (first : Piece.first? t = some (.lexeme (.word name), rest)) : name.isIdentifier = true := by
  cases t with
  | nil => cases first
  | cons c others =>
    rw [Piece.first?] at first
    split at first
    next letter =>
      cases first
      rw [isIdentifier, letter, List.all_takeWhile, Bool.true_and]
    all_goals grind

/-- The tokens of a text on one line are spelled as they should be. -/
theorem Token.spelled_of_read {column : Nat} {t : Text} {tokens : List Token} (line : t.OneLine)
    (ok : Token.read column t = .ok tokens) : ∀ token ∈ tokens, token.Spelled := by
  fun_induction Token.read column t generalizing tokens with
  | case1 =>
    cases ok
    exact List.forall_mem_nil _
  | case2 => cases ok
  | case3 column t p rest first ih =>
    obtain ⟨others, below, result⟩ := bind_eq_ok_iff.mp ok
    cases result
    have whole := Piece.first?_append first
    have later : rest.OneLine := line.of_subset (whole ▸ List.subset_append_right ..)
    have here : p.text.OneLine := line.of_subset (whole ▸ List.subset_append_left ..)
    refine List.forall_mem_append.mpr ⟨?_, ih later below⟩
    cases p with
    | gap => exact List.forall_mem_nil _
    | lexeme l =>
      refine List.forall_mem_singleton.mpr ⟨here, ?_⟩
      rintro name rfl
      exact isIdentifier_of_first? first

/-- The tokens of a statement on one line are spelled as they should be. -/
theorem Statement.spelled_of_tokens {s : Statement} {tokens : List Token} (line : s.text.OneLine)
    (ok : s.tokens = .ok tokens) : ∀ token ∈ tokens, token.Spelled := by
  rw [Statement.tokens] at ok
  split at ok
  next read =>
    cases ok
    exact Token.spelled_of_read line read
  next => cases ok

namespace Declaration

variable {v : Vocabulary} {d read : Declaration}

/-- What is read of a declaration is spelled like a type, names and a length. -/
structure Spelled (d : Declaration) : Prop where
  parts : ∀ part ∈ d.parts, part.OneLine
  names : ∀ name ∈ d.names, name.1.isIdentifier = true
  length : ∀ length ∈ d.length, length.OneLine

private theorem Spelled.addPart (spelled : d.Spelled) {part : Text} (line : part.OneLine) :
    (d.addPart part).Spelled :=
  ⟨List.forall_mem_append.mpr ⟨spelled.parts, List.forall_mem_singleton.mpr line⟩, spelled.names,
    spelled.length⟩

private theorem Spelled.addStructure (spelled : d.Spelled) {tag : Text} (line : tag.OneLine) :
    (d.addStructure tag).Spelled := by
  have keyword : structKeyword.OneLine := by decide
  exact ⟨List.forall_mem_append.mpr ⟨spelled.parts, List.forall_mem_cons.mpr
    ⟨keyword, List.forall_mem_singleton.mpr line⟩⟩, spelled.names, spelled.length⟩

/-- Reading keeps the spelling. -/
theorem spelled_of_read {tokens : List Token} (spelled : d.Spelled)
    (tokensSpelled : ∀ token ∈ tokens, token.Spelled)
    (ok : Declaration.read v d tokens = .ok read) : read.Spelled := by
  fun_induction Declaration.read v d tokens with
  | case1 =>
    cases ok
    exact spelled
  | case3 d t _ _ tag column others ih =>
    rw [List.forall_mem_cons, List.forall_mem_cons] at tokensSpelled
    obtain ⟨-, second, later⟩ := tokensSpelled
    exact ih (spelled.addStructure second.oneLine) later ok
  | case5 d t rest _ _ _ ih =>
    obtain ⟨here, later⟩ := List.forall_mem_cons.mp tokensSpelled
    exact ih (spelled.addStructure here.oneLine) later ok
  | case6 d t rest _ _ _ _ ih =>
    obtain ⟨here, later⟩ := List.forall_mem_cons.mp tokensSpelled
    exact ih (spelled.addPart here.oneLine) later ok
  | case7 d t rest _ _ _ _ name word ih =>
    obtain ⟨here, later⟩ := List.forall_mem_cons.mp tokensSpelled
    have named : ∀ n ∈ d.names ++ [(name, t.column)], n.1.isIdentifier = true :=
      List.forall_mem_append.mpr ⟨spelled.names, by simpa using here.word name word⟩
    exact ih ⟨spelled.parts, named, spelled.length⟩ later ok
  | case8 d t rest _ _ _ _ _ ih =>
    have star : OneLine ['*'] := by decide
    obtain ⟨parts, names, length⟩ := spelled.addPart star
    exact ih ⟨parts, names, length⟩ (List.forall_mem_cons.mp tokensSpelled).2 ok
  | case11 d t rest _ _ _ _ inside group _ _ ih =>
    obtain ⟨here, later⟩ := List.forall_mem_cons.mp tokensSpelled
    have line : inside.OneLine := here.oneLine.of_subset (by simp [group, Lexeme.text])
    refine ih ⟨spelled.parts, spelled.names, ?_⟩ later ok
    intro length mem
    cases mem
    exact line.of_subset (trim_subset _)
  | _ => cases ok

/-- The words of a type are written on one line. -/
theorem oneLine_typeText {parts : List Text} (lines : ∀ part ∈ parts, part.OneLine) :
    (typeText parts).OneLine := by
  rw [typeText]
  refine List.foldlRecOn parts _ List.not_mem_nil fun written line part mem => ?_
  have own := lines part mem
  unfold OneLine at line own ⊢
  split
  · simp [line, own]
  · simp [line, own]

end Declaration

/-- A field is named and reached by identifiers, and its type and length are written on one line. -/
structure Field.Spelled (f : Field) : Prop where
  name : f.name.isIdentifier = true
  members : ∀ member ∈ f.path, member.isIdentifier = true
  reached : f.path ≠ []
  type : f.type.OneLine
  length : ∀ length ∈ f.length, length.OneLine

/-- A field that is seen through another one is spelled like both. -/
theorem Field.Spelled.through {f g : Field} (outer : f.Spelled) (leaf : g.Spelled) :
    (f.through g).Spelled where
  name := isIdentifier_append outer.name
    (List.forall_mem_cons.mpr ⟨by decide, isName_of_isIdentifier leaf.name⟩)
  members := List.forall_mem_cons.mpr ⟨outer.name, leaf.members⟩
  reached := List.cons_ne_nil _ _
  type := leaf.type
  length := leaf.length

/-- The size of a field is taken from a type written on one line. -/
theorem Field.Spelled.sizedType {f : Field} (spelled : f.Spelled) : f.sizedType.OneLine := by
  rw [Field.sizedType]
  split
  next length same =>
    have opened := OneLine.append (s := ['[']) (by decide) (spelled.length length same)
    exact (spelled.type.append opened).append (by decide)
  next => exact spelled.type

/-- The field of a statement on one line is spelled as it should be. -/
theorem Statement.spelled_of_field {v : Vocabulary} {s : Statement} {f : Field}
    (line : s.text.OneLine) (ok : s.field v = .ok f) : f.Spelled := by
  have path := s.path_of_field ok
  obtain ⟨tokens, d, cut, read, field⟩ := exists_declaration_of_field ok
  have start : ({} : Declaration).Spelled := ⟨List.forall_mem_nil _, List.forall_mem_nil _, nofun⟩
  obtain ⟨parts, names, length⟩ :=
    Declaration.spelled_of_read start (spelled_of_tokens line cut) read
  obtain ⟨name, place, listed, rfl⟩ := d.eq_of_field field
  have named : name.isIdentifier = true := names (name, place) (listed ▸ List.mem_cons_self)
  refine ⟨named, ?_, ?_, Declaration.oneLine_typeText parts, length⟩
  · rw [path]
    exact List.forall_mem_singleton.mpr named
  · rw [path]
    exact List.cons_ne_nil _ _

/-- The tag of a structure that is opened is an identifier. -/
theorem Statement.isIdentifier_of_openedTag {s : Statement} {tag : Text} (line : s.text.OneLine)
    (ok : s.openedTag = .ok tag) : tag.isIdentifier = true := by
  obtain ⟨tokens, cut, rest⟩ := bind_eq_ok_iff.mp ok
  have spelled := spelled_of_tokens line cut
  split at rest
  next lexemes =>
    split at rest
    next =>
      cases rest
      have mem : Lexeme.word tag ∈ tokens.map Token.lexeme := by simp [lexemes]
      obtain ⟨token, mem, same⟩ := List.mem_map.mp mem
      exact (spelled token mem).word tag same
    next => cases rest
  next => cases rest

/-- The tag of a block is the one that one of its statements opens. -/
theorem Block.exists_opener_of_ofNonempty {statements : List Statement} {blocks : List Block}
    (ok : ofNonempty statements = .ok blocks) :
    ∀ b ∈ blocks, ∃ s ∈ statements, s.openedTag = .ok b.name := by
  induction statements using ofNonempty.induct generalizing blocks with
  | case1 =>
    rw [ofNonempty] at ok
    cases ok
    exact List.forall_mem_nil _
  | case2 s rest opening ih =>
    rw [ofNonempty, if_pos opening] at ok
    obtain ⟨tag, opened, ok⟩ := bind_eq_ok_iff.mp ok
    obtain ⟨others, below, result⟩ := bind_eq_ok_iff.mp ok
    cases result
    refine List.forall_mem_cons.mpr ⟨⟨s, List.mem_cons_self, opened⟩, fun b mem => ?_⟩
    obtain ⟨opener, within, opens⟩ := ih below b mem
    exact ⟨opener, List.mem_cons_of_mem s (List.dropWhile_subset _ within), opens⟩
  | case3 s rest other =>
    rw [ofNonempty, if_neg other] at ok
    cases ok

/-- A structure is named by an identifier, and its fields are spelled as they should be. -/
structure Structure.Spelled (s : Structure) : Prop where
  tag : s.name.isIdentifier = true
  fields : ∀ f ∈ s.fields.entries, f.Spelled

namespace Header

variable {h flat : Header} {settings : Settings} {text : Text}

/-- A header whose structures are spelled as they should be. -/
def Spelled (h : Header) : Prop := ∀ s ∈ h.entries, s.Spelled

/-- A header that is read from a text is spelled as it should be. -/
theorem spelled_of_ofStatements {extraTypes : List Text}
    (ok : ofStatements extraTypes (Statement.ofText text) = .ok h) : h.Spelled := by
  obtain ⟨structures, each⟩ := exists_statement_of_ofStatements ok
  obtain ⟨blocks, cut, reads⟩ := ofStatements_eq_ok_iff.mp ok
  refine fun s hs => ⟨?_, fun f hf => ?_⟩
  · obtain ⟨i, bound, rfl⟩ := List.getElem_of_mem hs
    have own := reads.get (reads.length_eq ▸ bound) bound
    obtain ⟨opener, mem, opens⟩ :=
      Block.exists_opener_of_ofNonempty cut _ (List.get_mem blocks ⟨i, reads.length_eq ▸ bound⟩)
    -- The tag is not one of the fields, it is read from the statement that opens the block.
    have line := Statement.oneLine_of_mem_ofText (List.mem_of_mem_filter mem)
    have named := Statement.isIdentifier_of_openedTag line opens
    rw [← own.name] at named
    exact named
  · obtain ⟨statement, mem, field⟩ := each s hs f hf
    exact Statement.spelled_of_field (Statement.oneLine_of_mem_ofText mem) field

/-- What a way leads to is spelled like the fields on it. -/
theorem Unfolds.spelled {fields : List Field} {ways : List Way} (unfolds : h.Unfolds fields ways)
    (spelled : h.Spelled) (own : ∀ f ∈ fields, f.Spelled) : ∀ w ∈ ways, w.seen.Spelled := by
  induction unfolds with
  | nil => exact List.forall_mem_nil _
  | leaf _ _ ih =>
    obtain ⟨here, below⟩ := List.forall_mem_cons.mp own
    exact List.forall_mem_cons.mpr ⟨here, ih below⟩
  | nested _ found _ _ ihBelow ihRest =>
    obtain ⟨here, below⟩ := List.forall_mem_cons.mp own
    have deeper := ihBelow (spelled _ (List.mem_of_find?_eq_some found)).fields
    refine List.forall_mem_append.mpr ⟨fun w mem => ?_, ihRest below⟩
    obtain ⟨v, inside, rfl⟩ := List.mem_map.mp mem
    exact here.through (deeper v inside)

/-- Flattening keeps the spelling. -/
theorem Spelled.flatten (spelled : h.Spelled) (ok : h.flatten = .ok flat) : flat.Spelled := by
  intro t ht
  obtain ⟨s, hs, name, -, ways, unfolds, entries⟩ := exists_unfolds_of_flatten ok ht
  refine ⟨name ▸ (spelled _ hs).tag, ?_⟩
  rw [entries, List.forall_mem_map]
  exact unfolds.spelled spelled (spelled _ hs).fields

end Header

end FieldTables
