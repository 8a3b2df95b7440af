import FieldTables.Proofs.Source.Printing

/-!
# The grammar of declarations

A declaration is a name with items of a type in any order around it, and at most one array length at
the end. Items are structure types, type words and stars. What a word is depends on whether a
structure type or the name stands in front of it, and on nothing else that was read, so the items in
front of the name and those behind it can be told apart without following the declaration as it
grows. A statement declares a field exactly when its lexemes are spelled in this way, and the field
is made of the items, the name and the length.
-/

namespace FieldTables

open Outcome

/-- The words that are types and the tags of structures are all identifiers. -/
structure Vocabulary.Worded (v : Vocabulary) : Prop where
  types : ∀ word ∈ v.types, word.isIdentifier = true
  structures : ∀ tag ∈ v.structures, tag.isIdentifier = true

namespace Declaration

/-- An item of a type. -/
inductive Item where
  /-- A structure type, by its tag. -/
  | tag (tag : Text)
  /-- A word that is a type by itself. -/
  | word (word : Text)
  /-- A star. -/
  | star
  deriving DecidableEq

namespace Item

/-- The words of an item in a type; a tag stands behind its keyword. -/
def parts : Item → List Text
  | tag t => [structKeyword, t]
  | word w => [w]
  | star => [['*']]

/-- The tag of a structure type. -/
def tag? : Item → Option Text
  | tag t => some t
  | word _ | star => none

/-- Whether an item is a structure type. -/
def isTag (i : Item) : Bool := i.tag?.isSome

end Item

/-- How an item is written when a structure type or the name stands in front of it, or neither
does. -/
inductive IsItem (v : Vocabulary) (seen : Bool) : List Lexeme → Item → Prop
  /-- The keyword makes any word behind it a tag. -/
  | keyword (tag : Text) : IsItem v seen [.word structKeyword, .word tag] (.tag tag)
  /-- The tag of a declared structure is enough when neither stands in front. -/
  | declared {tag : Text} (other : tag ≠ structKeyword) (first : seen = false)
      (declared : tag ∈ v.structures) : IsItem v seen [.word tag] (.tag tag)
  /-- Any other known word is a type word. -/
  | word {word : Text} (other : word ≠ structKeyword)
      (plain : word ∈ v.structures → seen = true) (known : word ∈ v.types) :
      IsItem v seen [.word word] (.word word)
  /-- A star is one everywhere. -/
  | star : IsItem v seen [.star] .star

/-- A word that is no item is the name. -/
structure IsName (v : Vocabulary) (seen : Bool) (name : Text) : Prop where
  other : name ≠ structKeyword
  plain : name ∈ v.structures → seen = true
  unknown : name ∉ v.types

/-- How items are written one after the other. -/
inductive AreItems (v : Vocabulary) : Bool → List Lexeme → List Item → Prop
  | nil (seen : Bool) : AreItems v seen [] []
  | cons {seen : Bool} {ls more : List Lexeme} {item : Item} {items : List Item}
      (first : IsItem v seen ls item) (rest : AreItems v (seen || item.isTag) more items) :
      AreItems v seen (ls ++ more) (item :: items)

/-- How an array length is written: not at all, or as a group that is not blank. -/
inductive IsLength : List Lexeme → Option Text → Prop
  | absent : IsLength [] none
  | given {inside : Text} (full : inside.trim ≠ []) : IsLength [.group inside] (some inside.trim)

/-- The words of a type with a space between each two, except between two stars. -/
def spaced : List Text → Text
  | [] => []
  | [part] => part
  | part :: next :: rest =>
    if part = ['*'] ∧ next = ['*'] then part ++ spaced (next :: rest)
    else part ++ ' ' :: spaced (next :: rest)

/-- What a declaration consists of. -/
structure Form where
  /-- The items in front of the name. -/
  front : List Item
  /-- The name. -/
  name : Text
  /-- The items behind the name. -/
  back : List Item
  /-- The array length. -/
  length : Option Text

namespace Form

/-- All items in order. -/
def items (p : Form) : List Item := p.front ++ p.back

/-- How a declaration is written. -/
inductive Spelled (v : Vocabulary) (p : Form) : List Lexeme → Prop
  | intro {front back ending : List Lexeme} (before : AreItems v false front p.front)
      (name : IsName v (p.front.any Item.isTag) p.name) (behind : AreItems v true back p.back)
      (length : IsLength ending p.length) : Spelled v p (front ++ .word p.name :: (back ++ ending))

/-- What a declaration must have to give a field. -/
structure Allowed (p : Form) : Prop where
  /-- Some item is not the qualifier. -/
  typed : ∃ item ∈ p.items, item ≠ .word constKeyword
  /-- Structures come in arrays only behind a pointer. -/
  single : p.length ≠ none → (∃ item ∈ p.items, item.isTag = true) → .star ∈ p.items

/-- The field that a declaration gives on some line. The last structure type counts, unless there is
a star. -/
def field (line : Nat) (p : Form) : Field where
  name := p.name
  line := line
  type := spaced (p.items.flatMap Item.parts)
  inner := if .star ∈ p.items then none else (p.items.filterMap Item.tag?).getLast?
  length := p.length
  path := [p.name]

end Form

variable {v : Vocabulary} {d next r : Declaration} {ls more : List Lexeme} {item : Item}
  {items : List Item} {name : Text}

/-- A declaration with more items in its type. -/
def withItems (d : Declaration) (items : List Item) : Declaration :=
  { d with
    parts := d.parts ++ items.flatMap Item.parts
    inner := (items.filterMap Item.tag?).getLast?.or d.inner
    pointer := d.pointer || items.contains .star }

theorem withItems_nil (d : Declaration) : d.withItems [] = d := by simp [withItems]

theorem withItems_append (d : Declaration) (first second : List Item) :
    d.withItems (first ++ second) = (d.withItems first).withItems second := by
  simp [withItems, List.getLast?_append, Option.or_assoc, Bool.or_assoc]

theorem withItems_tag (d : Declaration) (tag : Text) :
    d.withItems [.tag tag] = d.addStructure tag := by
  simp [withItems, addStructure, Item.parts, Item.tag?]

theorem withItems_word (d : Declaration) (word : Text) :
    d.withItems [.word word] = d.addPart word := by
  simp [withItems, addPart, Item.parts, Item.tag?]

theorem withItems_star (d : Declaration) : d.withItems [.star] = d.addStar := by
  simp [withItems, addStar, addPart, Item.parts, Item.tag?]

/-- Whether a structure type or the name was read. -/
def seen (d : Declaration) : Bool := d.inner.isSome || !d.names.isEmpty

theorem seen_of_names (named : d.names ≠ []) : d.seen = true := by simp [seen, named]

theorem refers_word_iff {word : Text} :
    Refers v d (.word word) ↔ word ∈ v.structures ∧ d.seen = false := by
  simp [Refers, seen, Lexeme.text]

private theorem seen_withItems_singleton (d : Declaration) (item : Item) :
    (d.withItems [item]).seen = (d.seen || item.isTag) := by
  cases item <;> simp [withItems, seen, Item.isTag, Item.tag?]

/-- A structure type among more items is seen. -/
theorem seen_withItems (d : Declaration) (items : List Item) :
    (d.withItems items).seen = (d.seen || items.any Item.isTag) := by
  induction items generalizing d with
  | nil => simp [withItems_nil]
  | cons item rest ih =>
    rw [← List.singleton_append, withItems_append, ih, seen_withItems_singleton,
      List.singleton_append, List.any_cons, Bool.or_assoc]

/-- What is taken at once is an item, the name or the array length. -/
theorem Takes.item_or_name_or_length (worded : v.Worded) (takes : Takes v d ls next) :
    (∃ item, IsItem v d.seen ls item ∧ next = d.withItems [item]) ∨
      (∃ name, ls = [.word name] ∧ IsName v d.seen name ∧ next = d.addName name) ∨
      ∃ inside, ls = [.group inside] ∧ d.names ≠ [] ∧ inside.trim ≠ [] ∧
        next = { d with length := some inside.trim } := by
  have plain : ∀ {word}, ¬Refers v d (.word word) → word ∈ v.structures → d.seen = true := by
    intro word apart declared
    rw [refers_word_iff] at apart
    simpa using fun first => apart ⟨declared, first⟩
  cases takes with
  | tagged tag => exact .inl ⟨.tag tag, .keyword tag, (withItems_tag d tag).symm⟩
  | @declared l other refers =>
    obtain ⟨tag, rfl⟩ : ∃ tag, l = .word tag :=
      ⟨_, Lexeme.eq_word_of_isIdentifier (worded.structures _ refers.1)⟩
    obtain ⟨declared, first⟩ := refers_word_iff.mp refers
    have other : tag ≠ structKeyword := fun same => other (same ▸ rfl)
    exact .inl ⟨.tag tag, .declared other first declared, (withItems_tag d tag).symm⟩
  | @type l other apart known =>
    obtain ⟨word, rfl⟩ : ∃ word, l = .word word :=
      ⟨_, Lexeme.eq_word_of_isIdentifier (worded.types _ known)⟩
    have other : word ≠ structKeyword := fun same => other (same ▸ rfl)
    exact .inl ⟨.word word, .word other (plain apart) known, (withItems_word d word).symm⟩
  | name other apart unknown => exact .inr (.inl ⟨_, rfl, ⟨other, plain apart, unknown⟩, rfl⟩)
  | star => exact .inl ⟨.star, .star, (withItems_star d).symm⟩
  | array _ _ named full => exact .inr (.inr ⟨_, rfl, named, full, rfl⟩)

/-- An item is taken at once. -/
theorem IsItem.takes (worded : v.Worded) (is : IsItem v d.seen ls item) :
    Takes v d ls (d.withItems [item]) := by
  cases is with
  | keyword tag => exact withItems_tag d tag ▸ .tagged tag
  | @declared tag other first declared =>
    rw [withItems_tag]
    have other : Lexeme.word tag ≠ .word structKeyword := fun same => other (Lexeme.word.inj same)
    exact .declared other (refers_word_iff.mpr ⟨declared, first⟩)
  | @word word other plain known =>
    rw [withItems_word]
    have other : Lexeme.word word ≠ .word structKeyword := fun same => other (Lexeme.word.inj same)
    refine .type (l := .word word) other (fun refers => ?_) known
    obtain ⟨declared, first⟩ := refers_word_iff.mp refers
    cases first.symm.trans (plain declared)
  | star =>
    rw [withItems_star]
    have symbol : ¬Text.isIdentifier ['*'] = true := by decide
    exact .star (fun refers => symbol (worded.structures _ refers.1))
      fun known => symbol (worded.types _ known)

/-- The name is taken at once. -/
theorem IsName.takes (is : IsName v d.seen name) : Takes v d [.word name] (d.addName name) := by
  refine .name is.other (fun refers => ?_) is.unknown
  obtain ⟨declared, first⟩ := refers_word_iff.mp refers
  cases first.symm.trans (is.plain declared)

/-- Items are read one after the other. -/
theorem AreItems.reads {seen : Bool} (worded : v.Worded) (are : AreItems v seen ls items)
    (same : d.seen = seen) (goes : d.length = none) : Reads v d ls (d.withItems items) := by
  induction are generalizing d with
  | nil =>
    rw [withItems_nil]
    exact .nil d
  | @cons seen ls more item items first rest ih =>
    subst same
    have next := ih (d := d.withItems [item]) (seen_withItems_singleton d item) goes
    rw [← withItems_append] at next
    exact .cons goes (first.takes worded) next

/-- An array length is read behind the name. -/
theorem IsLength.reads {length : Option Text} (worded : v.Worded) (is : IsLength ls length)
    (goes : d.length = none) (named : d.names ≠ []) : Reads v d ls { d with length := length } := by
  cases is with
  | absent =>
    rw [← goes]
    exact .nil d
  | @given inside full =>
    have unknown : (Lexeme.group inside).text ∉ v.types := fun known => by
      cases worded.types _ known
    have plain : ¬Refers v d (.group inside) := fun refers => by
      cases worded.structures _ refers.1
    exact (Takes.array plain unknown named full).reads goes

/-- Behind an array length nothing is read. -/
theorem Reads.eq_of_length (reads : Reads v d ls r) (ended : d.length ≠ none) :
    ls = [] ∧ r = d := by
  cases reads with
  | nil => exact ⟨rfl, rfl⟩
  | cons goes => exact absurd goes ended

/-- No name that was read is lost. -/
theorem Reads.names_prefix (reads : Reads v d ls r) : d.names <+: r.names := by
  induction reads with
  | nil => exact List.prefix_refl _
  | cons _ takes _ ih =>
    refine List.IsPrefix.trans ?_ ih
    cases takes with
    | name => exact List.prefix_append ..
    | _ => exact List.prefix_refl _

/-- What is read behind the name, when no other name is, are items and then the array length. -/
theorem Reads.exists_back (worded : v.Worded) (reads : Reads v d ls r) (goes : d.length = none)
    (named : d.names ≠ []) (same : r.names = d.names) :
    ∃ back ending items, ls = back ++ ending ∧ AreItems v true back items ∧
      IsLength ending r.length ∧ r = { d.withItems items with length := r.length } := by
  induction reads with
  | nil d =>
    refine ⟨[], [], [], rfl, .nil true, goes ▸ .absent, ?_⟩
    rw [withItems_nil]
  | @cons d next r ls more _ takes below ih =>
    rcases takes.item_or_name_or_length worded with ⟨item, is, rfl⟩ | ⟨name, rfl, -, rfl⟩ |
      ⟨inside, rfl, -, full, rfl⟩
    · obtain ⟨back, ending, items, rfl, behind, length, result⟩ := ih goes named same
      rw [seen_of_names named] at is
      refine ⟨ls ++ back, ending, item :: items, (List.append_assoc ..).symm, .cons is behind,
        length, ?_⟩
      rw [result, ← withItems_append]
      rfl
    · -- Another name would stay to the end.
      have more := below.names_prefix.length_le
      simp only [same, addName, List.length_append, List.length_singleton] at more
      omega
    · obtain ⟨rfl, rfl⟩ := below.eq_of_length (Option.some_ne_none _)
      refine ⟨[], [.group inside], [], rfl, .nil true, .given full, ?_⟩
      rw [withItems_nil]

/-- What is read with one name in the end are items, the name, and what can stand behind it. -/
theorem Reads.exists_front (worded : v.Worded) (reads : Reads v d ls r) (goes : d.length = none)
    (unnamed : d.names = []) {place : Nat} (named : r.names = [(name, place)]) :
    ∃ front back ending before behind, ls = front ++ .word name :: (back ++ ending) ∧
      AreItems v d.seen front before ∧ IsName v (d.seen || before.any Item.isTag) name ∧
      AreItems v true back behind ∧ IsLength ending r.length ∧
      r = { d.withItems (before ++ behind) with names := [(name, 0)], length := r.length } := by
  induction reads with
  | nil d => cases unnamed.symm.trans named
  | @cons d next r ls more _ takes below ih =>
    rcases takes.item_or_name_or_length worded with ⟨item, is, rfl⟩ | ⟨first, rfl, is, rfl⟩ |
      ⟨inside, rfl, listed, -, -⟩
    · obtain ⟨front, back, ending, before, behind, rfl, here, isName, there, length, result⟩ :=
        ih goes unnamed named
      rw [seen_withItems_singleton] at here isName
      refine ⟨ls ++ front, back, ending, item :: before, behind, (List.append_assoc ..).symm,
        .cons is here, ?_, there, length, ?_⟩
      · rwa [List.any_cons, ← Bool.or_assoc]
      · rw [result, ← withItems_append]
        rfl
    · have only := below.names_prefix
      rw [named] at only
      simp only [addName, unnamed, List.nil_append] at only
      cases List.singleton_inj.mp (only.eq_of_length rfl)
      have named' : (d.addName name).names = [(name, 0)] := by simp [addName, unnamed]
      obtain ⟨back, ending, behind, rfl, there, length, result⟩ := below.exists_back worded goes
        (by simp [named']) (named.trans named'.symm)
      refine ⟨[], back, ending, [], behind, rfl, .nil _, ?_, there, length, ?_⟩
      · rwa [List.any_nil, Bool.or_false]
      · rw [result]
        simp [withItems, addName, unnamed]
    · exact absurd unnamed listed

/-- A part of a type ends with a star only when it is one. -/
theorem getLast?_eq_star_iff {part : Text} (is : Lexeme.IsPart part) :
    part.getLast? = some '*' ↔ part = ['*'] := by
  constructor
  · intro last
    refine is.resolve_right fun identifier => ?_
    have name := Text.isName_of_isIdentifier identifier '*' (List.mem_of_getLast? last)
    cases name
  · rintro rfl
    rfl

/-- What is written of a type ends with its last part, so the next part sees whether that is a
star. -/
private theorem foldl_eq_spaced {written part : Text} {parts : List Text}
    (each : ∀ p ∈ part :: parts, Lexeme.IsPart p) :
    parts.foldl (fun written part =>
        if written.isEmpty || (part == ['*'] && written.getLast? == some '*') then written ++ part
        else written ++ ' ' :: part) (written ++ part) =
      written ++ spaced (part :: parts) := by
  induction parts generalizing written part with
  | nil => rfl
  | cons next rest ih =>
    obtain ⟨here, later⟩ := List.forall_mem_cons.mp each
    have full : part ≠ [] := by
      rintro rfl
      rcases here with star | identifier
      · cases star
      · cases identifier
    have star : (written ++ part).getLast? = some '*' ↔ part = ['*'] := by
      rw [List.getLast?_append_of_ne_nil _ full, getLast?_eq_star_iff here]
    have glued : ((written ++ part).isEmpty || (next == ['*'] &&
        (written ++ part).getLast? == some '*')) = true ↔ part = ['*'] ∧ next = ['*'] := by
      rw [Bool.or_eq_true, Bool.and_eq_true, beq_iff_eq, beq_iff_eq, star, List.isEmpty_iff]
      simp [full, and_comm]
    rw [List.foldl_cons, spaced]
    simp only [glued]
    split
    · rw [ih later, List.append_assoc]
    · have apart : written ++ part ++ ' ' :: next = written ++ part ++ [' '] ++ next := by simp
      rw [apart, ih later]
      simp

/-- The type of a field is written with a space between each two of its words, except between two
stars. -/
theorem typeText_eq_spaced {parts : List Text} (each : ∀ part ∈ parts, Lexeme.IsPart part) :
    typeText parts = spaced parts := by
  cases parts with
  | nil => rfl
  | cons part rest =>
    have start : typeText (part :: rest) = rest.foldl _ ([] ++ part) := rfl
    rw [start, foldl_eq_spaced each, List.nil_append]

/-- The words of an item are parts of a type when its lexemes can stand alone. -/
theorem IsItem.isPart {seen : Bool} (is : IsItem v seen ls item) (alone : ∀ l ∈ ls, l.Ends []) :
    ∀ part ∈ item.parts, Lexeme.IsPart part := by
  have keyword : Text.isIdentifier structKeyword = true := by decide
  cases is with
  | keyword tag =>
    have ends : (Lexeme.word tag).Ends [] := alone _ (by simp)
    simpa [Item.parts] using ⟨.inr keyword, .inr ends.1⟩
  | @declared tag =>
    have ends : (Lexeme.word tag).Ends [] := alone _ (by simp)
    simpa [Item.parts] using ⟨.inr keyword, .inr ends.1⟩
  | @word word =>
    have ends : (Lexeme.word word).Ends [] := alone _ (by simp)
    simpa [Item.parts] using .inr ends.1
  | star => simpa [Item.parts] using .inl rfl

theorem AreItems.isPart {seen : Bool} (are : AreItems v seen ls items)
    (alone : ∀ l ∈ ls, l.Ends []) : ∀ item ∈ items, ∀ part ∈ item.parts, Lexeme.IsPart part := by
  induction are with
  | nil => exact List.forall_mem_nil _
  | cons first _ ih =>
    obtain ⟨here, later⟩ := List.forall_mem_append.mp alone
    exact List.forall_mem_cons.mpr ⟨first.isPart here, ih later⟩

namespace Form

variable {p : Form}

theorem Spelled.isPart (spelled : p.Spelled v ls) (alone : ∀ l ∈ ls, l.Ends []) :
    ∀ item ∈ p.items, ∀ part ∈ item.parts, Lexeme.IsPart part := by
  obtain ⟨before, -, behind, -⟩ := spelled
  obtain ⟨here, later⟩ := List.forall_mem_append.mp alone
  obtain ⟨there, -⟩ := List.forall_mem_append.mp (List.forall_mem_cons.mp later).2
  exact List.forall_mem_append.mpr ⟨before.isPart here, behind.isPart there⟩

/-- What is read of a form. -/
def declaration (p : Form) : Declaration :=
  { ({} : Declaration).withItems p.items with names := [(p.name, 0)], length := p.length }

/-- A form is read as it is written. -/
theorem Spelled.reads (worded : v.Worded) (spelled : p.Spelled v ls) :
    Reads v {} ls p.declaration := by
  obtain ⟨before, name, behind, length⟩ := spelled
  have front := before.reads (d := {}) worded rfl rfl
  have seen : (({} : Declaration).withItems p.front).seen = p.front.any Item.isTag :=
    seen_withItems {} p.front
  rw [← seen] at name
  have back := behind.reads (d := (({} : Declaration).withItems p.front).addName p.name) worded
    (seen_of_names (List.cons_ne_nil _ _)) rfl
  have whole : ((({} : Declaration).withItems p.front).addName p.name).withItems p.back =
      { p.declaration with length := none } := by
    rw [declaration, items, withItems_append]
    rfl
  rw [whole] at back
  exact front.append (.cons rfl name.takes
    (back.append (length.reads worded rfl (List.cons_ne_nil _ _))))

/-- What is read with one name is read of a form. -/
theorem exists_of_reads (worded : v.Worded) (reads : Reads v {} ls r)
    (named : r.names.map Prod.fst = [name]) : ∃ p : Form, p.Spelled v ls ∧ p.declaration = r := by
  obtain ⟨⟨_, place⟩, single, rfl⟩ := List.map_eq_singleton_iff.mp named
  obtain ⟨front, back, ending, before, behind, rfl, here, isName, there, length, result⟩ :=
    reads.exists_front worded rfl rfl single
  exact ⟨⟨before, _, behind, r.length⟩, .intro here isName there length, result.symm⟩

theorem parts_declaration (p : Form) : p.declaration.parts = p.items.flatMap Item.parts := rfl

theorem pointer_declaration_iff : p.declaration.pointer = true ↔ .star ∈ p.items := by
  simp [declaration, withItems]

theorem inner_declaration (p : Form) :
    p.declaration.inner = (p.items.filterMap Item.tag?).getLast? := by
  simp [declaration, withItems]

/-- The qualifier is all of a type when every item is the qualifier. -/
theorem typed_declaration_iff : p.declaration.parts.all (· == constKeyword) = false ↔
    ∃ item ∈ p.items, item ≠ .word constKeyword := by
  have apart : structKeyword ≠ constKeyword ∧ ['*'] ≠ constKeyword := by decide
  have each : ∀ item : Item,
      item.parts.all (· == constKeyword) = true ↔ item = .word constKeyword := by
    intro item
    cases item <;> simp [Item.parts, apart]
  rw [← Bool.not_eq_true, parts_declaration, List.all_flatMap, List.all_eq_true]
  simp [each]

/-- An array of structures has a length and a structure type, and no star. -/
theorem single_declaration_iff : (!p.declaration.pointer && p.declaration.inner.isSome &&
      p.declaration.length.isSome) = false ↔
    (p.length ≠ none → (∃ item ∈ p.items, item.isTag = true) → .star ∈ p.items) := by
  have inner : p.declaration.inner.isSome = true ↔ ∃ item ∈ p.items, item.isTag = true := by
    simp [inner_declaration, Item.isTag]
  have length : p.declaration.length.isSome = true ↔ p.length ≠ none :=
    Option.isSome_iff_ne_none
  rw [← pointer_declaration_iff, ← inner, ← length]
  cases p.declaration.pointer <;> cases p.declaration.inner.isSome <;>
    cases p.declaration.length.isSome <;> decide

/-- What is read of a form gives its field exactly when the form is allowed. -/
theorem gives_declaration_iff {line : Nat} {f : Field}
    (parts : ∀ item ∈ p.items, ∀ part ∈ item.parts, Lexeme.IsPart part) :
    p.declaration.Gives line f ↔ p.Allowed ∧ f = p.field line := by
  have text : typeText p.declaration.parts = spaced (p.items.flatMap Item.parts) := by
    refine typeText_eq_spaced fun part mem => ?_
    obtain ⟨item, listed, own⟩ := List.mem_flatMap.mp mem
    exact parts item listed part own
  have field : p.field line = { Field.declared p.name (typeText p.declaration.parts) line with
      inner := if p.declaration.pointer then none else p.declaration.inner
      length := p.declaration.length } := by
    rw [text, inner_declaration]
    simp only [pointer_declaration_iff]
    rfl
  rw [field]
  constructor
  · rintro ⟨name, typed, single, whole⟩
    have same : p.name = f.name := (List.cons.inj name).1
    exact ⟨⟨typed_declaration_iff.mp typed, single_declaration_iff.mp single⟩, same ▸ whole⟩
  · rintro ⟨⟨typed, single⟩, rfl⟩
    exact ⟨rfl, typed_declaration_iff.mpr typed, single_declaration_iff.mpr single, rfl⟩

end Form

end Declaration

namespace Statement

open Declaration

variable {v : Vocabulary} {s : Statement} {tokens : List Token}

/-- A statement that cannot be classified is reported on its line. -/
private theorem exists_malformed_of_field_eq_error {e : Error} (cut : s.tokens = .ok tokens)
    (failed : s.field v = .error e) :
    ∃ column why, e = .syntactic s.line column (.malformed s.text why) := by
  obtain uncut | ⟨tokens', cut', failed⟩ := bind_eq_error_iff.mp failed
  · cases cut.symm.trans uncut
  cases cut.symm.trans cut'
  split at failed
  next => cases failed
  next column why _ =>
    cases failed
    exact ⟨column, why, rfl⟩

/-- A statement that is cut into tokens declares a field exactly when these spell an allowed
declaration, and the field is the one that the declaration gives. Any other such statement is
reported as malformed. -/
theorem field_decides_spelling (worded : v.Worded) (cut : s.tokens = .ok tokens) :
    (∀ f, s.field v = .ok f ↔ ∃ p : Form, p.Spelled v (tokens.map Token.lexeme) ∧ p.Allowed ∧
      f = p.field s.line) ∧
    ∀ e, s.field v = .error e →
      ∃ column why, e = .syntactic s.line column (.malformed s.text why) := by
  have lexed := lexed_iff.mpr ⟨tokens, cut, rfl⟩
  have alone : ∀ l ∈ tokens.map Token.lexeme, l.Ends [] := fun l mem => (lexed.forall_mem l mem).1
  refine ⟨fun f => ?_, fun e => exists_malformed_of_field_eq_error cut⟩
  rw [field_eq_ok_iff]
  constructor
  · rintro ⟨ls, d, lexed', reads, gives⟩
    obtain rfl := lexed'.unique lexed
    obtain ⟨p, spelled, rfl⟩ := Form.exists_of_reads worded reads gives.name
    exact ⟨p, spelled, (Form.gives_declaration_iff (spelled.isPart alone)).mp gives⟩
  · rintro ⟨p, spelled, given⟩
    exact ⟨_, p.declaration, lexed, spelled.reads worded,
      (Form.gives_declaration_iff (spelled.isPart alone)).mpr given⟩

/-- Stars on both sides of the name, and a tag without its keyword. -/
def rowsStatement : Statement := ⟨"const evfs_key *rows* [ 2*n ]".toList, 4, 9⟩

/-- What the statement consists of. -/
def rowsForm : Form where
  front := [.word constKeyword, .tag "evfs_key".toList, .star]
  name := "rows".toList
  back := [.star]
  length := some "2*n".toList

theorem field_decides_spelling_rowsStatement :
    ∃ f, rowsStatement.field (.extend [] ["evfs_key".toList]) = .ok f ∧ f = rowsForm.field 4 ∧
      f.type = "const struct evfs_key **".toList ∧ f.inner = none ∧
      f.length = some "2*n".toList := by
  have worded : (Vocabulary.extend [] ["evfs_key".toList]).Worded := ⟨by decide, by decide⟩
  have value : rowsStatement.tokens.toOption.map (List.map Token.lexeme) =
      some [.word constKeyword, .word "evfs_key".toList, .star, .word "rows".toList, .star,
        .group " 2*n ".toList] := by decide +kernel
  obtain ⟨tokens, cut, lexemes⟩ := exists_of_map_toOption value
  have spelled : rowsForm.Spelled (.extend [] ["evfs_key".toList]) (tokens.map Token.lexeme) := by
    rw [lexemes]
    have qualifier : IsItem (.extend [] ["evfs_key".toList]) false [.word constKeyword]
        (.word constKeyword) := .word (by decide) (by decide) (by decide)
    have tag : IsItem (.extend [] ["evfs_key".toList]) false [.word "evfs_key".toList]
        (.tag "evfs_key".toList) := .declared (by decide) rfl (by decide)
    have front := AreItems.cons qualifier (.cons tag (.cons .star (.nil _)))
    have name : IsName (.extend [] ["evfs_key".toList]) true "rows".toList :=
      ⟨by decide, by decide, by decide⟩
    have length : IsLength [.group " 2*n ".toList] rowsForm.length :=
      IsLength.given (by decide : Text.trim " 2*n ".toList ≠ [])
    exact Form.Spelled.intro (p := rowsForm) front name (.cons .star (.nil _)) length
  have allowed : rowsForm.Allowed := ⟨⟨.star, by decide, by decide⟩, fun _ _ => by decide⟩
  have field := ((field_decides_spelling worded cut).1 _).mpr ⟨rowsForm, spelled, allowed, rfl⟩
  exact ⟨_, field, rfl, by decide, by decide, by decide⟩

end Statement

end FieldTables
