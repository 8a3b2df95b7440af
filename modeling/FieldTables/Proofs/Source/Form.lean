import FieldTables.Proofs.Source.Attribution
import FieldTables.Proofs.Source.Grammar

/-!
# The form of a field

A statement spells at most one form, and it declares a field exactly when the form is allowed. So
every field of a header that was read comes from a form, and its type is written with the parts of
the items of this form. The parts can be told from the type again, and the items from the parts.
-/

namespace FieldTables

open Lexeme Outcome

namespace Declaration

variable {v : Vocabulary} {d r r' : Declaration} {ls : List Lexeme} {items more : List Item}
  {parts others : List Text}

/-- What is read of lexemes is decided by them. -/
theorem Reads.unique (first : Reads v d ls r) (second : Reads v d ls r') (bare : d.bare = d) :
    r = r' := by
  let tokens : List Token := ls.map fun l => ⟨l, 0⟩
  have same : tokens.map Token.lexeme = ls := by simp [tokens, Function.comp_def]
  obtain ⟨read, ok, rfl⟩ := exists_read_of_reads first same bare
  obtain ⟨read', ok', rfl⟩ := exists_read_of_reads second same bare
  obtain rfl : read = read' := Except.ok.inj (ok.symm.trans ok')
  rfl

/-- The parts of a type can be told from what is written. -/
theorem spaced_injective (each : ∀ part ∈ parts, IsPart part) (each' : ∀ part ∈ others, IsPart part)
    (same : spaced parts = spaced others) : parts = others := by
  have lexed : ∀ {parts : List Text}, (∀ part ∈ parts, IsPart part) →
      Text.Lexed (spaced parts) (parts.map ofPart) := by
    intro parts each
    have whole : Text.Lexed (typeText parts ++ []) (parts.map ofPart ++ []) :=
      lexed_typeText each rfl .nil
    rwa [List.append_nil, List.append_nil, typeText_eq_spaced each] at whole
  have texts : ∀ parts : List Text, (parts.map ofPart).map Lexeme.text = parts := by
    intro parts
    simp [Function.comp_def, text_ofPart]
  have cut := (lexed each).unique (same ▸ lexed each')
  rw [← texts parts, cut, texts]

namespace Item

/-- What is known of an item: a tag is an identifier, and a word is a type. -/
def Known (v : Vocabulary) : Item → Prop
  | tag t => t.isIdentifier = true
  | word w => w ≠ structKeyword ∧ w ∈ v.types
  | star => True

variable {item : Item}

theorem Known.isPart (worded : v.Worded) (known : item.Known v) :
    ∀ part ∈ item.parts, IsPart part := by
  cases item with
  | tag t =>
    have keyword : structKeyword.isIdentifier = true := by decide
    simpa [parts] using ⟨.inr keyword, .inr known⟩
  | word w => simpa [parts] using .inr (worded.types w known.2)
  | star => simpa [parts] using .inl rfl

/-- The first part tells the items apart. -/
private theorem Known.eq_of_parts (worded : v.Worded) {item' : Item} (known : item.Known v)
    (known' : item'.Known v) {rest rest' : List Text}
    (same : item.parts ++ rest = item'.parts ++ rest') : item = item' ∧ rest = rest' := by
  have star : ['*'] ≠ structKeyword := by decide
  have word : ∀ {w}, (word w).Known v → w ≠ structKeyword ∧ w ≠ ['*'] := by
    rintro w ⟨other, type⟩
    refine ⟨other, ?_⟩
    rintro rfl
    cases worded.types _ type
  cases item with
  | tag t =>
    cases item' with
    | tag t' => simpa [parts] using same
    | word w' => exact absurd (List.cons.inj same).1.symm (word known').1
    | star => exact absurd (List.cons.inj same).1.symm star
  | word w =>
    cases item' with
    | tag t' => exact absurd (List.cons.inj same).1 (word known).1
    | word w' => simpa [parts] using same
    | star => exact absurd (List.cons.inj same).1 (word known).2
  | star =>
    cases item' with
    | tag t' => exact absurd (List.cons.inj same).1 star
    | word w' => exact absurd (List.cons.inj same).1.symm (word known').2
    | star => simpa [parts] using same

end Item

/-- The items of a type can be told from their parts. -/
theorem parts_injective (worded : v.Worded) (each : ∀ item ∈ items, item.Known v)
    (each' : ∀ item ∈ more, item.Known v)
    (same : items.flatMap Item.parts = more.flatMap Item.parts) : items = more := by
  have full : ∀ item : Item, item.parts ≠ [] := by
    intro item
    cases item <;> simp [Item.parts]
  induction items generalizing more with
  | nil =>
    cases more with
    | nil => rfl
    | cons item others => simp [full] at same
  | cons item items ih =>
    obtain ⟨here, later⟩ := List.forall_mem_cons.mp each
    cases more with
    | nil => simp [full] at same
    | cons item' others =>
      obtain ⟨here', later'⟩ := List.forall_mem_cons.mp each'
      rw [List.flatMap_cons, List.flatMap_cons] at same
      obtain ⟨rfl, rest⟩ := here.eq_of_parts worded here' same
      rw [ih later later' rest]

variable {item : Item} {seen : Bool} {p : Form}

theorem IsItem.known (is : IsItem v seen ls item) (alone : ∀ l ∈ ls, l.Ends []) :
    item.Known v := by
  cases is with
  | keyword tag => exact (alone (.word tag) (by simp)).1
  | @declared tag => exact (alone (.word tag) (by simp)).1
  | word other _ known => exact ⟨other, known⟩
  | star => trivial

theorem AreItems.known (are : AreItems v seen ls items) (alone : ∀ l ∈ ls, l.Ends []) :
    ∀ item ∈ items, item.Known v := by
  induction are with
  | nil => exact List.forall_mem_nil _
  | cons first _ ih =>
    obtain ⟨here, later⟩ := List.forall_mem_append.mp alone
    exact List.forall_mem_cons.mpr ⟨first.known here, ih later⟩

/-- Each item of a form that is spelled is known. -/
theorem Form.Spelled.known (spelled : p.Spelled v ls) (alone : ∀ l ∈ ls, l.Ends []) :
    ∀ item ∈ p.items, item.Known v := by
  obtain ⟨before, -, behind, -⟩ := spelled
  obtain ⟨here, later⟩ := List.forall_mem_append.mp alone
  obtain ⟨there, -⟩ := List.forall_mem_append.mp (List.forall_mem_cons.mp later).2
  exact List.forall_mem_append.mpr ⟨before.known here, behind.known there⟩

/-- The parts of known items are parts of a type. -/
theorem isPart_of_known (worded : v.Worded) (known : ∀ item ∈ items, item.Known v) :
    ∀ part ∈ items.flatMap Item.parts, IsPart part := by
  intro part mem
  obtain ⟨item, listed, own⟩ := List.mem_flatMap.mp mem
  exact (known item listed).isPart worded part own

end Declaration

open Declaration

namespace Statement

variable {v : Vocabulary} {s : Statement} {p : Form} {f : Field}

/-- The lexemes of a statement are those of a form as it is written. -/
def Spells (v : Vocabulary) (s : Statement) (p : Form) : Prop :=
  ∃ ls, Text.Lexed s.text ls ∧ p.Spelled v ls

theorem Spells.known (spells : s.Spells v p) : ∀ item ∈ p.items, item.Known v := by
  obtain ⟨ls, lexed, spelled⟩ := spells
  exact spelled.known fun l mem => (lexed.forall_mem l mem).1

/-- A statement that spells a form declares its field, as long as the form is allowed. -/
theorem Spells.field_eq_ok_iff (worded : v.Worded) (spells : s.Spells v p) :
    s.field v = .ok f ↔ p.Allowed ∧ f = p.field s.line := by
  have parts : ∀ item ∈ p.items, ∀ part ∈ item.parts, IsPart part :=
    fun item mem => (spells.known item mem).isPart worded
  obtain ⟨ls, lexed, spelled⟩ := spells
  rw [Statement.field_eq_ok_iff, ← Form.gives_declaration_iff parts]
  constructor
  · rintro ⟨ls', d, lexed', reads, gives⟩
    obtain rfl := lexed.unique lexed'
    rwa [reads.unique (spelled.reads worded) rfl] at gives
  · intro gives
    exact ⟨ls, p.declaration, lexed, spelled.reads worded, gives⟩

/-- A statement that declares a field spells an allowed form, and the field is that of the form. -/
theorem exists_spells_of_field (worded : v.Worded) (ok : s.field v = .ok f) :
    ∃ p, s.Spells v p ∧ p.Allowed ∧ f = p.field s.line := by
  obtain ⟨ls, d, lexed, reads, gives⟩ := Statement.field_eq_ok_iff.mp ok
  obtain ⟨p, spelled, -⟩ := Form.exists_of_reads worded reads gives.name
  have spells : s.Spells v p := ⟨ls, lexed, spelled⟩
  exact ⟨p, spells, (spells.field_eq_ok_iff worded).mp ok⟩

end Statement

namespace Header

variable {extraTypes : List Text} {statements : List Statement} {h : Header}

/-- The words that a header is read with are identifiers. -/
theorem worded_of_ofStatements (identifiers : ∀ word ∈ extraTypes, word.isIdentifier = true)
    (ok : ofStatements extraTypes statements = .ok h) :
    (Vocabulary.extend extraTypes h.names).Worded := by
  have keywords : ∀ word ∈ typeKeywords, word.isIdentifier = true := by decide
  refine ⟨List.forall_mem_append.mpr ⟨keywords, identifiers⟩, List.forall_mem_map.mpr ?_⟩
  intro s listed
  obtain ⟨g, -, becomes⟩ := exists_of_mem_right (ofStatements_eq_ok_iff_becomes.mp ok).2 listed
  exact Statement.isIdentifier_of_opens becomes.tag

/-- Every field of a header comes from a form that one of its statements spells. -/
theorem each_spells_of_ofStatements (identifiers : ∀ word ∈ extraTypes, word.isIdentifier = true)
    (ok : ofStatements extraTypes statements = .ok h) :
    h.Each fun f => ∃ s ∈ statements, ∃ p, s.Spells (.extend extraTypes h.names) p ∧ p.Allowed ∧
      f = p.field s.line := by
  have worded := worded_of_ofStatements identifiers ok
  intro t ht f hf
  obtain ⟨g, hg, becomes⟩ := exists_of_mem_right (ofStatements_eq_ok_iff_becomes.mp ok).2 ht
  obtain ⟨s, hs, field, -⟩ := exists_of_mem_right becomes.fields hf
  have body : s ∈ g.statements := List.mem_cons_of_mem _ (List.mem_of_mem_filter hs)
  exact ⟨s, Segment.mem_of_mem_statements hg body, Statement.exists_spells_of_field worded field⟩

end Header

end FieldTables
