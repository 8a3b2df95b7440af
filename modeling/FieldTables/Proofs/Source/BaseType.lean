import FieldTables.Proofs.Accessor.Selection
import FieldTables.Proofs.Source.Form

/-!
# The base of a type

The base of a type is a structure type or a type word that is not the qualifier. What stands around
it qualifies it or points to it. A declaration without a base is refused when it has qualifiers
only, but with a star it is accepted, and the size of the field is then taken of stars and
qualifiers.
-/

namespace FieldTables

open Lexeme Outcome Declaration

variable {v : Vocabulary} {extraTypes : List Text} {parts : List Text} {type : Text}

/-- What can be the base of a type. -/
inductive IsBase (extraTypes : List Text) : List Text → Prop
  /-- A tag behind its keyword. -/
  | tag {tag : Text} (identifier : tag.isIdentifier = true) : IsBase extraTypes [structKeyword, tag]
  /-- A keyword that is no qualifier, or an extra type. -/
  | word {word : Text} (known : word ∈ typeKeywords ++ extraTypes) (other : word ≠ structKeyword)
      (plain : word ≠ constKeyword) : IsBase extraTypes [word]

/-- A type with a base among its parts. -/
def Text.Based (extraTypes : List Text) (type : Text) : Prop :=
  ∃ front base back, (∀ part ∈ front ++ back, IsPart part) ∧ IsBase extraTypes base ∧
    type = spaced (front ++ base ++ back)

/-- A type of stars and qualifiers only. -/
def Text.Baseless (type : Text) : Prop :=
  ∃ parts, (∀ part ∈ parts, part = constKeyword ∨ part = ['*']) ∧ type = spaced parts

/-- An operand of stars and qualifiers only, but for an array length. -/
def Text.BareOperand (operand : Text) : Prop :=
  ∃ type : Text, type.Baseless ∧
    (operand = type ∨ ∃ length, operand = type ++ '[' :: length ++ [']'])

/-- A qualifier or a star is a part of a type. -/
private theorem isPart_of_bare (each : ∀ part ∈ parts, part = constKeyword ∨ part = ['*']) :
    ∀ part ∈ parts, IsPart part := by
  have keyword : constKeyword.isIdentifier = true := by decide
  intro part mem
  rcases each part mem with rfl | rfl
  · exact .inr keyword
  · exact .inl rfl

/-- A type has no base when it has none among its parts. -/
theorem Text.Based.not_baseless (identifiers : ∀ word ∈ extraTypes, word.isIdentifier = true)
    (based : type.Based extraTypes) : ¬type.Baseless := by
  have keyword : structKeyword.isIdentifier = true := by decide
  have keywords : ∀ word ∈ typeKeywords, word.isIdentifier = true := by decide
  obtain ⟨front, base, back, around, is, rfl⟩ := based
  rintro ⟨parts, each, same⟩
  have own : ∀ part ∈ base, IsPart part := by
    cases is with
    | tag identifier => simpa using ⟨.inr keyword, .inr identifier⟩
    | word known => simpa using .inr (List.forall_mem_append.mpr ⟨keywords, identifiers⟩ _ known)
  have whole : ∀ part ∈ front ++ base ++ back, IsPart part := by
    obtain ⟨before, behind⟩ := List.forall_mem_append.mp around
    exact List.forall_mem_append.mpr ⟨List.forall_mem_append.mpr ⟨before, own⟩, behind⟩
  obtain rfl := spaced_injective whole (isPart_of_bare each) same
  have bare : ∀ part ∈ base, part = constKeyword ∨ part = ['*'] := fun part mem =>
    each part (List.mem_append_left _ (List.mem_append_right _ mem))
  cases is with
  | tag => exact absurd (bare structKeyword (by simp)) (by decide)
  | @word word known other plain =>
    rcases bare word (by simp) with qualifier | rfl
    · exact plain qualifier
    · cases List.forall_mem_append.mpr ⟨keywords, identifiers⟩ _ known

namespace Declaration

/-- A part is written in front of the others, with nothing but spaces between them. -/
private theorem exists_spaced_cons (part : Text) (parts : List Text) :
    ∃ gap, (∀ c ∈ gap, c = ' ') ∧ spaced (part :: parts) = part ++ (gap ++ spaced parts) := by
  cases parts with
  | nil => exact ⟨[], List.forall_mem_nil _, (List.append_nil part).symm⟩
  | cons next rest =>
    rw [spaced]
    split
    · exact ⟨[], List.forall_mem_nil _, rfl⟩
    · exact ⟨[' '], by simp, rfl⟩

/-- What is written of a type are its parts and spaces. -/
theorem mem_spaced {c : Char} (mem : c ∈ spaced parts) : c = ' ' ∨ ∃ part ∈ parts, c ∈ part := by
  induction parts with
  | nil => cases mem
  | cons part rest ih =>
    obtain ⟨gap, space, shape⟩ := exists_spaced_cons part rest
    rw [shape, List.mem_append, List.mem_append] at mem
    rcases mem with here | between | below
    · exact .inr ⟨part, List.mem_cons_self, here⟩
    · exact .inl (space c between)
    · exact (ih below).imp_right fun ⟨later, listed, has⟩ =>
        ⟨later, List.mem_cons_of_mem _ listed, has⟩

/-- Each part of a type is written. -/
theorem subset_spaced {part : Text} (mem : part ∈ parts) : part ⊆ spaced parts := by
  induction parts with
  | nil => cases mem
  | cons first rest ih =>
    obtain ⟨gap, -, shape⟩ := exists_spaced_cons first rest
    rw [shape]
    rcases List.mem_cons.mp mem with rfl | later
    · exact List.subset_append_left _ _
    · exact List.subset_append_of_subset_right _ (List.subset_append_of_subset_right _ (ih later))

/-- No bracket is written in a type. -/
theorem not_mem_spaced (each : ∀ part ∈ parts, IsPart part) : '[' ∉ spaced parts := by
  intro mem
  rcases mem_spaced mem with space | ⟨part, listed, has⟩
  · cases space
  · rcases each part listed with rfl | identifier
    · exact absurd has (by decide)
    · exact absurd (Text.isName_of_isIdentifier identifier _ has) (by decide)

/-- An item that is neither the qualifier nor a star. -/
def Item.IsBare (item : Item) : Prop := item = .word constKeyword ∨ item = .star

namespace Form

variable {p : Form} {line : Nat}

/-- The type of a form is written with its parts. -/
theorem type_field (p : Form) (line : Nat) :
    (p.field line).type = spaced (p.items.flatMap Item.parts) := rfl

/-- The type of a field has no base when every item of its form is the qualifier or a star. -/
theorem baseless_field_iff (worded : v.Worded) (known : ∀ item ∈ p.items, item.Known v) :
    (p.field line).type.Baseless ↔ ∀ item ∈ p.items, item.IsBare := by
  constructor
  · rintro ⟨parts, each, same⟩ item mem
    have written := spaced_injective (isPart_of_known worded known) (isPart_of_bare each) same
    have own : ∀ part ∈ item.parts, part = constKeyword ∨ part = ['*'] := fun part has =>
      each part (written ▸ List.mem_flatMap.mpr ⟨item, mem, has⟩)
    cases item with
    | tag t => exact absurd (own structKeyword List.mem_cons_self) (by decide)
    | word w =>
      rcases own w List.mem_cons_self with rfl | rfl
      · exact .inl rfl
      · cases worded.types _ (known _ mem).2
    | star => exact .inr rfl
  · intro bare
    refine ⟨_, fun part mem => ?_, type_field p line⟩
    obtain ⟨item, listed, own⟩ := List.mem_flatMap.mp mem
    rcases bare item listed with rfl | rfl
    · exact .inl (List.mem_singleton.mp own)
    · exact .inr (List.mem_singleton.mp own)

/-- An item that is neither the qualifier nor a star is the base of a type. -/
theorem based_field {structures : List Text}
    (worded : (Vocabulary.extend extraTypes structures).Worded)
    (known : ∀ item ∈ p.items, item.Known (.extend extraTypes structures)) {item : Item}
    (mem : item ∈ p.items) (base : ¬item.IsBare) : (p.field line).type.Based extraTypes := by
  obtain ⟨front, back, items⟩ := List.append_of_mem mem
  rw [items, List.forall_mem_append, List.forall_mem_cons] at known
  obtain ⟨before, own, behind⟩ := known
  have is : IsBase extraTypes item.parts := by
    cases item with
    | tag t => exact .tag own
    | word w => exact .word own.2 own.1 fun same => base (.inl (same ▸ rfl))
    | star => exact absurd (.inr rfl) base
  refine ⟨front.flatMap Item.parts, item.parts, back.flatMap Item.parts, ?_, is, ?_⟩
  · exact List.forall_mem_append.mpr ⟨isPart_of_known worded before, isPart_of_known worded behind⟩
  · rw [type_field, items]
    simp

/-- The field of a form holds no structure by value when all items are the qualifier or stars. -/
theorem inner_field_of_isBare (bare : ∀ item ∈ p.items, item.IsBare) :
    (p.field line).inner = none := by
  have plain : p.items.filterMap Item.tag? = [] := by
    rw [List.filterMap_eq_nil_iff]
    intro item mem
    rcases bare item mem with rfl | rfl <;> rfl
  rw [field, plain]
  exact ite_self none

/-- A form of qualifiers and stars is allowed when it has a star. -/
theorem allowed_iff_of_isBare (bare : ∀ item ∈ p.items, item.IsBare) :
    p.Allowed ↔ .star ∈ p.items := by
  constructor
  · intro allowed
    obtain ⟨item, mem, other⟩ := allowed.typed
    exact (bare item mem).resolve_left other ▸ mem
  · intro star
    exact ⟨⟨_, star, Item.noConfusion⟩, fun _ _ => star⟩

end Form

end Declaration

/-- The size of a field is taken of stars and qualifiers when its type has no base. -/
theorem Field.bareOperand_sizedType_iff {f : Field} (closed : '[' ∉ f.type) :
    f.sizedType.BareOperand ↔ f.type.Baseless := by
  have free : ∀ {type : Text}, type.Baseless → '[' ∉ type := by
    rintro _ ⟨parts, each, rfl⟩
    exact not_mem_spaced (isPart_of_bare each)
  constructor
  · rintro ⟨type, baseless, shape⟩
    -- Neither of both types has a bracket, so the first one starts the array length.
    have cut : ∀ {front back : Text}, '[' ∉ front →
        (front ++ '[' :: back ++ [']']).takeWhile (· != '[') = front := by
      intro front back apart
      have before : ∀ c ∈ front, (c != '[') = true := fun c mem =>
        bne_iff_ne.mpr fun same => apart (same ▸ mem)
      rw [List.append_assoc, List.takeWhile_append_of_pos before]
      simp
    unfold sizedType at shape
    cases stated : f.length with
    | none =>
      rw [stated] at shape
      rcases shape with rfl | ⟨length, whole⟩
      · exact baseless
      · exact absurd (by simp [whole]) closed
    | some own =>
      rw [stated] at shape
      dsimp only at shape
      rcases shape with whole | ⟨length, whole⟩
      · exact absurd (by simp [← whole]) (free baseless)
      · have front := congrArg (List.takeWhile (· != '[')) whole
        rw [cut closed, cut (free baseless)] at front
        exact front ▸ baseless
  · intro baseless
    refine ⟨f.type, baseless, ?_⟩
    unfold sizedType
    cases f.length with
    | none => exact .inl rfl
    | some length => exact .inr ⟨length, rfl⟩

namespace Header

variable {statements : List Statement} {h : Header}

/-- In a header that was read, a type has no base exactly when it is made of stars and qualifiers,
and then it has a star. A declaration without a base is accepted exactly when it has a star. The
size of stars and qualifiers is taken exactly when some field is declared without a base. -/
theorem ofStatements_baseTypes (identifiers : ∀ word ∈ extraTypes, word.isIdentifier = true)
    (ok : ofStatements extraTypes statements = .ok h) :
    (h.Each fun f => (f.type.Based extraTypes ↔ ¬f.type.Baseless) ∧
      (f.type.Baseless → '*' ∈ f.type)) ∧
    (∀ (s : Statement) (p : Form), s.Spells (.extend extraTypes h.names) p →
      (∀ item ∈ p.items, item.IsBare) → ∀ f,
        s.field (.extend extraTypes h.names) = .ok f ↔ .star ∈ p.items ∧ f = p.field s.line) ∧
    ∀ flat, h.flatten = .ok flat → ∀ settings,
      ((∃ t ∈ flat.entries, ∃ operand ∈ (t.sizeTable settings).operands, operand.BareOperand) ↔
        ∃ s ∈ h.entries, ∃ f ∈ s.fields.entries, f.type.Baseless) := by
  have worded := worded_of_ofStatements identifiers ok
  have forms := each_spells_of_ofStatements identifiers ok
  refine ⟨?_, ?_, ?_⟩
  · intro t ht f hf
    obtain ⟨s, -, p, spells, allowed, rfl⟩ := forms t ht f hf
    constructor
    · constructor
      · intro based
        exact based.not_baseless identifiers
      · intro more
        rw [Form.baseless_field_iff worded spells.known] at more
        push Not at more
        obtain ⟨item, mem, base⟩ := more
        exact Form.based_field worded spells.known mem base
    · intro baseless
      have bare := (Form.baseless_field_iff worded spells.known).mp baseless
      have star := (Form.allowed_iff_of_isBare bare).mp allowed
      have part : ['*'] ∈ p.items.flatMap Item.parts :=
        List.mem_flatMap.mpr ⟨_, star, List.mem_singleton.mpr rfl⟩
      exact subset_spaced part List.mem_cons_self
  · intro s p spells bare f
    rw [spells.field_eq_ok_iff worded, Form.allowed_iff_of_isBare bare]
  · intro flat flattened settings
    have sizes : (∃ t ∈ flat.entries, ∃ f ∈ t.fields.entries, f.sizedType.BareOperand) ↔ _ :=
      exists_flat_iff (declared_of_ofStatements ok) flattened fun f g type length bare =>
        sizedType_congr type length ▸ bare
    have own : ∀ s ∈ h.entries, ∀ f ∈ s.fields.entries,
        f.inner = none ∧ f.sizedType.BareOperand ↔ f.type.Baseless := by
      intro t ht f hf
      obtain ⟨s, -, p, spells, -, rfl⟩ := forms t ht f hf
      have closed := not_mem_spaced (isPart_of_known worded spells.known)
      rw [Field.bareOperand_sizedType_iff closed, Form.baseless_field_iff worded spells.known]
      exact and_iff_right_of_imp Form.inner_field_of_isBare
    have operands : ∀ t : Structure,
        (∃ operand ∈ (t.sizeTable settings).operands, operand.BareOperand) ↔
          ∃ f ∈ t.fields.entries, f.sizedType.BareOperand := by
      simp [Structure.sizeTable]
    simp only [operands]
    refine sizes.trans ?_
    exact exists_congr fun s => and_congr_right fun hs =>
      exists_congr fun f => and_congr_right fun hf => own s hs f hf

/-- Pointers with a base in front of the star and behind it, and one without any. -/
def pointersText : Text :=
  ("struct evfs_a \x7b const int *p; * struct evfs_b const q[2]; const *r;\n" ++
    "evfs_b in; \x7d;\nstruct evfs_b \x7b * const *s[N]; \x7d;").toList

theorem ofStatements_baseTypes_pointersText :
    ∃ h, ofStatements [] (Statement.ofText pointersText) = .ok h ∧
      (h.entries.map fun s => s.fields.entries.map Field.type) =
        [["const int *".toList, "* struct evfs_b const".toList, "const *".toList,
          "struct evfs_b".toList], ["* const *".toList]] ∧
      h.Each fun f => (f.type.Based [] ↔ ¬f.type.Baseless) ∧ (f.type.Baseless → '*' ∈ f.type) := by
  have value : (ofStatements [] (Statement.ofText pointersText)).toOption.map (fun h =>
      h.entries.map fun s => s.fields.entries.map Field.type) =
        some [["const int *".toList, "* struct evfs_b const".toList, "const *".toList,
          "struct evfs_b".toList], ["* const *".toList]] := by decide +kernel
  obtain ⟨h, ok, types⟩ := exists_of_map_toOption value
  obtain ⟨based, -, -⟩ := ofStatements_baseTypes (List.forall_mem_nil _) ok
  exact ⟨h, ok, types, based⟩

/-- A qualifier and a star around nothing. -/
def nothingPointedText : Text := "struct evfs_a \x7b const *x; \x7d;".toList

/-- A star without a type is accepted, and its size is taken. -/
theorem not_based_nothingPointedText :
    (∃ h, ofStatements [] (Statement.ofText nothingPointedText) = .ok h ∧
      ∃ s ∈ h.entries, ∃ f ∈ s.fields.entries, ¬f.type.Based []) ∧
    ∃ flat, compile {} nothingPointedText = .ok flat ∧
      ∃ t ∈ flat.entries, ∃ operand ∈ (t.sizeTable {}).operands, operand.BareOperand := by
  have baseless : Text.Baseless "const *".toList := by
    refine ⟨[constKeyword, ['*']], ?_, by decide⟩
    simp
  have value : (ofStatements [] (Statement.ofText nothingPointedText)).toOption.map (fun h =>
      h.entries.flatMap fun s => s.fields.entries.map Field.type) = some ["const *".toList] := by
    decide +kernel
  have sized : (compile {} nothingPointedText).toOption.map (fun flat =>
      flat.entries.flatMap fun t => (t.sizeTable {}).operands) = some ["const *".toList] := by
    decide +kernel
  obtain ⟨h, ok, types⟩ := exists_of_map_toOption value
  obtain ⟨flat, compiled, operands⟩ := exists_of_map_toOption sized
  constructor
  · obtain ⟨s, hs, own⟩ := List.mem_flatMap.mp (types ▸ List.mem_singleton_self _)
    obtain ⟨f, hf, type⟩ := List.mem_map.mp own
    refine ⟨h, ok, s, hs, f, hf, fun based => ?_⟩
    exact based.not_baseless (List.forall_mem_nil _) (type ▸ baseless)
  · obtain ⟨t, ht, mem⟩ := List.mem_flatMap.mp (operands ▸ List.mem_singleton_self _)
    exact ⟨flat, compiled, t, ht, _, mem, _, baseless, .inl rfl⟩

end Header

end FieldTables
