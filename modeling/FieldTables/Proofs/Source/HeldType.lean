import FieldTables.Proofs.Accessor.Selection
import FieldTables.Proofs.Source.Form

/-!
# The types of fields that hold structures

A field that holds a structure by value has the tag of this structure in its type. The type says no
more than that, apart from qualifiers, unless its declaration mixes the structure type with another
item. Such a declaration is refused only when it has an array length. What it adds to the type is
in no flat field, because a flat field has the type of a leaf.
-/

namespace FieldTables

open Lexeme Outcome Declaration

/-- The type of a field is the structure type of a tag, apart from qualifiers around it. -/
def Field.OnlyHolds (f : Field) (tag : Text) : Prop :=
  ∃ m n, f.type = spaced (List.replicate m constKeyword ++ [structKeyword, tag] ++
    List.replicate n constKeyword)

/-- There is no other word in the type of a field that says no more than its structure. -/
theorem Field.OnlyHolds.mem {f : Field} {tag : Text} {parts : List Text} (only : f.OnlyHolds tag)
    (identifier : tag.isIdentifier = true) (each : ∀ part ∈ parts, IsPart part)
    (type : f.type = spaced parts) :
    ∀ part ∈ parts, part = constKeyword ∨ part = structKeyword ∨ part = tag := by
  obtain ⟨m, n, written⟩ := only
  have among : ∀ part ∈ List.replicate m constKeyword ++ [structKeyword, tag] ++
      List.replicate n constKeyword,
      part = constKeyword ∨ part = structKeyword ∨ part = tag := by
    intro part mem
    simp only [List.mem_append, List.mem_cons, List.mem_replicate, List.not_mem_nil] at mem
    tauto
  have words : ∀ part ∈ List.replicate m constKeyword ++ [structKeyword, tag] ++
      List.replicate n constKeyword, IsPart part := by
    have keywords : constKeyword.isIdentifier = true ∧ structKeyword.isIdentifier = true := by
      decide
    intro part mem
    rcases among part mem with rfl | rfl | rfl
    · exact .inr keywords.1
    · exact .inr keywords.2
    · exact .inr identifier
  rw [spaced_injective each words (type.symm.trans written)]
  exact among

namespace Declaration.Form

variable {v : Vocabulary} {p : Form} {tag : Text} {line : Nat}

/-- A structure type stands among items of which another one is not the qualifier. -/
def Mixes (p : Form) : Prop :=
  ∃ before tag behind, p.items = before ++ .tag tag :: behind ∧
    ∃ item ∈ before ++ behind, item ≠ .word constKeyword

/-- A form whose field holds the structure of a tag. -/
structure Holds (p : Form) (tag : Text) : Prop where
  /-- The structure is held by value. -/
  value : .star ∉ p.items
  /-- One structure is held. -/
  single : p.length = none
  /-- The tag is the last one in the type. -/
  last : ∃ before behind, p.items = before ++ .tag tag :: behind ∧
    ∀ item ∈ behind, item.isTag = false

/-- A structure type is the only item apart from qualifiers. -/
def Sole (p : Form) (tag : Text) : Prop :=
  ∃ m n, p.items = List.replicate m (.word constKeyword) ++ .tag tag ::
    List.replicate n (.word constKeyword)

/-- An allowed form holds the structure that its field holds. -/
theorem Allowed.holds (allowed : p.Allowed) (inner : (p.field line).inner = some tag) :
    p.Holds tag := by
  have value : .star ∉ p.items := by
    intro star
    rw [Form.field, if_pos star] at inner
    cases inner
  rw [Form.field, if_neg value, List.getLast?_filterMap] at inner
  obtain ⟨behind, item, before, split, own, plain⟩ := List.findSome?_eq_some_iff.mp inner
  obtain rfl : item = .tag tag := by
    cases item with
    | tag t => exact congrArg Item.tag (Option.some.inj own)
    | _ => cases own
  have items : p.items = before.reverse ++ .tag tag :: behind.reverse := by
    rw [← List.reverse_reverse p.items, split]
    simp
  refine ⟨value, ?_, before.reverse, behind.reverse, items, fun item mem => ?_⟩
  · by_contra length
    exact value (allowed.single length ⟨.tag tag, by simp [items], rfl⟩)
  · rw [Item.isTag, plain item (List.mem_reverse.mp mem)]
    rfl

/-- A structure type that is the only one in its form is mixed with nothing. -/
theorem Sole.not_mixes (sole : p.Sole tag) : ¬p.Mixes := by
  obtain ⟨m, n, items⟩ := sole
  rintro ⟨before, t, behind, split, item, mem, other⟩
  -- Apart from qualifiers there is one item, but two are found.
  have one : (p.items.filter (· ≠ .word constKeyword)).length = 1 := by
    simp [items]
  rw [split, List.filter_append, List.filter_cons_of_pos (by simp), List.length_append,
    List.length_cons, ← Nat.add_assoc, ← List.length_append, ← List.filter_append] at one
  have empty := List.length_eq_zero_iff.mp (Nat.succ.inj one)
  exact absurd (List.filter_eq_nil_iff.mp empty item mem) (by simpa using other)

/-- A form that holds a structure and mixes it with nothing has nothing else. -/
theorem Holds.sole (holds : p.Holds tag) (pure : ¬p.Mixes) : p.Sole tag := by
  obtain ⟨before, behind, items, -⟩ := holds.last
  have each : ∀ item ∈ before ++ behind, item = .word constKeyword := by
    intro item mem
    by_contra other
    exact pure ⟨before, tag, behind, items, item, mem, other⟩
  obtain ⟨front, back⟩ := List.forall_mem_append.mp each
  refine ⟨before.length, behind.length, ?_⟩
  rw [← List.eq_replicate_of_mem front, ← List.eq_replicate_of_mem back]
  exact items

/-- The type of a field says that a structure is held, and nothing more, when the form does. -/
private theorem onlyHolds_field_iff_sole (worded : v.Worded)
    (known : ∀ item ∈ p.items, item.Known v) (listed : .tag tag ∈ p.items)
    (types : constKeyword ∈ v.types) :
    (p.field line).OnlyHolds tag ↔ p.Sole tag := by
  let items (m n : Nat) : List Item := List.replicate m (.word constKeyword) ++ .tag tag ::
    List.replicate n (.word constKeyword)
  have parts : ∀ m n, (items m n).flatMap Item.parts = List.replicate m constKeyword ++
      [structKeyword, tag] ++ List.replicate n constKeyword := by
    intro m n
    simp [items, Item.parts, List.flatMap_replicate]
  have own : ∀ m n, ∀ item ∈ items m n, item.Known v := by
    have qualifier : (Item.word constKeyword).Known v := ⟨by decide, types⟩
    have held : (Item.tag tag).Known v := known _ listed
    intro m n item mem
    simp only [items, List.mem_append, List.mem_cons, List.mem_replicate] at mem
    rcases mem with ⟨-, rfl⟩ | rfl | ⟨-, rfl⟩
    · exact qualifier
    · exact held
    · exact qualifier
  refine exists_congr fun m => exists_congr fun n => ?_
  rw [← parts]
  constructor
  · intro same
    have written := spaced_injective (isPart_of_known worded known)
      (isPart_of_known worded (own m n)) same
    exact parts_injective worded known (own m n) written
  · intro same
    exact congrArg (fun items => spaced (items.flatMap Item.parts)) same

/-- The type of a field that holds a structure says no more when its form mixes nothing. -/
theorem Holds.onlyHolds_iff (holds : p.Holds tag) (worded : v.Worded)
    (known : ∀ item ∈ p.items, item.Known v) (types : constKeyword ∈ v.types) :
    (p.field line).OnlyHolds tag ↔ ¬p.Mixes := by
  obtain ⟨before, behind, items, -⟩ := holds.last
  rw [onlyHolds_field_iff_sole worded known (by simp [items]) types]
  exact ⟨Sole.not_mixes, holds.sole⟩

/-- A form that mixes a structure type with something else is allowed unless it has a length. -/
theorem Mixes.allowed_iff (mixes : p.Mixes) (value : .star ∉ p.items) :
    p.Allowed ↔ p.length = none := by
  obtain ⟨before, tag, behind, items, -⟩ := mixes
  have listed : .tag tag ∈ p.items := by simp [items]
  constructor
  · intro allowed
    by_contra length
    exact value (allowed.single length ⟨_, listed, rfl⟩)
  · intro length
    exact ⟨⟨_, listed, Item.noConfusion⟩, fun given => absurd length given⟩

end Declaration.Form

/-- A statement declares a field that holds the structure of a tag, and the type of the field says
no more exactly when the declaration mixes the structure type with nothing. -/
def Field.HeldBy (v : Vocabulary) (statements : List Statement) (f : Field) (tag : Text) : Prop :=
  ∃ s ∈ statements, ∃ p, s.Spells v p ∧ f = p.field s.line ∧ p.Holds tag ∧
    (f.OnlyHolds tag ↔ ¬p.Mixes)

namespace Header

variable {extraTypes : List Text} {statements : List Statement} {h : Header}

/-- In a header that was read, the type of a field that holds a structure is that structure type and
qualifiers around it, unless the declaration mixes it with something else. Such a declaration is
refused exactly when it has an array length. What it adds is in no flat field, since each of these
has the type of a declared leaf. -/
theorem ofStatements_holds (identifiers : ∀ word ∈ extraTypes, word.isIdentifier = true)
    (ok : ofStatements extraTypes statements = .ok h) :
    (h.Each fun f => ∀ tag, f.inner = some tag →
      f.HeldBy (.extend extraTypes h.names) statements tag) ∧
    (∀ (s : Statement) (p : Form), s.Spells (.extend extraTypes h.names) p → p.Mixes →
      .star ∉ p.items → ∀ f,
        s.field (.extend extraTypes h.names) = .ok f ↔ p.length = none ∧ f = p.field s.line) ∧
    ∀ flat, h.flatten = .ok flat → flat.Each fun f =>
      ∃ s ∈ h.entries, ∃ leaf ∈ s.fields.entries, leaf.inner = none ∧ leaf.type = f.type := by
  have worded := worded_of_ofStatements identifiers ok
  have types : constKeyword ∈ (Vocabulary.extend extraTypes h.names).types :=
    List.mem_append_left _ (by decide)
  refine ⟨?_, ?_, ?_⟩
  · intro t ht f hf tag inner
    obtain ⟨s, hs, p, spells, allowed, rfl⟩ := each_spells_of_ofStatements identifiers ok t ht f hf
    have holds := allowed.holds inner
    exact ⟨s, hs, p, spells, rfl, holds, holds.onlyHolds_iff worded spells.known types⟩
  · intro s p spells mixes value f
    rw [spells.field_eq_ok_iff worded, mixes.allowed_iff value]
  · intro flat flattened t ht f hf
    have leaves : (∃ t ∈ flat.entries, ∃ g ∈ t.fields.entries, g.type = f.type) ↔ _ :=
      exists_flat_iff (declared_of_ofStatements ok) flattened fun _ _ type _ own => type ▸ own
    exact leaves.mp ⟨t, ht, f, hf, rfl⟩

/-- Structures that are held with qualifiers, with another type word, and with another structure. -/
def mixedText : Text :=
  ("struct evfs_a \x7b int x; \x7d;\nstruct evfs_b \x7b const struct evfs_a const p;\n" ++
    "evfs_a q int; struct evfs_b struct evfs_a r; \x7d;").toList

theorem ofStatements_holds_mixedText :
    ∃ h, ofStatements [] (Statement.ofText mixedText) = .ok h ∧
      (h.entries.flatMap fun s => s.fields.entries.map fun f => (f.type, f.inner)) =
        [("int".toList, none), ("const struct evfs_a const".toList, some "evfs_a".toList),
          ("struct evfs_a int".toList, some "evfs_a".toList),
          ("struct evfs_b struct evfs_a".toList, some "evfs_a".toList)] ∧
      h.Each fun f => ∀ tag, f.inner = some tag →
        f.HeldBy (.extend [] h.names) (Statement.ofText mixedText) tag := by
  have value : (ofStatements [] (Statement.ofText mixedText)).toOption.map (fun h =>
      h.entries.flatMap fun s => s.fields.entries.map fun f => (f.type, f.inner)) =
        some [("int".toList, none), ("const struct evfs_a const".toList, some "evfs_a".toList),
          ("struct evfs_a int".toList, some "evfs_a".toList),
          ("struct evfs_b struct evfs_a".toList, some "evfs_a".toList)] := by decide +kernel
  obtain ⟨h, ok, types⟩ := exists_of_map_toOption value
  obtain ⟨held, -, -⟩ := ofStatements_holds (List.forall_mem_nil _) ok
  exact ⟨h, ok, types, held⟩

/-- A declaration with a type word behind the structure that it holds. -/
def wordBehindText : Text :=
  "struct evfs_a \x7b int x; \x7d;\nstruct evfs_b \x7b struct evfs_a int y; \x7d;".toList

/-- The same declaration without the type word. -/
def nothingBehindText : Text :=
  "struct evfs_a \x7b int x; \x7d;\nstruct evfs_b \x7b struct evfs_a y; \x7d;".toList

/-- A type word behind a structure that is held is accepted, and nothing is left of it when the
header is flat. -/
theorem not_onlyHolds_wordBehindText :
    (∃ h, ofStatements [] (Statement.ofText wordBehindText) = .ok h ∧
      ∃ s ∈ h.entries, ∃ f ∈ s.fields.entries, f.inner = some "evfs_a".toList ∧
        ¬f.OnlyHolds "evfs_a".toList) ∧
      ∃ flat, compile {} wordBehindText = .ok flat ∧ compile {} nothingBehindText = .ok flat := by
  have value : (ofStatements [] (Statement.ofText wordBehindText)).toOption.map (fun h =>
      h.entries.flatMap fun s => s.fields.entries.map fun f => (f.type, f.inner)) =
        some [("int".toList, none), ("struct evfs_a int".toList, some "evfs_a".toList)] := by
    decide +kernel
  obtain ⟨h, ok, types⟩ := exists_of_map_toOption value
  have listed : ("struct evfs_a int".toList, some "evfs_a".toList) ∈
      h.entries.flatMap fun s => s.fields.entries.map fun f => (f.type, f.inner) := by
    simp [types]
  obtain ⟨s, hs, own⟩ := List.mem_flatMap.mp listed
  obtain ⟨f, hf, same⟩ := List.mem_map.mp own
  obtain ⟨type, inner⟩ := Prod.mk.inj same
  have parts : ∀ part ∈ [structKeyword, "evfs_a".toList, "int".toList], IsPart part := by
    have identifiers : ∀ part ∈ [structKeyword, "evfs_a".toList, "int".toList],
        part.isIdentifier = true := by decide
    exact fun part mem => .inr (identifiers part mem)
  have more : ¬f.OnlyHolds "evfs_a".toList := by
    intro only
    have words := only.mem (by decide) parts type "int".toList (by simp)
    exact absurd words (by decide)
  have accepted : (compile {} wordBehindText).toOption.map (fun flat => flat.names) =
      some ["evfs_a".toList, "evfs_b".toList] := by decide +kernel
  have same : (compile {} nothingBehindText).toOption = (compile {} wordBehindText).toOption := by
    decide +kernel
  obtain ⟨flat, flattened, -⟩ := exists_of_map_toOption accepted
  have again : (compile {} nothingBehindText).toOption.map id = some flat := by
    rw [same, flattened]
    rfl
  obtain ⟨_, flattened', rfl⟩ := exists_of_map_toOption again
  exact ⟨⟨h, ok, s, hs, f, hf, inner, more⟩, _, flattened, flattened'⟩

end Header

end FieldTables
