import FieldTables.Proofs.Source.Lexing

/-!
# How a declaration takes its lexemes

A declaration takes one lexeme after the other, and the tag of a structure together with its
keyword. What a lexeme is taken for depends on the vocabulary and on what was taken before, but not
on columns: these decide only where an error is reported. So a statement declares a field through
its lexemes and its line alone.
-/

namespace FieldTables

open Outcome Text

namespace Declaration

variable {v : Vocabulary} {d r : Declaration} {tokens : List Token} {ls more : List Lexeme}

/-- A declaration without the columns of its names. -/
def bare (d : Declaration) : Declaration := { d with names := d.names.map fun n => (n.1, 0) }

/-- A name is read, at no column in particular. -/
def addName (d : Declaration) (name : Text) : Declaration :=
  { d with names := d.names ++ [(name, 0)] }

/-- A star is read. -/
def addStar (d : Declaration) : Declaration := { d.addPart ['*'] with pointer := true }

/-- A lexeme names a structure: the first one that is read, in front of the name. -/
def Refers (v : Vocabulary) (d : Declaration) (l : Lexeme) : Prop :=
  l.text ∈ v.structures ∧ d.inner = none ∧ d.names = []

/-- The lexemes that a declaration takes at once, and what it becomes. -/
inductive Takes (v : Vocabulary) (d : Declaration) : List Lexeme → Declaration → Prop
  /-- A tag with its keyword is a structure type, declared or not. -/
  | tagged (tag : Text) : Takes v d [.word structKeyword, .word tag] (d.addStructure tag)
  /-- A declared structure can be named by its tag alone. -/
  | declared {l : Lexeme} (other : l ≠ .word structKeyword) (refers : Refers v d l) :
      Takes v d [l] (d.addStructure l.text)
  /-- A known word is a type word. -/
  | type {l : Lexeme} (other : l ≠ .word structKeyword) (plain : ¬Refers v d l)
      (known : l.text ∈ v.types) : Takes v d [l] (d.addPart l.text)
  /-- Any other word is a name. -/
  | name {name : Text} (other : name ≠ structKeyword) (plain : ¬Refers v d (.word name))
      (unknown : name ∉ v.types) : Takes v d [.word name] (d.addName name)
  /-- A star makes a pointer. -/
  | star (plain : ¬Refers v d .star) (unknown : ['*'] ∉ v.types) : Takes v d [.star] d.addStar
  /-- A group behind a name is an array length. -/
  | array {inside : Text} (plain : ¬Refers v d (.group inside))
      (unknown : (Lexeme.group inside).text ∉ v.types) (named : d.names ≠ [])
      (full : inside.trim ≠ []) :
      Takes v d [.group inside] { d with length := some inside.trim }

/-- A declaration takes lexemes to their end; behind an array length it takes none. -/
inductive Reads (v : Vocabulary) : Declaration → List Lexeme → Declaration → Prop
  | nil (d : Declaration) : Reads v d [] d
  | cons {d next r : Declaration} {ls more : List Lexeme} (goes : d.length = none)
      (takes : Takes v d ls next) (below : Reads v next more r) : Reads v d (ls ++ more) r

/-- What is read goes on from where it ends. -/
theorem Reads.append {m : Declaration} (first : Reads v d ls m) (second : Reads v m more r) :
    Reads v d (ls ++ more) r := by
  induction first with
  | nil => exact second
  | cons goes takes _ ih =>
    rw [List.append_assoc]
    exact .cons goes takes (ih second)

@[simp] theorem bare_addName (name : Text) (column : Nat) :
    bare { d with names := d.names ++ [(name, column)] } = d.bare.addName name := by
  simp [bare, addName]

private theorem goesOn_iff : ¬d.length.isSome = true ↔ d.bare.length = none := by
  simp [bare]

private theorem refers_iff {l : Lexeme} :
    (v.structures.contains l.text && d.inner.isNone && d.names.isEmpty) = true ↔
      Refers v d.bare l := by
  simp [Refers, bare, and_assoc]

/-- Tokens that are read are taken one after the other. -/
theorem reads_of_read (ok : read v d tokens = .ok r) :
    Reads v d.bare (tokens.map Token.lexeme) r.bare := by
  fun_induction read v d tokens with
  | case1 d =>
    cases ok
    exact .nil _
  | case3 d t goes keyword tag column others ih =>
    rw [List.map_cons, List.map_cons, keyword]
    exact .cons (goesOn_iff.mp goes) (.tagged tag) (ih ok)
  | case5 d t rest goes other refers ih =>
    exact .cons (goesOn_iff.mp goes) (.declared other (refers_iff.mp refers)) (ih ok)
  | case6 d t rest goes other plain known ih =>
    rw [refers_iff] at plain
    exact .cons (goesOn_iff.mp goes) (.type other plain (List.contains_iff_mem.mp known)) (ih ok)
  | case7 d t rest goes other plain unknown name same ih =>
    rw [refers_iff, same] at plain
    rw [List.contains_iff_mem, same] at unknown
    rw [bare_addName] at ih
    rw [List.map_cons, same]
    rw [same, Lexeme.word.injEq] at other
    exact .cons (goesOn_iff.mp goes) (.name other plain unknown) (ih ok)
  | case8 d t rest goes other plain unknown same ih =>
    rw [refers_iff, same] at plain
    rw [List.contains_iff_mem, same] at unknown
    rw [List.map_cons, same]
    exact .cons (goesOn_iff.mp goes) (.star plain unknown) (ih ok)
  | case11 d t rest goes other plain unknown inside same named full ih =>
    rw [refers_iff, same] at plain
    rw [List.contains_iff_mem, same] at unknown
    rw [List.map_cons, same]
    have named : d.bare.names ≠ [] := by simpa [bare] using named
    exact .cons (goesOn_iff.mp goes) (.array plain unknown named (by simpa using full)) (ih ok)
  | _ => cases ok

/-- What is taken one after the other is read of any tokens with these lexemes. -/
theorem exists_read_of_reads {start : Declaration} (reads : Reads v start ls r)
    (same : tokens.map Token.lexeme = ls) (begins : d.bare = start) :
    ∃ read, Declaration.read v d tokens = .ok read ∧ read.bare = r := by
  induction reads generalizing d tokens with
  | nil =>
    cases List.map_eq_nil_iff.mp same
    exact ⟨d, by rw [Declaration.read], begins⟩
  | cons goes takes below ih =>
    subst begins
    -- Each lexeme fails the tests in front of the one that it is taken by.
    cases takes with
    | tagged tag =>
      obtain ⟨t, _, rfl, keyword, two⟩ := List.map_eq_cons_iff.mp same
      obtain ⟨⟨_, column⟩, others, rfl, rfl, later⟩ := List.map_eq_cons_iff.mp two
      rw [Declaration.read, if_neg (goesOn_iff.mpr goes), if_pos keyword]
      exact ih later rfl
    | declared other refers =>
      obtain ⟨t, others, rfl, rfl, later⟩ := List.map_eq_cons_iff.mp same
      rw [Declaration.read.eq_def]
      dsimp only
      rw [if_neg (goesOn_iff.mpr goes), if_neg other, if_pos (refers_iff.mpr refers)]
      exact ih later rfl
    | type other plain known =>
      obtain ⟨t, others, rfl, rfl, later⟩ := List.map_eq_cons_iff.mp same
      rw [Declaration.read.eq_def]
      dsimp only
      rw [if_neg (goesOn_iff.mpr goes), if_neg other, if_neg (refers_iff.not.mpr plain),
        if_pos (List.contains_iff_mem.mpr known)]
      exact ih later rfl
    | @name name other plain unknown =>
      obtain ⟨⟨_, column⟩, others, rfl, rfl, later⟩ := List.map_eq_cons_iff.mp same
      have other : Lexeme.word name ≠ .word structKeyword :=
        fun same => other (Lexeme.word.inj same)
      have unknown : ¬v.types.contains (Lexeme.word name).text = true :=
        List.contains_iff_mem.not.mpr unknown
      rw [Declaration.read.eq_def]
      dsimp only
      rw [if_neg (goesOn_iff.mpr goes), if_neg other, if_neg (refers_iff.not.mpr plain),
        if_neg unknown]
      exact ih later (bare_addName name column)
    | star plain unknown =>
      obtain ⟨⟨_, column⟩, others, rfl, rfl, later⟩ := List.map_eq_cons_iff.mp same
      have unknown : ¬v.types.contains Lexeme.star.text = true :=
        List.contains_iff_mem.not.mpr unknown
      rw [Declaration.read.eq_def]
      dsimp only
      rw [if_neg (goesOn_iff.mpr goes), if_neg Lexeme.noConfusion,
        if_neg (refers_iff.not.mpr plain), if_neg unknown]
      exact ih later rfl
    | array plain unknown named full =>
      obtain ⟨⟨_, column⟩, others, rfl, rfl, later⟩ := List.map_eq_cons_iff.mp same
      have named : ¬d.names.isEmpty = true := by simpa [bare] using named
      have full : ¬(Text.trim _).isEmpty = true := fun empty => full (List.isEmpty_iff.mp empty)
      rw [Declaration.read.eq_def]
      dsimp only
      rw [if_neg (goesOn_iff.mpr goes), if_neg Lexeme.noConfusion,
        if_neg (refers_iff.not.mpr plain), if_neg (List.contains_iff_mem.not.mpr unknown),
        if_neg named, if_neg full]
      exact ih later rfl

/-- A declaration that was read to its end gives a field on some line. -/
structure Gives (d : Declaration) (line : Nat) (f : Field) : Prop where
  /-- There is one name, and it is that of the field. -/
  name : d.names.map Prod.fst = [f.name]
  /-- There is a type besides the qualifier. -/
  typed : d.parts.all (· == constKeyword) = false
  /-- It is no array of structures. -/
  single : (!d.pointer && d.inner.isSome && d.length.isSome) = false
  /-- The field has what was read; a pointer to a structure is a leaf. -/
  field : f = { Field.declared f.name (typeText d.parts) line with
    inner := if d.pointer then none else d.inner
    length := d.length }

/-- Whether a declaration gives a field, and which one, does not depend on columns. -/
theorem field_eq_ok_iff {line column : Nat} {f : Field} :
    d.field line column = .ok f ↔ d.Gives line f := by
  obtain ⟨parts, names, inner, length, pointer⟩ := d
  unfold Declaration.field
  rcases names with _ | ⟨⟨name, place⟩, _ | ⟨second, others⟩⟩
  · exact iff_of_false nofun fun gives => nomatch gives.name
  · dsimp only
    split
    next bare =>
      exact iff_of_false nofun fun gives => Bool.false_ne_true (gives.typed.symm.trans bare)
    next typed =>
      split
      next array =>
        exact iff_of_false nofun fun gives => Bool.false_ne_true (gives.single.symm.trans array)
      next single =>
        rw [Bool.not_eq_true] at typed single
        constructor
        · intro ok
          cases ok
          exact ⟨rfl, typed, single, rfl⟩
        · rintro ⟨named, -, -, field⟩
          cases List.singleton_inj.mp named
          exact congrArg Except.ok field.symm
  · exact iff_of_false nofun fun gives => nomatch gives.name

@[simp] theorem bare_gives_iff {line : Nat} {f : Field} : d.bare.Gives line f ↔ d.Gives line f := by
  have names : d.bare.names.map Prod.fst = d.names.map Prod.fst := by simp [bare]
  constructor
  · rintro ⟨name, typed, single, field⟩
    exact ⟨names.symm.trans name, typed, single, field⟩
  · rintro ⟨name, typed, single, field⟩
    exact ⟨names.trans name, typed, single, field⟩

end Declaration

/-- What a statement declares depends on its lexemes and its line. -/
theorem Statement.field_eq_ok_iff {v : Vocabulary} {s : Statement} {f : Field} :
    s.field v = .ok f ↔
      ∃ ls d, Lexed s.text ls ∧ Declaration.Reads v {} ls d ∧ d.Gives s.line f := by
  constructor
  · intro ok
    obtain ⟨tokens, d, cut, read, field⟩ := exists_declaration_of_field ok
    rw [Declaration.field_eq_ok_iff, ← Declaration.bare_gives_iff] at field
    exact ⟨_, d.bare, lexed_iff.mpr ⟨tokens, cut, rfl⟩, Declaration.reads_of_read read, field⟩
  · rintro ⟨ls, d, lexed, reads, field⟩
    obtain ⟨tokens, cut, same⟩ := lexed_iff.mp lexed
    obtain ⟨d, read, rfl⟩ := Declaration.exists_read_of_reads (d := {}) reads same rfl
    rw [Declaration.bare_gives_iff, ← Declaration.field_eq_ok_iff] at field
    have whole : Declaration.read v {} tokens >>= Declaration.field s.line s.column = .ok f :=
      bind_eq_ok_iff.mpr ⟨d, read, field⟩
    refine bind_eq_ok_iff.mpr ⟨tokens, cut, ?_⟩
    rw [whole]
    rfl

end FieldTables
