import FieldTables.Proofs.Flattening.Calls
import FieldTables.Proofs.Source.Lexing
import FieldTables.Proofs.Source.Slicing
import FieldTables.Proofs.Source.Words

/-!
# Slices of a compilation

Every step of a compilation with checked slices comes out, and as the step without checks does. The
steps that take slices are compared one by one; what is put together from them is compared because
outcomes that come with all their slices go on as outcomes do.
-/

namespace FieldTables.Checked

open Outcome Text

variable {ε α β : Type} {v : Vocabulary} {s : Statement} {tokens : List Token}

/-- Outcomes that come with all their slices go on as outcomes do. -/
theorem sure_bind (x : Except ε α) (f : α → Except ε β) :
    (sure x >>= fun a => sure (f a)) = sure (x >>= f) := by
  cases x <;> rfl

/-- What comes with all its slices is gone on from. -/
theorem sure_ok_bind (a : α) (next : α → ExceptT ε Option β) : sure (.ok a) >>= next = next a :=
  rfl

/-- Steps that come with all their slices run as the steps do. -/
theorem foldlM_sure (f : β → α → Except ε β) (items : List α) (start : β) :
    items.foldlM (fun b a => sure (f b a)) start = sure (items.foldlM f start) := by
  induction items generalizing start with
  | nil => rfl
  | cons a rest ih =>
    rw [List.foldlM_cons, List.foldlM_cons, ← sure_bind]
    exact congrArg (sure (f start a) >>= ·) (funext ih)

/-- Each token of a statement can stand alone. -/
theorem ends_of_tokens (cut : s.tokens = .ok tokens) : ∀ t ∈ tokens, t.lexeme.Ends [] := by
  have lexed := Statement.lexed_iff.mpr ⟨tokens, cut, rfl⟩
  exact List.forall_mem_map.mp fun l mem => (lexed.forall_mem l mem).1

/-- The field of a declaration comes with all slices. -/
theorem field_eq (v : Vocabulary) (s : Statement) : field v s = sure (s.field v) := by
  rw [field, words_eq, Statement.field]
  cases cut : s.tokens with
  | error e => rfl
  | ok tokens =>
    have declared := read_eq (v := v) (d := {}) (ends_of_tokens cut)
    rw [Except.map, sure_ok_bind, declared, ok_bind]
    refine (bind_some (Declaration.read v {} tokens) _).trans ?_
    cases Declaration.read v {} tokens >>= Declaration.field s.line s.column <;> rfl

/-- The tag of an opening comes with all slices. -/
theorem openedTag_eq (s : Statement) : openedTag s = sure s.openedTag := by
  rw [openedTag, words_eq, Statement.openedTag]
  cases cut : s.tokens with
  | error e => rfl
  | ok tokens =>
    have alone := ends_of_tokens cut
    rw [Except.map, sure_ok_bind, ok_bind]
    by_cases opens : ∃ tag, tokens.map Token.lexeme = [.word structKeyword, .word tag, .brace]
    · obtain ⟨tag, lexemes⟩ := opens
      obtain ⟨⟨_, _⟩, ⟨_, column⟩, ⟨_, _⟩, rfl, rfl, rfl, rfl⟩ := exists_of_map_eq_three lexemes
      have letter := (startsName_text_iff (alone ⟨.word tag, column⟩ (by simp))).mpr ⟨tag, rfl⟩
      exact if_pos ⟨rfl, letter, rfl⟩
    · -- Neither the words nor the lexemes are those of an opening.
      refine Eq.trans (b := throw (.syntactic s.line s.column (.badOpener s.text))) ?_ ?_
      · split
        next keyword tag brace words =>
          refine if_neg fun told => opens ?_
          obtain ⟨first, second, third, rfl, rfl, rfl, rfl⟩ := exists_of_map_eq_three words
          obtain ⟨written, letter, closing⟩ := told
          have keyword := text_eq_structKeyword_iff.mp written
          obtain ⟨tag, named⟩ := (startsName_text_iff (alone second (by simp))).mp letter
          have brace := (text_eq_brace_iff (alone third (by simp))).mp closing
          exact ⟨tag, by simp only [List.map_cons, List.map_nil, keyword, named, brace]⟩
        next => rfl
      · refine congrArg sure (Eq.symm ?_)
        split
        next keyword tag lexemes =>
          exact if_neg fun same => opens ⟨tag, by rw [lexemes, same]⟩
        next => rfl

/-- The blocks of statements come with all slices. -/
theorem blocks_eq (statements : List Statement) :
    blocks statements = sure (Block.ofNonempty statements) := by
  fun_induction Block.ofNonempty statements with
  | case1 => rw [blocks]; rfl
  | case2 s rest opening ih =>
    rw [blocks, if_pos opening, openedTag_eq, ih]
    cases s.openedTag with
    | error e => rfl
    | ok tag => cases Block.ofNonempty (rest.dropWhile fun t => !t.isOpening) <;> rfl
  | case3 s rest closed =>
    rw [blocks, if_neg closed]
    rfl

/-- A block adds its structure with all slices. -/
theorem addBlock_eq (v : Vocabulary) (h : Header) (b : Block) :
    addBlock v h b = sure (h.addBlock v b) := by
  have step : (fun (h : Header) s => field v s >>= fun f => sure (h.addField f)) =
      fun h s => sure (s.field v >>= h.addField) :=
    funext fun h => funext fun s => by rw [field_eq, sure_bind]
  rw [addBlock, Header.addBlock, ← sure_bind]
  exact congrArg (sure (h.addStructure b.name b.line) >>= ·)
    (funext fun opened => by rw [step, foldlM_sure])

/-- The header of statements comes with all slices. -/
theorem header_eq (extraTypes : List Text) (statements : List Statement) :
    header extraTypes statements = sure (Header.ofStatements extraTypes statements) := by
  rw [header, blocks_eq, Header.ofStatements, ← sure_bind]
  have step : ∀ v : Vocabulary, addBlock v = fun h b => sure (h.addBlock v b) :=
    fun v => funext fun h => funext (addBlock_eq v h)
  refine congrArg (sure _ >>= ·) (funext fun blocks => ?_)
  rw [step, foldlM_sure]

/-- The calls of the flattening stay on the stack, and the chain of a cycle is cut inside. -/
theorem flatten_eq (h : Header) : flatten h = sure h.flatten := by
  rw [flatten, (h.flattenWithin_eq le_rfl).1]
  cases h.flatten <;> rfl

/-- Whatever the text and the settings are, every slice that a compilation takes is there: its
bounds are in order and cut no character, which is what `Text.isSome_slice?_iff` asks. No difference
goes below zero, and no list is cut behind its end. What comes out is the flat header or the error
of the compilation without checks. -/
theorem compile_takes_slices (settings : Settings) (t : Text) :
    compile settings t = sure (FieldTables.compile settings t) := by
  rw [compile, statements_eq, bind_some, header_eq, FieldTables.compile, ← sure_bind]
  refine congrArg (sure _ >>= ·) (funext fun declared => ?_)
  rw [flatten_eq, ← sure_bind]
  refine congrArg (sure _ >>= ·) (funext fun flat => ?_)
  exact sure_bind (flat.checkSymbols settings) fun _ => .ok flat

end FieldTables.Checked
