import FieldTables.Proofs.Text.Position
import FieldTables.Source.Comment

/-!
# Comments, character by character

A line is read one character at a time, with what was read before it as the state. A character is
part of a comment when it stands in one, closes one, or opens one together with the next character.
Stripping blanks out exactly these characters and cuts off a line comment, and it carries over to
the next line whether a block comment is open.
-/

namespace FieldTables.Comment

open Text

/-- Where reading stands between two characters. -/
inductive State where
  /-- In no comment. -/
  | code
  /-- In no comment, behind a slash that may open one. -/
  | slash
  /-- In a block comment. -/
  | block
  /-- In a block comment, behind a star that may close it. -/
  | star
  /-- In a line comment. -/
  | line
  deriving DecidableEq

namespace State

/-- One character further on. -/
def next : State → Char → State
  | code, c => if c = '/' then slash else code
  | slash, c => if c = '*' then block else if c = '/' then line else code
  | block, c => if c = '*' then star else block
  | star, c => if c = '/' then code else if c = '*' then star else block
  | line, _ => line

/-- A text further on. -/
def after (s : State) (t : Text) : State := t.foldl next s

/-- The start of a line, inside a block comment or not. -/
def start (inside : Bool) : State := if inside then block else code

/-- Whether a block comment is open. -/
def inBlock : State → Bool
  | block | star => true
  | code | slash | line => false

/-- Whether a comment is open. -/
def inComment : State → Bool
  | block | star | line => true
  | code | slash => false

end State

/-- Whether a character is part of a comment, given where reading stands before it and what follows:
it stands in the comment, closes it, or opens one with the next character. -/
def covered (s : State) (c : Char) (rest : Text) : Bool :=
  (s.next c).inComment || (s == .star && c == '/') ||
    (s.next c == .slash && rest.head?.any fun d => (State.slash.next d).inComment)

/-- A character outside comments starts at a byte of a line. -/
def Code (s : State) (t : Text) (p : Nat) (c : Char) : Prop :=
  ∃ before after, t = before ++ c :: after ∧ before.width = p ∧
    covered (s.after before) c after = false

theorem Code.has {s : State} {t : Text} {p : Nat} {c : Char} (code : Code s t p c) : t.Has p c :=
  let ⟨before, after, split, start, _⟩ := code
  ⟨before, after, split, start⟩

/-- A slash outside comments is followed by no slash or star. -/
theorem Code.not_opens {s : State} {t : Text} {p : Nat} {d : Char} (code : Code s t p '/')
    (next : t.Has (p + 1) d) : d ≠ '/' ∧ d ≠ '*' := by
  obtain ⟨before, after, rfl, rfl, free⟩ := code
  have behind : after.head? = some d := head?_of_has next
  have opens : s.after before = .code := by
    cases state : s.after before with
    | code => rfl
    | _ => rw [state] at free; cases free
  rw [opens, covered, behind, Bool.or_eq_false_iff] at free
  have stays : (State.slash.next d).inComment = false := free.2
  constructor <;> rintro rfl <;> cases stays

/-- Behind a character outside comments that is part of no delimiter, one that opens none is outside
comments too. -/
theorem Code.further {s : State} {t : Text} {p : Nat} {c d : Char} (code : Code s t p c)
    (other : c ≠ '/' ∧ c ≠ '*') (next : t.Has (p + c.utf8Size) d) (plain : d ≠ '/') :
    Code s t (p + c.utf8Size) d := by
  obtain ⟨before, after, rfl, rfl, free⟩ := code
  obtain ⟨rest, rfl⟩ := List.head?_eq_some_iff.mp (head?_of_has next)
  have reached : s.after (before ++ [c]) = .code := by
    rw [State.after, List.foldl_append]
    change (s.after before).next c = .code
    cases state : s.after before with
    | code | slash => simp [State.next, other]
    | block | star | line =>
      rw [state] at free
      simp [covered, State.next, State.inComment, other] at free
  have stays : State.code.next d = .code := if_neg plain
  refine ⟨before ++ [c], rest, by simp, by simp, ?_⟩
  rw [reached, covered, stays]
  rfl

/-- A line with spaces in the place of its comments, byte for byte. -/
def shown (s : State) : Text → Text
  | [] => []
  | c :: rest => (if covered s c rest then spaces c.utf8Size else [c]) ++ shown (s.next c) rest

variable {s : State} {t : Text} {p : Nat} {c : Char}

theorem not_code_nil : ¬Code s [] p c := by
  rintro ⟨before, after, split, -⟩
  cases before <;> cases split

theorem code_cons {d : Char} {rest : Text} : Code s (d :: rest) p c ↔
    (p = 0 ∧ c = d ∧ covered s d rest = false) ∨
      ∃ q, p = d.utf8Size + q ∧ Code (s.next d) rest q c := by
  constructor
  · rintro ⟨before, after, split, rfl, free⟩
    cases before with
    | nil =>
      cases split
      exact .inl ⟨rfl, rfl, free⟩
    | cons e before =>
      cases split
      exact .inr ⟨width before, rfl, before, after, rfl, rfl, free⟩
  · rintro (⟨rfl, rfl, free⟩ | ⟨_, rfl, before, after, rfl, rfl, free⟩)
    · exact ⟨[], rest, rfl, rfl, free⟩
    · exact ⟨d :: before, after, rfl, rfl, free⟩

/-- What is shown of a line are its characters outside comments. -/
theorem ink_shown_iff : (shown s t).Ink p c ↔ Code s t p c ∧ isBlank c = false := by
  induction t generalizing s p with
  | nil => exact iff_of_false (fun ink => not_has_nil ink.1) fun code => not_code_nil code.1
  | cons d rest ih =>
    have here : Ink [d] p c ↔ (p = 0 ∧ c = d) ∧ isBlank c = false := by
      rw [ink_cons, or_iff_left (fun ⟨_, _, ink⟩ => not_has_nil ink.1)]
      exact ⟨fun ⟨start, same, visible⟩ => ⟨⟨start, same⟩, same ▸ visible⟩,
        fun ⟨⟨start, same⟩, visible⟩ => ⟨start, same, same ▸ visible⟩⟩
    rw [shown, ink_append, code_cons, or_and_right]
    simp only [ih, ← and_assoc, exists_and_right]
    cases covered s d rest with
    | true => simp [not_ink_spaces]
    | false => simp [here]

/-- A star that no slash follows closes nothing. -/
private theorem after_star (other : t.head? ≠ some '/') :
    shown .star t = shown .block t ∧
      (State.star.after t).inBlock = (State.block.after t).inBlock := by
  cases t with
  | nil => exact ⟨rfl, rfl⟩
  | cons c rest =>
    have other : c ≠ '/' := fun same => other (same ▸ rfl)
    have next : State.star.next c = State.block.next c := by simp [State.next, other]
    have same : covered .star c rest = covered .block c rest := by
      rw [covered, covered, next, beq_eq_false_iff_ne.mpr other, Bool.and_false, Bool.and_false]
    exact ⟨by rw [shown, shown, next, same], by rw [State.after, List.foldl_cons, next]; rfl⟩

/-- A slash that neither a slash nor a star follows opens nothing. -/
private theorem after_slash (slash : t.head? ≠ some '/') (star : t.head? ≠ some '*') :
    shown .slash t = shown .code t ∧
      (State.slash.after t).inBlock = (State.code.after t).inBlock := by
  cases t with
  | nil => exact ⟨rfl, rfl⟩
  | cons c rest =>
    have slash : c ≠ '/' := fun same => slash (same ▸ rfl)
    have star : c ≠ '*' := fun same => star (same ▸ rfl)
    have next : State.slash.next c = State.code.next c := by simp [State.next, slash, star]
    have same : covered .slash c rest = covered .code c rest := by
      rw [covered, covered, next]
      rfl
    exact ⟨by rw [shown, shown, next, same], by rw [State.after, List.foldl_cons, next]; rfl⟩

/-- A line comment goes on to the end of the line. -/
private theorem after_line (t : Text) :
    shown .line t = spaces t.width ∧ State.line.after t = .line := by
  induction t with
  | nil => exact ⟨rfl, rfl⟩
  | cons c rest ih =>
    have inside : covered .line c rest = true := rfl
    have next : State.line.next c = .line := rfl
    refine ⟨?_, ih.2⟩
    rw [shown, inside, next, ih.1, if_pos rfl, spaces, spaces, List.replicate_append_replicate,
      width_cons]
    rfl

/-- A character that is read in a block comment, and does not close it, is blanked out. -/
theorem shown_block_cons {rest : Text} (open_ : c = '*' → rest.head? ≠ some '/') :
    shown .block (c :: rest) = spaces c.utf8Size ++ shown .block rest ∧
      (State.block.after (c :: rest)).inBlock = (State.block.after rest).inBlock := by
  have inside : covered .block c rest = true := by
    by_cases star : c = '*' <;> simp [covered, State.next, State.inComment, star]
  rw [shown, inside, if_pos rfl, State.after, List.foldl_cons]
  by_cases star : c = '*'
  · have next : State.block.next c = .star := if_pos star
    obtain ⟨shows, carries⟩ := after_star (open_ star)
    rw [next, shows]
    exact ⟨rfl, carries⟩
  · have next : State.block.next c = .block := if_neg star
    rw [next]
    exact ⟨rfl, rfl⟩

/-- A character that opens no comment is shown. -/
theorem shown_code_cons {rest : Text}
    (closed : c = '/' → rest.head? ≠ some '/' ∧ rest.head? ≠ some '*') :
    shown .code (c :: rest) = c :: shown .code rest ∧
      (State.code.after (c :: rest)).inBlock = (State.code.after rest).inBlock := by
  rw [shown, State.after, List.foldl_cons]
  by_cases slash : c = '/'
  · have next : State.code.next c = .slash := if_pos slash
    obtain ⟨notSlash, notStar⟩ := closed slash
    -- Whether a slash is covered is decided by the character behind it, and that one opens nothing.
    have outside : covered .code c rest = false := by
      rw [covered, next]
      cases rest with
      | nil => rfl
      | cons d others =>
        simp only [List.head?_cons, ne_eq, Option.some.injEq] at notSlash notStar
        have stays : State.slash.next d = .code := by simp [State.next, notSlash, notStar]
        rw [List.head?_cons, Option.any_some, stays]
        rfl
    obtain ⟨shows, carries⟩ := after_slash notSlash notStar
    rw [outside, next, shows]
    exact ⟨rfl, carries⟩
  · have next : State.code.next c = .code := if_neg slash
    have outside : covered .code c rest = false := by
      rw [covered, next]
      rfl
    rw [outside, next]
    exact ⟨rfl, rfl⟩

/-- What stripping keeps of a line is what is shown of it, but for the spaces at its end, and a
block comment goes on after the line exactly when one is open there. -/
theorem strip_eq (inside : Bool) (t : Text) :
    (∃ n, shown (.start inside) t = (strip inside t).1 ++ spaces n) ∧
      (strip inside t).2 = ((State.start inside).after t).inBlock := by
  fun_induction strip inside t with
  | case1 inside => cases inside <;> exact ⟨⟨0, rfl⟩, rfl⟩
  | case2 rest kept stillInside h ih =>
    rw [h] at ih
    obtain ⟨⟨n, shows⟩, carries⟩ := ih
    exact ⟨⟨n, congrArg (' ' :: ' ' :: ·) shows⟩, carries⟩
  | case3 c rest closes kept stillInside h ih =>
    rw [h] at ih
    obtain ⟨⟨n, shows⟩, carries⟩ := ih
    obtain ⟨here, carried⟩ := shown_block_cons (c := c) fun star slash =>
      let ⟨others, same⟩ := List.head?_eq_some_iff.mp slash
      closes others star same
    refine ⟨⟨n, ?_⟩, carries.trans carried.symm⟩
    exact here.trans (by rw [List.append_assoc, ← shows]; rfl)
  | case4 rest kept stillInside h ih =>
    rw [h] at ih
    obtain ⟨⟨n, shows⟩, carries⟩ := ih
    exact ⟨⟨n, congrArg (' ' :: ' ' :: ·) shows⟩, carries⟩
  | case5 rest =>
    obtain ⟨shows, carries⟩ := after_line rest
    refine ⟨⟨width rest + 2, ?_⟩, ?_⟩
    · exact congrArg (' ' :: ' ' :: ·) shows
    · exact (congrArg State.inBlock carries).symm
  | case6 c rest opens cuts kept stillInside h ih =>
    rw [h] at ih
    obtain ⟨⟨n, shows⟩, carries⟩ := ih
    have closed : c = '/' → rest.head? ≠ some '/' ∧ rest.head? ≠ some '*' := fun slash =>
      ⟨fun next => let ⟨others, same⟩ := List.head?_eq_some_iff.mp next; cuts others slash same,
        fun next => let ⟨others, same⟩ := List.head?_eq_some_iff.mp next; opens others slash same⟩
    obtain ⟨here, carried⟩ := shown_code_cons closed
    refine ⟨⟨n, ?_⟩, carries.trans carried.symm⟩
    exact here.trans (congrArg (c :: ·) shows)

/-- Stripping leaves characters of the line and spaces. -/
theorem mem_strip (inside : Bool) (t : Text) :
    ∀ c ∈ (strip inside t).1, c = ' ' ∨ c ∈ t := by
  fun_induction strip inside t <;> simp_all [spaces] <;> grind

end FieldTables.Comment
