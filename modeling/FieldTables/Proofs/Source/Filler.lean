import FieldTables.Proofs.Source.Comment
import FieldTables.Proofs.Text.Marker
import FieldTables.Proofs.Text.Name
import FieldTables.Text.Character

/-!
# Fillers

Blanks and one-line block comments fill a line without saying anything: what is shown of them is
blank, and no comment is open behind them. Stripping a line that is cut outside comments strips the
first half and then the second, so a filler between them puts blanks between what is left of the
halves.
-/

namespace FieldTables

open Text

/-- Text between lexemes: blanks of a line, or a complete block comment on a line. -/
inductive Filler : Text → Prop
  | blanks {gap : Text} (blank : ∀ c ∈ gap, isBlank c = true) (oneLine : gap.OneLine)
      (carriage : '\r' ∉ gap) : Filler gap
  | comment {inside : Text} (oneLine : inside.OneLine) (unmarked : inside.Unmarked)
      (closed : ¬['*', '/'] <:+: inside) : Filler ("/*".toList ++ (inside ++ "*/".toList))

namespace Filler

variable {s t gap : Text}

/-- A filler brings no marker with it. -/
theorem unmarked (filler : Filler gap) (unmarked : (s ++ t).Unmarked) :
    (s ++ (gap ++ t)).Unmarked := by
  have front := unmarked.of_isInfix (List.prefix_append s t).isInfix
  have back := unmarked.of_isInfix (List.suffix_append s t).isInfix
  cases filler with
  | blanks blank =>
    have plain : ∀ c ∈ gap, c ∉ byteOrderMark :: splitMark := fun c mem marker => by
      have inked : (byteOrderMark :: splitMark).all (fun c => !isBlank c) = true := by decide
      have visible := List.all_eq_true.mp inked c marker
      rw [blank c mem] at visible
      cases visible
    cases gap with
    | nil => exact unmarked
    | cons c gap =>
      obtain ⟨here, later⟩ := List.forall_mem_cons.mp plain
      exact front.join here (back.append_left later)
  | comment oneLine inside closed =>
    have ending := unmarked_nil.join (c := '/') (by decide) back
    have behind := inside.join (c := '*') (by decide) ending
    have opening := unmarked_nil.join (c := '*') (by decide) behind
    have whole := front.join (c := '/') (by decide) opening
    simpa using whole

end Filler

namespace Comment

variable {inside : Bool} {s : State} {a b gap t : Text} {c : Char}

/-- A position is in no comment and within no delimiter of one. -/
structure State.Free (s : State) (behind : Text) : Prop where
  outside : s.inComment = false
  delimiter : s = .slash → behind.head?.all (fun c => !(State.slash.next c).inComment) = true

instance : Decidable (s.Free b) :=
  decidable_of_iff (s.inComment = false ∧
      (s = .slash → b.head?.all (fun c => !(State.slash.next c).inComment) = true))
    ⟨fun ⟨outside, delimiter⟩ => ⟨outside, delimiter⟩,
      fun ⟨outside, delimiter⟩ => ⟨outside, delimiter⟩⟩

/-- In code every position that a slash does not stand in front of is free. -/
theorem State.free_code (behind : Text) : State.code.Free behind := ⟨rfl, nofun⟩

theorem State.after_line (t : Text) : State.line.after t = .line := by
  induction t with
  | nil => rfl
  | cons c rest ih => exact ih

/-- A free position behind a character of a block comment that does not close it is free without the
character. -/
private theorem free_of_block_cons (open_ : c = '*' → a.head? ≠ some '/')
    (free : (State.block.after (c :: a)).Free b) : (State.block.after a).Free b := by
  by_cases star : c = '*'
  · subst star
    cases a with
    | nil => cases free.outside
    | cons d a =>
      have other : d ≠ '/' := fun same => open_ rfl (congrArg some same)
      have next : State.star.next d = State.block.next d := by simp [State.next, other]
      have free : ((State.star.next d).after a).Free b := free
      rwa [next] at free
  · have next : State.block.next c = .block := if_neg star
    have free : ((State.block.next c).after a).Free b := free
    rwa [next] at free

/-- A free position behind a character that opens no comment is free without the character. -/
private theorem free_of_code_cons
    (closed : c = '/' → a.head? ≠ some '/' ∧ a.head? ≠ some '*')
    (free : (State.code.after (c :: a)).Free b) : (State.code.after a).Free b := by
  have free : ((State.code.next c).after a).Free b := free
  by_cases slash : c = '/'
  · subst slash
    cases a with
    | nil => exact State.free_code b
    | cons d a =>
      obtain ⟨slash, star⟩ := closed rfl
      have slash : d ≠ '/' := fun same => slash (congrArg some same)
      have star : d ≠ '*' := fun same => star (congrArg some same)
      have next : State.slash.next d = State.code.next d := by simp [State.next, slash, star]
      have free : ((State.slash.next d).after a).Free b := free
      rwa [next] at free
  · have next : State.code.next c = .code := if_neg slash
    rwa [next] at free

/-- A line that is cut at a free position is stripped half by half. -/
theorem strip_append (free : ((State.start inside).after a).Free b) :
    strip inside (a ++ b) = (shown (.start inside) a ++ (strip false b).1, (strip false b).2) := by
  fun_induction strip inside a with
  | case1 inside =>
    cases inside with
    | true => cases free.outside
    | false => rfl
  | case2 rest kept stillInside h ih =>
    have below := ih free
    rw [List.cons_append, List.cons_append, strip, below]
    rfl
  | case3 c rest closes kept stillInside h ih =>
    have open_ : c = '*' → rest.head? ≠ some '/' := by
      rintro star slash
      obtain ⟨others, same⟩ := List.head?_eq_some_iff.mp slash
      exact closes others star same
    have below := ih (free_of_block_cons open_ free)
    rw [List.cons_append, strip, below]
    · have here : shown (.start true) (c :: rest) = spaces c.utf8Size ++ shown .block rest :=
        (shown_block_cons open_).1
      rw [here, List.append_assoc]
      rfl
    · rintro others rfl behind
      cases rest with
      | nil => cases free.outside
      | cons d rest => exact open_ rfl (congrArg some (List.cons.inj behind).1)
  | case4 rest kept stillInside h ih =>
    have below := ih free
    rw [List.cons_append, List.cons_append, strip, below]
    rfl
  | case5 rest =>
    have state : (State.start false).after ('/' :: '/' :: rest) = .line := State.after_line rest
    rw [state] at free
    cases free.outside
  | case6 c rest opens cuts kept stillInside h ih =>
    have closed : c = '/' → rest.head? ≠ some '/' ∧ rest.head? ≠ some '*' := fun slash =>
      ⟨fun next => let ⟨others, same⟩ := List.head?_eq_some_iff.mp next; cuts others slash same,
        fun next => let ⟨others, same⟩ := List.head?_eq_some_iff.mp next; opens others slash same⟩
    -- Where the position is right behind a slash, what follows opens no comment with it.
    have apart : c = '/' →
        (rest ++ b).head?.all (fun d => !(State.slash.next d).inComment) = true := by
      rintro rfl
      cases rest with
      | nil => exact free.delimiter rfl
      | cons e rest =>
        obtain ⟨slash, star⟩ := closed rfl
        have slash : e ≠ '/' := fun same => slash (congrArg some same)
        have star : e ≠ '*' := fun same => star (congrArg some same)
        simp [State.next, slash, star, State.inComment]
    have below := ih (free_of_code_cons closed free)
    rw [List.cons_append, strip, below]
    · have here : shown (.start false) (c :: rest) = c :: shown .code rest :=
        (shown_code_cons closed).1
      rw [here]
      rfl
    all_goals
      rintro others slash behind
      have other := apart slash
      rw [behind] at other
      cases other

/-- A slash that may open a comment is the last that is shown. -/
theorem exists_shown_eq_of_slash (slash : s.after t = .slash) (nonempty : t ≠ []) :
    ∃ front, shown s t = front ++ ['/'] := by
  induction t generalizing s with
  | nil => exact absurd rfl nonempty
  | cons c rest ih =>
    rw [shown]
    cases rest with
    | nil =>
      have slash : s.next c = .slash := slash
      have state : s = .code ∧ c = '/' := by
        cases s <;> simp only [State.next] at slash <;> grind
      obtain ⟨rfl, rfl⟩ := state
      exact ⟨[], rfl⟩
    | cons d rest =>
      obtain ⟨front, last⟩ := ih slash (List.cons_ne_nil d rest)
      rw [last, ← List.append_assoc]
      exact ⟨_, rfl⟩

/-- What is written without a slash in code is shown as it is. -/
private theorem after_code (free : '/' ∉ t) : State.code.after t = .code ∧ shown .code t = t := by
  induction t with
  | nil => exact ⟨rfl, rfl⟩
  | cons c rest ih =>
    rw [List.mem_cons, not_or] at free
    have next : State.code.next c = .code := if_neg (Ne.symm free.1)
    have step : covered .code c rest = false := by
      rw [covered, next]
      rfl
    obtain ⟨state, all⟩ := ih free.2
    rw [State.after, List.foldl_cons, next, shown, step, next, all]
    exact ⟨state, rfl⟩

/-- A block comment goes on up to its end, and all of it is blanked out. -/
private theorem after_block (within : s = .block ∨ s = .star) (closed : ¬['*', '/'] <:+: t)
    (open_ : s = .star → t.head? ≠ some '/') : s.after (t ++ "*/".toList) = .code ∧
      ∀ c ∈ shown s (t ++ "*/".toList), isBlank c = true := by
  induction t generalizing s with
  | nil =>
    have blank : ∀ c ∈ [' ', ' '], isBlank c = true := List.all_eq_true.mp (by decide)
    rcases within with rfl | rfl <;> exact ⟨rfl, blank⟩
  | cons c rest ih =>
    have below : ¬['*', '/'] <:+: rest := fun within =>
      closed (within.trans (List.suffix_cons c rest).isInfix)
    have stays : (s.next c = .block ∨ s.next c = .star) ∧
        (s.next c = .star → rest.head? ≠ some '/') := by
      by_cases star : c = '*'
      · subst star
        have next : s.next '*' = .star := by rcases within with rfl | rfl <;> rfl
        refine ⟨.inr next, fun _ slash => ?_⟩
        obtain ⟨others, rfl⟩ := List.head?_eq_some_iff.mp slash
        exact closed ⟨[], others, rfl⟩
      · have next : s.next c = .block := by
          rcases within with rfl | rfl
          · exact if_neg star
          · have slash : c ≠ '/' := fun same => open_ rfl (congrArg some same)
            simp [State.next, slash, star]
        exact ⟨.inl next, fun same => by rw [next] at same; cases same⟩
    obtain ⟨state, blank⟩ := ih stays.1 below stays.2
    have hidden : covered s c (rest ++ "*/".toList) = true := by
      have inside : (s.next c).inComment = true := by
        rcases stays.1 with same | same <;> rw [same] <;> rfl
      rw [covered, inside]
      rfl
    refine ⟨state, ?_⟩
    rw [List.cons_append, shown, hidden, if_pos rfl, List.forall_mem_append]
    exact ⟨fun d mem => by rw [List.eq_of_mem_replicate mem]; decide, blank⟩

/-- A filler leaves code behind it, and what is shown of it is blank. -/
theorem after_filler (filler : Filler gap) : State.code.after gap = .code ∧
    ∀ c ∈ shown .code gap, isBlank c = true := by
  cases filler with
  | blanks blank =>
    have free : '/' ∉ gap := fun mem => by cases blank '/' mem
    obtain ⟨state, all⟩ := after_code free
    exact ⟨state, all.symm ▸ blank⟩
  | @comment t oneLine unmarked closed =>
    obtain ⟨state, blank⟩ := after_block (.inl rfl) closed (nofun : State.block = .star → _)
    have shows : shown .code ("/*".toList ++ (t ++ "*/".toList)) =
        ' ' :: ' ' :: shown .block (t ++ "*/".toList) := rfl
    rw [shows]
    have space : isBlank ' ' = true := by decide
    exact ⟨state, List.forall_mem_cons.mpr ⟨space, List.forall_mem_cons.mpr ⟨space, blank⟩⟩⟩

/-- A filler at a free position that no slash stands in front of puts blanks between what is left of
the two halves of the line. -/
theorem exists_strip_insert (filler : Filler gap) (code : (State.start inside).after a = .code) :
    ∃ blanks, (∀ c ∈ blanks, isBlank c = true) ∧ strip inside (a ++ (gap ++ b)) =
      (shown (.start inside) a ++ (blanks ++ (strip false b).1), (strip false b).2) := by
  obtain ⟨state, blank⟩ := after_filler filler
  have free : ∀ {s : State} {t : Text}, s = .code → s.Free t := by
    rintro s t rfl
    exact State.free_code t
  refine ⟨shown .code gap, blank, ?_⟩
  have behind : strip false (gap ++ b) = _ := strip_append (free state)
  rw [strip_append (free code), behind]
  rfl

end Comment

end FieldTables
