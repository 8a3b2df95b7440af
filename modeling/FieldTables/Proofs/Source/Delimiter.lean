import FieldTables.Proofs.Source.Comment

/-!
# Searching for delimiters

A line is also stripped by searching. Inside a block comment the first delimiter that closes one is
searched for, and everything up to its end is blanked out. Outside, the first delimiter of each kind
that opens a comment is searched for, and the one that stands further in front decides. Each round
goes on behind a delimiter, so the rounds come to an end, and they leave what reading one character
at a time leaves.
-/

namespace FieldTables.Comment

open Text

/-- What stands in front of the first place where one character follows another, and what stands
behind both. -/
def cutAt (first second : Char) : Text → Option (Text × Text)
  | [] => none
  | c :: rest =>
    if c = first ∧ rest.head? = some second then some ([], rest.tail)
    else (cutAt first second rest).map fun (front, behind) => (c :: front, behind)

variable {first second c : Char} {t front behind rest : Text} {inside : Bool}

/-- Where the characters do not stand, the first place is further on. -/
theorem cutAt_cons (elsewhere : c = first → rest.head? ≠ some second) :
    cutAt first second (c :: rest) =
      (cutAt first second rest).map fun (front, behind) => (c :: front, behind) := by
  rw [cutAt, if_neg fun ⟨same, next⟩ => elsewhere same next]

/-- The first place is at a character, or else it is further on. -/
theorem here_or_elsewhere_of_cutAt (cut : cutAt first second (c :: rest) = some (front, behind)) :
    (c = first ∧ rest = second :: behind ∧ front = []) ∨
      (c = first → rest.head? ≠ some second) ∧
        ∃ before, front = c :: before ∧ cutAt first second rest = some (before, behind) := by
  by_cases here : c = first ∧ rest.head? = some second
  · obtain ⟨others, rfl⟩ := List.head?_eq_some_iff.mp here.2
    rw [cutAt, if_pos here] at cut
    cases cut
    exact .inl ⟨here.1, rfl, rfl⟩
  · have elsewhere : c = first → rest.head? ≠ some second := fun same next => here ⟨same, next⟩
    rw [cutAt_cons elsewhere] at cut
    obtain ⟨⟨before, after⟩, found, same⟩ := Option.map_eq_some_iff.mp cut
    cases same
    exact .inr ⟨elsewhere, before, rfl, found⟩

/-- What is cut is put together from its parts and the delimiter. -/
theorem eq_of_cutAt (cut : cutAt first second t = some (front, behind)) :
    t = front ++ first :: second :: behind := by
  induction t generalizing front with
  | nil => cases cut
  | cons c rest ih =>
    obtain ⟨rfl, rfl, rfl⟩ | ⟨-, before, rfl, found⟩ := here_or_elsewhere_of_cutAt cut
    · rfl
    · rw [ih found, List.cons_append]

theorem length_lt_of_cutAt (cut : cutAt first second t = some (front, behind)) :
    behind.length < t.length := by
  rw [eq_of_cutAt cut, List.length_append, List.length_cons, List.length_cons]
  omega

/-- A line without its comments, found by searching, and whether a block comment is still open. -/
def searched : (inside : Bool) → Text → Text × Bool
  | true, t =>
    match found : cutAt '*' '/' t with
    | some (front, behind) =>
      have := length_lt_of_cutAt found
      let (kept, stillInside) := searched false behind
      (spaces (front.width + 2) ++ kept, stillInside)
    | none => (blanked t, true)
  | false, t =>
    match found : cutAt '/' '*' t, cutAt '/' '/' t with
    | some (front, behind), line =>
      have := length_lt_of_cutAt found
      match line.filter fun cut => cut.1.width < front.width with
      | some (kept, _) => (kept, false)
      | none =>
        let (kept, stillInside) := searched true behind
        (front ++ spaces 2 ++ kept, stillInside)
    | none, some (front, _) => (front, false)
    | none, none => (t, false)
termination_by _ t => t.length

/-- Where there is no place at all, none is here. -/
private theorem elsewhere_of_cutAt_eq_none (nowhere : cutAt first second (c :: rest) = none) :
    c = first → rest.head? ≠ some second := by
  intro same next
  rw [cutAt, if_pos ⟨same, next⟩] at nowhere
  cases nowhere

/-- A character that closes no block comment is blanked out. -/
private theorem strip_block_cons (closes : c = '*' → rest.head? ≠ some '/') :
    strip true (c :: rest) = (spaces c.utf8Size ++ (strip true rest).1, (strip true rest).2) := by
  rw [strip]
  rintro others rfl rfl
  exact closes rfl rfl

/-- A character that opens no comment is kept. -/
private theorem strip_code_cons (opens : c = '/' → rest.head? ≠ some '*')
    (cuts : c = '/' → rest.head? ≠ some '/') :
    strip false (c :: rest) = (c :: (strip false rest).1, (strip false rest).2) := by
  rw [strip]
  · rintro others rfl rfl
    exact opens rfl rfl
  · rintro others rfl rfl
    exact cuts rfl rfl

/-- In a block comment the first closing delimiter closes it. -/
private theorem strip_of_closes (cut : cutAt '*' '/' t = some (front, behind)) :
    strip true t =
      (spaces (front.width + 2) ++ (strip false behind).1, (strip false behind).2) := by
  induction t generalizing front with
  | nil => cases cut
  | cons c rest ih =>
    obtain ⟨rfl, rfl, rfl⟩ | ⟨elsewhere, before, rfl, found⟩ := here_or_elsewhere_of_cutAt cut
    · rfl
    · rw [strip_block_cons elsewhere, ih found, ← List.append_assoc]
      simp [spaces, List.replicate_append_replicate, Nat.add_assoc]

/-- A block comment that nothing closes goes on to the end. -/
private theorem strip_of_not_closes (nowhere : cutAt '*' '/' t = none) :
    strip true t = (blanked t, true) := by
  induction t with
  | nil => rfl
  | cons c rest ih =>
    have elsewhere : c = '*' → rest.head? ≠ some '/' := elsewhere_of_cutAt_eq_none nowhere
    rw [cutAt_cons elsewhere, Option.map_eq_none_iff] at nowhere
    rw [strip_block_cons elsewhere, ih nowhere]
    simp [blanked, spaces, List.replicate_append_replicate]

/-- Outside, a block comment is opened by its first delimiter unless a line comment starts in front
of it. -/
private theorem strip_of_opens (cut : cutAt '/' '*' t = some (front, behind))
    (ahead : ∀ other ∈ cutAt '/' '/' t, ¬other.1.width < front.width) :
    strip false t = (front ++ spaces 2 ++ (strip true behind).1, (strip true behind).2) := by
  induction t generalizing front with
  | nil => cases cut
  | cons c rest ih =>
    obtain ⟨rfl, rfl, rfl⟩ | ⟨opens, before, rfl, found⟩ := here_or_elsewhere_of_cutAt cut
    · rfl
    · have wide : 0 < c.utf8Size := c.utf8Size_pos
      have cuts : c = '/' → rest.head? ≠ some '/' := by
        intro slash next
        refine ahead ([], rest.tail) ?_ ?_
        · rw [cutAt, if_pos ⟨slash, next⟩]
          rfl
        · rw [width_cons, width_nil]
          omega
      rw [strip_code_cons opens cuts, ih found]
      · rfl
      · intro other mem
        rw [cutAt_cons cuts] at ahead
        have further := ahead _ (Option.mem_map_of_mem _ mem)
        simpa using further

/-- Outside, a line comment starts at its first delimiter unless a block comment is opened in front
of it. -/
private theorem strip_of_cuts (cut : cutAt '/' '/' t = some (front, behind))
    (ahead : ∀ other ∈ cutAt '/' '*' t, front.width < other.1.width) :
    strip false t = (front, false) := by
  induction t generalizing front with
  | nil => cases cut
  | cons c rest ih =>
    have opens : c = '/' → rest.head? ≠ some '*' := by
      intro slash next
      have further := ahead ([], rest.tail) (by rw [cutAt, if_pos ⟨slash, next⟩]; rfl)
      exact absurd further (Nat.not_lt_zero _)
    obtain ⟨rfl, rfl, rfl⟩ | ⟨cuts, before, rfl, found⟩ := here_or_elsewhere_of_cutAt cut
    · rfl
    · rw [strip_code_cons opens cuts, ih found]
      intro other mem
      rw [cutAt_cons opens] at ahead
      have further := ahead _ (Option.mem_map_of_mem _ mem)
      simpa using further

/-- A line in which nothing opens a comment is kept whole. -/
private theorem strip_of_plain (block : cutAt '/' '*' t = none) (line : cutAt '/' '/' t = none) :
    strip false t = (t, false) := by
  induction t with
  | nil => rfl
  | cons c rest ih =>
    have opens : c = '/' → rest.head? ≠ some '*' := elsewhere_of_cutAt_eq_none block
    have cuts : c = '/' → rest.head? ≠ some '/' := elsewhere_of_cutAt_eq_none line
    rw [cutAt_cons opens, Option.map_eq_none_iff] at block
    rw [cutAt_cons cuts, Option.map_eq_none_iff] at line
    rw [strip_code_cons opens cuts, ih block line]

/-- Searching leaves what reading one character at a time leaves. -/
theorem searched_eq_strip (inside : Bool) (t : Text) : searched inside t = strip inside t := by
  fun_induction searched inside t with
  | case1 t front behind found shorter kept stillInside below ih =>
    rw [strip_of_closes found, ← ih, below]
  | case2 t nowhere => rw [strip_of_not_closes nowhere]
  | case3 t front behind opens shorter kept rest line =>
    obtain ⟨cuts, ahead⟩ := Option.filter_eq_some_iff.mp line
    rw [strip_of_cuts cuts]
    intro other mem
    obtain rfl : (front, behind) = other := Option.some.inj (opens.symm.trans mem)
    exact of_decide_eq_true ahead
  | case4 t front behind opens shorter kept stillInside below line ih =>
    rw [strip_of_opens opens, ← ih, below]
    intro other mem ahead
    exact Option.filter_eq_none_iff.mp line other mem (decide_eq_true ahead)
  | case5 t front rest block cuts =>
    rw [strip_of_cuts cuts]
    intro other mem
    rw [block] at mem
    cases mem
  | case6 t block line => rw [strip_of_plain block line]

end FieldTables.Comment
