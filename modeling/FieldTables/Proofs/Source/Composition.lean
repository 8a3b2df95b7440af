import FieldTables.Proofs.Source.Pointing

/-!
# Texts that are put together from pieces

A piece is a lexeme, spelled as it should be, or a run of blanks. A statement is cut into tokens
exactly when its text is put together from pieces, in whatever way, and its tokens are the lexemes
that are found when the longest piece is taken at each place. Any other statement is refused behind
the longest front of its text that is put together from pieces, and what is reported goes on from
there up to the next place where a piece starts.
-/

namespace FieldTables

open Outcome Text

namespace Piece

/-- A piece is spelled as it should be. -/
def Spelled : Piece → Prop
  | lexeme (.word name) => name.isIdentifier = true
  | lexeme .star => True
  | lexeme .brace => True
  | lexeme (.group inside) => ∀ c ∈ inside, c ≠ '[' ∧ c ≠ ']'
  | gap blanks => blanks ≠ [] ∧ ∀ c ∈ blanks, isBlank c = true

/-- A piece stands at the front of a text. -/
def Fronts (p : Piece) (t : Text) : Prop := p.Spelled ∧ p.text <+: t

end Piece

/-- A text that is put together from pieces. -/
inductive Text.Composed : Text → Prop
  | nil : Composed []
  | piece {p : Piece} {t : Text} (spelled : p.Spelled) (below : Composed t) : Composed (p.text ++ t)

/-- The pieces of a text when the longest one is taken at each place. -/
inductive Text.Munched : Text → List Piece → Prop
  | nil : Munched [] []
  | piece {p : Piece} {t : Text} {pieces : List Piece} (spelled : p.Spelled)
      (longest : ∀ q : Piece, q.Fronts (p.text ++ t) → q.text.length ≤ p.text.length)
      (below : Munched t pieces) : Munched (p.text ++ t) (p :: pieces)

/-- Where the pieces of a text end: behind the longest front that is put together from pieces stands
a stretch in which none starts, up to the next place where one does. -/
structure Text.Breaks (t front stretch : Text) : Prop where
  composed : front.Composed
  longest : ∀ other : Text, other <+: t → other.Composed → other.width ≤ front.width
  full : stretch ≠ []
  next : ∃ after, t = front ++ (stretch ++ after) ∧ (after = [] ∨ ∃ p : Piece, p.Fronts after) ∧
    ∀ skipped left, stretch = skipped ++ left → left ≠ [] → ∀ p : Piece, ¬p.Fronts (left ++ after)

/-- The tokens of pieces, the first of which stands at a column. -/
def Token.placed (column : Nat) : List Piece → List Token
  | [] => []
  | p :: rest => p.tokens column ++ placed (column + p.text.width) rest

namespace Piece

variable {p q : Piece} {t rest more : Text} {c : Char}

/-- A lexeme is spelled as it should be when it can stand alone. -/
theorem spelled_lexeme_iff {l : Lexeme} : (lexeme l).Spelled ↔ l.Ends [] := by
  cases l with
  | word name => exact (and_iff_left rfl).symm
  | star => exact Iff.rfl
  | brace => exact Iff.rfl
  | group inside => simp [Spelled, Lexeme.Ends, isInside]

/-- A piece is made of name characters, or else it starts with another character. -/
theorem Spelled.name_or_other (spelled : p.Spelled) :
    (∀ c ∈ p.text, isNameCharacter c = true) ∨
      ∃ c others, p.text = c :: others ∧ isNameCharacter c = false := by
  cases p with
  | lexeme l =>
    cases l with
    | word name => exact .inl (isName_of_isIdentifier spelled)
    | star => exact .inr ⟨'*', [], rfl, by decide⟩
    | brace => exact .inr ⟨'{', [], rfl, by decide⟩
    | group inside => exact .inr ⟨'[', inside ++ [']'], rfl, by decide⟩
  | gap blanks =>
    obtain ⟨c, others, rfl⟩ := List.exists_cons_of_ne_nil spelled.1
    exact .inr ⟨c, others, rfl, isNameCharacter_of_isBlank (spelled.2 c List.mem_cons_self)⟩

/-- A piece is made of blanks, or else it starts with another character. -/
theorem Spelled.blank_or_other (spelled : p.Spelled) :
    (∀ c ∈ p.text, isBlank c = true) ∨
      ∃ c others, p.text = c :: others ∧ isBlank c = false := by
  cases p with
  | lexeme l => exact .inr (spelled_lexeme_iff.mp spelled).exists_cons
  | gap blanks => exact .inl spelled.2

/-- What is put together from pieces stays so without the characters of one kind at its front, when
no piece goes over from this kind to another one. -/
theorem composed_dropWhile {kind : Char → Bool}
    (uniform : ∀ p : Piece, p.Spelled → (∀ c ∈ p.text, kind c = true) ∨
      ∃ c others, p.text = c :: others ∧ kind c = false)
    (composed : t.Composed) : Composed (t.dropWhile kind) := by
  induction composed with
  | nil => exact .nil
  | @piece p t spelled below ih =>
    rcases uniform p spelled with all | ⟨c, others, text, other⟩
    · rw [List.dropWhile_append_of_pos all]
      exact ih
    · have stops : ¬kind c = true := by simp [other]
      have whole : (p.text ++ t).dropWhile kind = p.text ++ t := by
        rw [text, List.cons_append, List.dropWhile_cons_of_neg stops]
      rw [whole]
      exact .piece spelled below

/-- A piece that starts with a blank is a gap. -/
private theorem first?_of_isBlank (blank : isBlank c = true) (t : Text) : first? (c :: t) =
    some (gap (c :: t.takeWhile isBlank), t.dropWhile isBlank) := by
  have letter : ¬isLetter c = true := by
    intro letter
    have name := isNameCharacter_of_isLetter letter
    simp [isNameCharacter_of_isBlank blank] at name
  rw [first?, if_neg letter, if_pos blank]

/-- Where a piece stands one is found, and it is as long. What it leaves is put together from pieces
when the text behind the first one is. -/
theorem Spelled.exists_first? (spelled : p.Spelled) (t : Text) :
    ∃ q rest, first? (p.text ++ t) = some (q, rest) ∧ p.text <+: q.text ∧
      (t.Composed → rest.Composed) := by
  have same : ∀ l : Lexeme, l.Ends t → ∃ q rest, first? (l.text ++ t) = some (q, rest) ∧
      l.text <+: q.text ∧ (t.Composed → rest.Composed) := fun l ends =>
    ⟨lexeme l, t, first?_of_ends ends, List.prefix_refl _, id⟩
  cases p with
  | lexeme l =>
    cases l with
    | star => exact same .star trivial
    | brace => exact same .brace trivial
    | group inside => exact same (.group inside) (spelled_lexeme_iff.mp spelled)
    | word name =>
      cases name with
      | nil => cases spelled
      | cons c others =>
        have identifier : isLetter c = true ∧ ∀ d ∈ others, isNameCharacter d = true := by
          simpa [Spelled, isIdentifier] using spelled
        obtain ⟨letter, names⟩ := identifier
        refine ⟨_, _, if_pos letter, ?_, fun composed => ?_⟩
        · rw [List.append_eq, List.takeWhile_append_of_pos names]
          exact List.prefix_append (c :: others) _
        · rw [List.append_eq, List.dropWhile_append_of_pos names]
          exact composed_dropWhile (fun p => Spelled.name_or_other) composed
  | gap blanks =>
    obtain ⟨c, others, rfl⟩ := List.exists_cons_of_ne_nil spelled.1
    obtain ⟨blank, blanks⟩ := List.forall_mem_cons.mp spelled.2
    refine ⟨_, _, first?_of_isBlank blank _, ?_, fun composed => ?_⟩
    · rw [List.append_eq, List.takeWhile_append_of_pos blanks]
      exact List.prefix_append (c :: others) _
    · rw [List.append_eq, List.dropWhile_append_of_pos blanks]
      exact composed_dropWhile (fun p => Spelled.blank_or_other) composed

/-- The first piece of a text is spelled as it should be. -/
theorem spelled_of_first? (first : first? t = some (p, rest)) : p.Spelled := by
  have ends := ends_of_first? first
  cases p with
  | lexeme l =>
    have ends : l.Ends rest := ends
    exact spelled_lexeme_iff.mpr ends.alone
  | gap blanks => exact ⟨text_ne_nil first, ends⟩

/-- No piece at the front of a text is longer than the first one. -/
theorem prefix_of_first? (first : first? t = some (p, rest)) (fronts : q.Fronts t) :
    q.text <+: p.text := by
  obtain ⟨spelled, after, rfl⟩ := fronts
  obtain ⟨p', rest', found, longer, -⟩ := spelled.exists_first? after
  cases found.symm.trans first
  exact longer

/-- A text starts with no piece when none is found, unless it is empty. -/
theorem not_fronts_of_first? (failed : first? t = none) : ¬p.Fronts t := by
  rintro ⟨spelled, after, rfl⟩
  obtain ⟨q, rest, found, -⟩ := spelled.exists_first? after
  simp [failed] at found

/-- A piece is found where one stands. -/
theorem isSome_first?_iff : (first? t).isSome = true ↔ ∃ p : Piece, p.Fronts t := by
  constructor
  · intro found
    obtain ⟨⟨p, rest⟩, first⟩ := Option.isSome_iff_exists.mp found
    exact ⟨p, spelled_of_first? first, rest, first?_append first⟩
  · rintro ⟨p, spelled, after, rfl⟩
    obtain ⟨q, rest, found, -⟩ := spelled.exists_first? after
    simp [found]

/-- What was cut off at a place ends there in front of every shorter text too. -/
private theorem takeWhile_append_of_prefix {kind : Char → Bool} {front : Text}
    (all : ∀ c ∈ front, kind c = true) (short : more <+: t.dropWhile kind) :
    (front ++ more).takeWhile kind = front ∧ (front ++ more).dropWhile kind = more := by
  have stops : more.takeWhile kind = [] ∧ more.dropWhile kind = more := by
    cases more with
    | nil => exact ⟨rfl, rfl⟩
    | cons c others =>
      obtain ⟨after, shape⟩ := short
      have first := List.head?_dropWhile_not kind t
      have other : ¬kind c = true := by simpa [← shape] using first
      exact ⟨List.takeWhile_cons_of_neg other, List.dropWhile_cons_of_neg other⟩
  rw [List.takeWhile_append_of_pos all, List.dropWhile_append_of_pos all, stops.1, stops.2,
    List.append_nil]
  exact ⟨rfl, rfl⟩

/-- The first piece of a text stays the first one when the text is cut off behind it. -/
theorem first?_of_prefix (first : first? t = some (p, rest)) (short : more <+: rest) :
    first? (p.text ++ more) = some (p, more) := by
  cases t with
  | nil => cases first
  | cons c s =>
    rw [first?] at first
    split at first
    next letter =>
      cases first
      obtain ⟨taken, left⟩ :=
        takeWhile_append_of_prefix (List.all_eq_true.mp List.all_takeWhile) short
      rw [Piece.text, Lexeme.text, List.cons_append, first?, if_pos letter, taken, left]
    split at first
    next letter blank =>
      cases first
      obtain ⟨taken, left⟩ :=
        takeWhile_append_of_prefix (List.all_eq_true.mp List.all_takeWhile) short
      rw [Piece.text, List.cons_append, first?, if_neg letter, if_pos blank, taken, left]
    split at first
    · cases first
      exact first?_of_ends (l := .star) trivial
    split at first
    · cases first
      exact first?_of_ends (l := .brace) trivial
    split at first
    · split at first
      next =>
        cases first
        exact first?_of_ends (l := .group _) fun d mem => List.mem_takeWhile_imp mem
      next => cases first
    · cases first

/-- A piece is the first one of its own text. -/
theorem Spelled.first?_text (spelled : p.Spelled) : first? p.text = some (p, []) := by
  cases p with
  | lexeme l =>
    have found := first?_of_ends (spelled_lexeme_iff.mp spelled)
    rwa [List.append_nil] at found
  | gap blanks =>
    obtain ⟨c, others, rfl⟩ := List.exists_cons_of_ne_nil spelled.1
    obtain ⟨blank, blanks⟩ := List.forall_mem_cons.mp spelled.2
    rw [text, first?_of_isBlank blank, List.takeWhile_eq_self_iff.mpr blanks,
      List.dropWhile_eq_nil_iff.mpr blanks]

end Piece

namespace Text

variable {t front stretch more : Text} {pieces : List Piece}

/-- What is put together from pieces starts with a piece, unless it is empty. -/
theorem Composed.exists_fronts (composed : t.Composed) (full : t ≠ []) :
    ∃ p : Piece, p.Fronts t := by
  cases composed with
  | nil => exact absurd rfl full
  | @piece p rest spelled below => exact ⟨p, spelled, rest, rfl⟩

/-- What is left behind the first piece is put together from pieces too. -/
theorem Composed.of_first? {p : Piece} {rest : Text} (composed : t.Composed)
    (first : Piece.first? t = some (p, rest)) : rest.Composed := by
  cases composed with
  | nil => cases first
  | @piece q more spelled below =>
    obtain ⟨q', rest', found, -, keeps⟩ := spelled.exists_first? more
    cases found.symm.trans first
    exact keeps below

/-- The longest pieces are the text, and each of them is spelled as it should be. -/
theorem Munched.spelled (munched : t.Munched pieces) :
    t = pieces.flatMap Piece.text ∧ ∀ p ∈ pieces, p.Spelled := by
  induction munched with
  | nil => exact ⟨rfl, List.forall_mem_nil _⟩
  | piece spelled _ _ ih =>
    obtain ⟨whole, each⟩ := ih
    rw [List.flatMap_cons, ← whole]
    exact ⟨rfl, List.forall_mem_cons.mpr ⟨spelled, each⟩⟩

/-- The longest piece at a place is the first one that is found. -/
theorem Munched.first? {p : Piece} (spelled : p.Spelled)
    (longest : ∀ q : Piece, q.Fronts (p.text ++ t) → q.text.length ≤ p.text.length) :
    Piece.first? (p.text ++ t) = some (p, t) := by
  obtain ⟨q, rest, found, longer, -⟩ := spelled.exists_first? t
  have whole := Piece.first?_append found
  have spelled' := Piece.spelled_of_first? found
  have short := longest q ⟨spelled', rest, whole⟩
  have text : p.text = q.text := longer.eq_of_length_le short
  rw [text] at whole
  have same : p = q := by
    have own := spelled.first?_text
    rw [text, spelled'.first?_text] at own
    simpa using own.symm
  rw [found, same, List.append_cancel_left whole]

/-- A text that breaks is not put together from pieces. -/
theorem Breaks.not_composed (breaks : t.Breaks front stretch) : ¬t.Composed := by
  intro composed
  have bound := breaks.longest t (List.prefix_refl t) composed
  obtain ⟨after, rfl, -⟩ := breaks.next
  obtain ⟨c, rest, shape⟩ := List.exists_cons_of_ne_nil breaks.full
  have positive := c.utf8Size_pos
  simp only [shape, width_append, width_cons] at bound
  omega

/-- Of two stretches up to the next piece none is longer. -/
private theorem eq_nil_of_stretch {after more : Text}
    (ends : after = [] ∨ ∃ p : Piece, p.Fronts after)
    (apart : ∀ skipped left, stretch ++ more = skipped ++ left → left ≠ [] →
      ∀ p : Piece, ¬p.Fronts (left ++ front)) (same : after = more ++ front) : more = [] := by
  by_contra full
  rcases ends with empty | ⟨p, fronts⟩
  · rw [empty] at same
    exact full (List.append_eq_nil_iff.mp same.symm).1
  · rw [same] at fronts
    exact apart stretch more rfl full p fronts

/-- A text breaks in one way only. -/
theorem Breaks.unique {front' stretch' : Text} (breaks : t.Breaks front stretch)
    (breaks' : t.Breaks front' stretch') : front = front' ∧ stretch = stretch' := by
  obtain ⟨composed, longest, -, after, rfl, ends, apart⟩ := breaks
  obtain ⟨composed', longest', -, after', whole, ends', apart'⟩ := breaks'
  have bound := longest front' (whole ▸ List.prefix_append ..) composed'
  have bound' := longest' front (List.prefix_append ..) composed
  have fronts : front = front' := by
    rcases List.append_eq_append_iff.mp whole with ⟨more, rfl, -⟩ | ⟨more, rfl, -⟩
    · rw [width_append] at bound
      cases more with
      | nil => rw [List.append_nil]
      | cons c more =>
        have positive := c.utf8Size_pos
        rw [width_cons] at bound
        omega
    · rw [width_append] at bound'
      cases more with
      | nil => rw [List.append_nil]
      | cons c more =>
        have positive := c.utf8Size_pos
        rw [width_cons] at bound'
        omega
  subst fronts
  refine ⟨rfl, ?_⟩
  rcases List.append_eq_append_iff.mp (List.append_cancel_left whole) with
    ⟨more, rfl, same⟩ | ⟨more, rfl, same⟩
  · rw [eq_nil_of_stretch ends apart' same, List.append_nil]
  · rw [eq_nil_of_stretch ends' apart same, List.append_nil]

end Text

namespace Token

variable {t rest stretch : Text} {p : Piece} {pieces : List Piece} {column place : Nat}
  {tokens : List Token}

/-- The tokens that are read are those of the longest pieces. -/
theorem read_eq_ok_iff :
    read column t = .ok tokens ↔ ∃ pieces, t.Munched pieces ∧ tokens = placed column pieces := by
  constructor
  · intro ok
    fun_induction read column t generalizing tokens with
    | case1 column t failed empty =>
      cases ok
      rw [List.isEmpty_iff.mp empty]
      exact ⟨[], .nil, rfl⟩
    | case2 => cases ok
    | case3 column t p rest first ih =>
      obtain ⟨others, below, result⟩ := bind_eq_ok_iff.mp ok
      cases result
      obtain ⟨pieces, munched, rfl⟩ := ih below
      have whole := Piece.first?_append first
      refine ⟨p :: pieces, ?_, rfl⟩
      rw [← whole]
      refine .piece (Piece.spelled_of_first? first) (fun q fronts => ?_) munched
      rw [whole] at fronts
      exact (Piece.prefix_of_first? first fronts).length_le
  · rintro ⟨pieces, munched, rfl⟩
    induction munched generalizing column with
    | nil => rw [read]; rfl
    | piece spelled longest _ ih =>
      rw [read_of_first? (Munched.first? spelled longest), ih]
      rfl

/-- A text that is put together from pieces is read. -/
theorem exists_read_of_composed (composed : t.Composed) (column : Nat) :
    ∃ tokens, read column t = .ok tokens := by
  fun_induction read column t with
  | case1 => exact ⟨[], rfl⟩
  | case2 column t failed full =>
    have full : t ≠ [] := by simpa using full
    obtain ⟨p, fronts⟩ := composed.exists_fronts full
    exact absurd fronts (Piece.not_fronts_of_first? failed)
  | case3 column t p rest first ih =>
    obtain ⟨tokens, below⟩ := ih (composed.of_first? first)
    exact ⟨p.tokens column ++ tokens, bind_eq_ok_iff.mpr ⟨tokens, below, rfl⟩⟩

/-- Only a text that is put together from pieces is read. -/
theorem composed_of_read (ok : read column t = .ok tokens) : t.Composed := by
  obtain ⟨pieces, munched, -⟩ := read_eq_ok_iff.mp ok
  clear ok
  induction munched with
  | nil => exact .nil
  | piece spelled _ _ ih => exact .piece spelled ih

/-- What is unreadable goes up to the next piece. -/
private theorem exists_unreadable_append (t : Text) : ∃ after, t = unreadable t ++ after ∧
    (after = [] ∨ ∃ p : Piece, p.Fronts after) ∧ ∀ skipped left, unreadable t = skipped ++ left →
      left ≠ [] → ∀ p : Piece, ¬p.Fronts (left ++ after) := by
  have nothing : ∀ skipped left : Text, [] = skipped ++ left → left ≠ [] → False := by
    intro skipped left split full
    exact full (List.append_eq_nil_iff.mp split.symm).2
  induction t with
  | nil => exact ⟨[], rfl, .inl rfl, fun skipped left split full => (nothing _ _ split full).elim⟩
  | cons c rest ih =>
    rw [unreadable]
    split
    next found =>
      refine ⟨c :: rest, rfl, .inr (Piece.isSome_first?_iff.mp found), ?_⟩
      exact fun skipped left split full => (nothing _ _ split full).elim
    next absent =>
      obtain ⟨after, whole, ends, apart⟩ := ih
      refine ⟨after, congrArg (c :: ·) whole, ends, ?_⟩
      intro skipped left split full
      cases skipped with
      | nil =>
        rw [List.nil_append] at split
        rw [← split, List.cons_append, ← whole]
        intro p fronts
        exact absent (Piece.isSome_first?_iff.mpr ⟨p, fronts⟩)
      | cons d skipped =>
        exact apart skipped left (List.cons.inj split).2 full

/-- A text that is not read breaks where the error says. -/
theorem exists_breaks_of_read_error (failed : read column t = .error (place, stretch)) :
    ∃ front, t.Breaks front stretch ∧ place = column + front.width := by
  fun_induction read column t with
  | case1 => cases failed
  | case2 column t failed full =>
    cases failed
    have full : t ≠ [] := by simpa using full
    refine ⟨[], ⟨.nil, ?_, ?_, exists_unreadable_append t⟩, rfl⟩
    · intro other short composed
      by_contra wide
      have nonempty : other ≠ [] := by
        intro empty
        simp [empty] at wide
      obtain ⟨p, spelled, within⟩ := composed.exists_fronts nonempty
      exact Piece.not_fronts_of_first? failed ⟨spelled, within.trans short⟩
    · obtain ⟨c, rest, rfl⟩ := List.exists_cons_of_ne_nil full
      simp [unreadable, failed]
  | case3 column t p rest first ih =>
    rcases bind_eq_error_iff.mp failed with below | ⟨_, _, result⟩
    · obtain ⟨front, ⟨composed, longest, full, after, whole, ends, apart⟩, rfl⟩ := ih below
      have text := Piece.first?_append first
      refine ⟨p.text ++ front, ⟨.piece (Piece.spelled_of_first? first) composed, ?_, full, after,
        ?_, ends, apart⟩, ?_⟩
      · intro other short composed'
        rw [width_append]
        rw [← text] at short
        rcases List.prefix_or_prefix_of_prefix short (List.prefix_append p.text rest) with
          ⟨more, shape⟩ | ⟨more, rfl⟩
        · rw [← shape, width_append]
          omega
        · -- The other front goes on behind the first piece, which is its first piece too.
          have below := (List.prefix_append_right_inj p.text).mp short
          have first' := Piece.first?_of_prefix first below
          have bound := longest more below (composed'.of_first? first')
          rw [width_append]
          omega
      · rw [← text, whole, List.append_assoc]
      · rw [width_append, Nat.add_assoc]
    · cases result

end Token

end FieldTables
