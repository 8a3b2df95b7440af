import FieldTables.Proofs.Source.Placement

/-!
# Braces

The braces of a header text are those outside comments and directives. An opening brace is the end
of a union opening or opens a structure by name. Braces are balanced when each closes an open one
and none is left open, and then every named structure has one closing brace: the first one at which
no more braces were opened behind it than closed.
-/

namespace FieldTables

open Text Comment Wrapper Statement

/-- A place in a text: a physical line, counted from one, and a byte offset in it. -/
structure Place where
  /-- The physical line. -/
  line : Nat
  /-- The byte offset, counted from zero. -/
  offset : Nat
  deriving DecidableEq

namespace Place

variable {a b c : Place}

/-- A place comes before another one. -/
def Before (a b : Place) : Prop := a.line < b.line ∨ (a.line = b.line ∧ a.offset < b.offset)

instance : Decidable (a.Before b) :=
  inferInstanceAs (Decidable (a.line < b.line ∨ (a.line = b.line ∧ a.offset < b.offset)))

theorem Before.trans (first : a.Before b) (second : b.Before c) : a.Before c := by
  unfold Before at *
  omega

theorem Before.asymm (before : a.Before b) : ¬b.Before a := by
  unfold Before at *
  omega

theorem not_before_self (a : Place) : ¬a.Before a := fun before => before.asymm before

instance : Std.Irrefl Before := ⟨not_before_self⟩

instance : Std.Antisymm Before := ⟨fun _ _ before after => absurd after before.asymm⟩

theorem before_or_eq_or_before (a b : Place) : a.Before b ∨ a = b ∨ b.Before a := by
  obtain ⟨line, offset⟩ := a
  obtain ⟨line', offset'⟩ := b
  simp only [Before, mk.injEq]
  omega

end Place

/-- What a brace does. -/
inductive BraceKind where
  /-- It opens a structure by name, or else a union. -/
  | opening (named : Bool)
  /-- It closes what is open. -/
  | closing
  deriving DecidableEq

/-- A brace of a text. -/
structure Brace where
  /-- Where it stands. -/
  place : Place
  /-- What it does. -/
  kind : BraceKind
  deriving DecidableEq

/-- A named structure from its opening brace to the closing one. -/
structure Enclosure where
  /-- The opening brace. -/
  opening : Place
  /-- The closing brace. -/
  closing : Place
  deriving DecidableEq

/-- A place lies between the braces. -/
def Enclosure.Inside (e : Enclosure) (p : Place) : Prop := e.opening.Before p ∧ p.Before e.closing

instance {e : Enclosure} {p : Place} : Decidable (e.Inside p) :=
  inferInstanceAs (Decidable (e.opening.Before p ∧ p.Before e.closing))

namespace Brace

variable {level : Nat} {b : Brace} {place : Place} {braces rest : List Brace}

/-- Whether braces close what is open before them at some level, and nothing else stays open. -/
def balanced : Nat → List Brace → Bool
  | level, [] => level == 0
  | level, ⟨_, .opening _⟩ :: rest => balanced (level + 1) rest
  | 0, ⟨_, .closing⟩ :: _ => false
  | level + 1, ⟨_, .closing⟩ :: rest => balanced level rest

/-- The brace that closes what is open with a number of others inside it. -/
def close? : Nat → List Brace → Option Place
  | _, [] => none
  | level, ⟨_, .opening _⟩ :: rest => close? (level + 1) rest
  | 0, ⟨place, .closing⟩ :: _ => some place
  | level + 1, ⟨_, .closing⟩ :: rest => close? level rest

/-- The named structures that are opened and closed, in the order of their openings. -/
def enclosures : List Brace → List Enclosure
  | [] => []
  | ⟨place, .opening true⟩ :: rest =>
    (close? 0 rest).toList.map (Enclosure.mk place) ++ enclosures rest
  | ⟨_, .opening false⟩ :: rest => enclosures rest
  | ⟨_, .closing⟩ :: rest => enclosures rest

/-- Whether a brace opens a structure by name. -/
def isNamed (b : Brace) : Bool := b.kind == .opening true

/-- Where everything is closed in the end, what is open inside it is closed before. -/
theorem isSome_close? (inner : Nat) (closed : balanced (level + inner + 1) braces = true) :
    (close? inner braces).isSome = true := by
  -- What is looked for is open, and so is what was open at the level before it.
  induction braces generalizing inner with
  | nil => cases closed
  | cons b rest ih =>
    obtain ⟨place, kind⟩ := b
    cases kind with
    | opening named => exact ih (inner + 1) closed
    | closing =>
      cases inner with
      | zero => rfl
      | succ inner => exact ih inner closed

/-- In balanced braces, each named structure that is opened is closed. -/
theorem map_opening_enclosures (closed : balanced level braces = true) :
    (enclosures braces).map Enclosure.opening = (braces.filter isNamed).map Brace.place := by
  induction braces generalizing level with
  | nil => rfl
  | cons b rest ih =>
    obtain ⟨place, kind⟩ := b
    cases kind with
    | opening named =>
      cases named with
      | true =>
        obtain ⟨close, found⟩ := Option.isSome_iff_exists.mp (isSome_close? 0 closed)
        rw [enclosures, found, List.filter_cons_of_pos rfl, List.map_append, ih closed]
        rfl
      | false => exact ih closed
    | closing =>
      cases level with
      | zero => cases closed
      | succ level => exact ih closed

/-- What is found to close something is a closing brace. -/
theorem mem_of_close?_eq_some (found : close? level braces = some place) :
    ⟨place, .closing⟩ ∈ braces := by
  induction braces generalizing level with
  | nil => cases found
  | cons b rest ih =>
    obtain ⟨here, kind⟩ := b
    cases kind with
    | opening named => exact List.mem_cons_of_mem _ (ih found)
    | closing =>
      cases level with
      | zero =>
        cases found
        exact List.mem_cons_self
      | succ level => exact List.mem_cons_of_mem _ (ih found)

/-- A named structure ends with a closing brace. -/
theorem closing_mem_of_mem_enclosures {e : Enclosure} (mem : e ∈ enclosures braces) :
    ⟨e.closing, .closing⟩ ∈ braces := by
  induction braces with
  | nil => cases mem
  | cons b rest ih =>
    obtain ⟨here, kind⟩ := b
    cases kind with
    | opening named =>
      cases named with
      | true =>
        rw [enclosures, List.mem_append, List.mem_map] at mem
        rcases mem with ⟨place, found, rfl⟩ | later
        · exact List.mem_cons_of_mem _ (mem_of_close?_eq_some (Option.mem_toList.mp found))
        · exact List.mem_cons_of_mem _ (ih later)
      | false => exact List.mem_cons_of_mem _ (ih mem)
    | closing => exact List.mem_cons_of_mem _ (ih mem)

end Brace

namespace Text

variable {t : Text} {p n offset : Nat} {c : Char}

/-- The characters of a text with the bytes at which they start, from an offset on. -/
def positions (offset : Nat) : Text → List (Nat × Char)
  | [] => []
  | c :: rest => (offset, c) :: positions (offset + c.utf8Size) rest

theorem mem_positions_iff : (p, c) ∈ positions offset t ↔ ∃ q, p = offset + q ∧ t.Has q c := by
  induction t generalizing offset with
  | nil => simp [positions, not_has_nil]
  | cons d rest ih =>
    rw [positions, List.mem_cons, ih, Prod.mk.injEq]
    simp only [has_cons]
    constructor
    · rintro (⟨rfl, rfl⟩ | ⟨q, rfl, has⟩)
      · exact ⟨0, rfl, .inl ⟨rfl, rfl⟩⟩
      · exact ⟨d.utf8Size + q, Nat.add_assoc .., .inr ⟨q, rfl, has⟩⟩
    · rintro ⟨_, rfl, ⟨rfl, rfl⟩ | ⟨q, rfl, has⟩⟩
      · exact .inl ⟨rfl, rfl⟩
      · exact .inr ⟨q, (Nat.add_assoc ..).symm, has⟩

theorem mem_positions_zero_iff : (p, c) ∈ positions 0 t ↔ t.Has p c := by
  simp [mem_positions_iff]

/-- Characters are listed in order. -/
theorem pairwise_positions (offset : Nat) (t : Text) :
    (positions offset t).Pairwise fun a b => a.1 < b.1 := by
  induction t generalizing offset with
  | nil => exact .nil
  | cons c rest ih =>
    refine List.pairwise_cons.mpr ⟨fun ⟨p, d⟩ mem => ?_, ih _⟩
    obtain ⟨q, rfl, -⟩ := mem_positions_iff.mp mem
    have positive := c.utf8Size_pos
    exact Nat.lt_of_lt_of_le (Nat.lt_add_of_pos_right positive) (Nat.le_add_right ..)

/-- The brace that a character of a line without comments is, if it is one. An opening brace that
goes when union openings are blanked out opens a union. -/
def brace? (n : Nat) (code : Text) (p : Nat) (c : Char) : Option Brace :=
  if c = '{' then some ⟨⟨n, p⟩, .opening ((positions 0 (blank code)).contains (p, '{'))⟩
  else if c = '}' then some ⟨⟨n, p⟩, .closing⟩
  else none

/-- The braces of a line without comments, in order; a directive has none. -/
def bracesOfLine (n : Nat) (code : Text) : List Brace :=
  if isDirective (blank code) then []
  else (positions 0 code).filterMap fun (p, c) => brace? n code p c

/-- The braces of a text, in order. -/
def braces (t : Text) : List Brace :=
  t.sourceLines.zipIdx.flatMap fun (line, i) =>
    bracesOfLine (i + 1) (Comment.shown (.start (openAfter false (t.sourceLines.take i))) line)

/-- The named structures of a text, in order. -/
def enclosures (t : Text) : List Enclosure := Brace.enclosures t.braces

/-- Every brace closes an open one or is closed. -/
def Balanced (t : Text) : Prop := Brace.balanced 0 t.braces = true

/-- No structure is opened by name inside another one. -/
def Unnested (t : Text) : Prop := ∀ e ∈ t.enclosures, ∀ f ∈ t.enclosures, ¬e.Inside f.opening

/-- A place lies in no named structure. -/
def Outside (t : Text) (p : Place) : Prop := ∀ e ∈ t.enclosures, ¬e.Inside p

instance : Decidable t.Balanced := inferInstanceAs (Decidable (_ = true))

instance : Decidable t.Unnested :=
  inferInstanceAs (Decidable (∀ e ∈ t.enclosures, ∀ f ∈ t.enclosures, ¬e.Inside f.opening))

variable {code : Text} {b : Brace} {place : Place}

/-- The brace of a character stands where the character does. -/
theorem place_of_brace?_eq_some (found : brace? n code p c = some b) : b.place = ⟨n, p⟩ := by
  unfold brace? at found
  split at found
  next =>
    cases found
    rfl
  next =>
    split at found
    next =>
      cases found
      rfl
    next => cases found

theorem brace?_eq_some_named_iff : brace? n code p c = some ⟨place, .opening true⟩ ↔
    c = '{' ∧ place = ⟨n, p⟩ ∧ (blank code).Has p '{' := by
  unfold brace?
  split
  next opening => simp [opening, mem_positions_zero_iff, eq_comm]
  next other =>
    split <;> simp [other]

theorem eq_of_brace?_eq_some_closing (found : brace? n code p c = some ⟨place, .closing⟩) :
    c = '}' := by
  unfold brace? at found
  split at found
  next => cases found
  next =>
    split at found
    next closing => exact closing
    next => cases found

/-- The braces of a line come from its characters. -/
theorem mem_bracesOfLine_iff : b ∈ bracesOfLine n code ↔
    ¬Directive code ∧ ∃ p c, code.Has p c ∧ brace? n code p c = some b := by
  rw [bracesOfLine, ← isDirective_blank_iff]
  split
  next directive => simp [directive]
  next other => simp [other, List.mem_filterMap, mem_positions_zero_iff]

/-- The braces of a text are those of its lines. -/
theorem mem_braces_iff : b ∈ t.braces ↔ ∃ i line, t.sourceLines[i]? = some line ∧
    b ∈ bracesOfLine (i + 1)
      (Comment.shown (.start (openAfter false (t.sourceLines.take i))) line) := by
  rw [braces, List.mem_flatMap, Prod.exists, exists_comm]
  simp only [List.mem_zipIdx_iff_getElem?]

/-- A character that is kept stands at a place of a text. -/
def KeptAt (t : Text) (place : Place) (c : Char) : Prop :=
  ∃ i line, t.sourceLines[i]? = some line ∧ place.line = i + 1 ∧
    Kept (openAfter false (t.sourceLines.take i)) line place.offset c

/-- A structure is opened by name wherever an opening brace is kept. -/
theorem named_mem_braces_iff : ⟨place, .opening true⟩ ∈ t.braces ↔ t.KeptAt place '{' := by
  have visible : isBlank '{' = false := by decide
  rw [mem_braces_iff, KeptAt]
  refine exists_congr fun i => exists_congr fun line => and_congr_right fun _ => ?_
  rw [mem_bracesOfLine_iff]
  simp only [brace?_eq_some_named_iff]
  constructor
  · rintro ⟨other, p, c, -, rfl, rfl, has⟩
    obtain ⟨ink, wrapper⟩ := ink_blank_iff.mp ⟨has, visible⟩
    obtain ⟨own, -⟩ := ink_shown_iff.mp ink
    exact ⟨rfl, own, visible, wrapper, by decide, by decide, other⟩
  · rintro ⟨number, own, -, wrapper, -, -, other⟩
    have ink := ink_shown_iff.mpr ⟨own, visible⟩
    refine ⟨other, place.offset, '{', ink.1, rfl, ?_, (ink_blank_iff.mpr ⟨ink, wrapper⟩).1⟩
    rw [← number]

/-- No character that is kept stands where a closing brace does. -/
theorem not_keptAt_of_closing_mem (mem : ⟨place, .closing⟩ ∈ t.braces) : ¬t.KeptAt place c := by
  obtain ⟨i, line, found, listed⟩ := mem_braces_iff.mp mem
  obtain ⟨-, p, d, has, brace⟩ := mem_bracesOfLine_iff.mp listed
  obtain rfl := eq_of_brace?_eq_some_closing brace
  obtain rfl := place_of_brace?_eq_some brace
  rintro ⟨j, line', found', number, kept⟩
  obtain rfl : i = j := Nat.succ.inj number
  cases found.symm.trans found'
  -- The character would stand where the brace does, so it would be the brace, which is left out.
  have closing := (ink_shown_iff.mp ⟨has, by decide⟩).1.has
  have both := kept.code.has.unique closing (Nat.lt_add_of_pos_right (Char.utf8Size_pos _))
    (Nat.lt_add_of_pos_right c.utf8Size_pos)
  exact kept.closing both.2

/-- The braces of a line stand one behind the other. -/
private theorem pairwise_bracesOfLine (n : Nat) (code : Text) :
    (bracesOfLine n code).Pairwise fun a b => a.place.Before b.place := by
  rw [bracesOfLine]
  split
  next => exact .nil
  next =>
    refine List.pairwise_filterMap.mpr ((pairwise_positions 0 code).imp ?_)
    intro a b before brace here brace' there
    rw [place_of_brace?_eq_some here, place_of_brace?_eq_some there]
    exact .inr ⟨rfl, before⟩

/-- The braces of a text stand one behind the other. -/
theorem pairwise_braces (t : Text) : t.braces.Pairwise fun a b => a.place.Before b.place := by
  -- Braces of different lines are ordered by the lines alone.
  have number : ∀ n code, ∀ b ∈ bracesOfLine n code, b.place.line = n := by
    intro n code b mem
    obtain ⟨-, p, c, -, brace⟩ := mem_bracesOfLine_iff.mp mem
    rw [place_of_brace?_eq_some brace]
  have lines : t.sourceLines.zipIdx.Pairwise fun a b => a.2 < b.2 := by
    rw [← List.pairwise_map (f := Prod.snd) (R := fun i j : Nat => i < j), List.zipIdx_map_snd]
    exact List.pairwise_lt_range'
  refine List.pairwise_flatMap.mpr ⟨fun _ _ => pairwise_bracesOfLine .., lines.imp ?_⟩
  intro a b before x hx y hy
  apply Or.inl
  rw [number _ _ x hx, number _ _ y hy]
  omega

/-- The openings of the named structures stand one behind the other. -/
theorem pairwise_opening_enclosures (balanced : t.Balanced) :
    (t.enclosures.map Enclosure.opening).Pairwise Place.Before := by
  rw [enclosures, Brace.map_opening_enclosures balanced]
  exact List.pairwise_map.mpr (t.pairwise_braces.filter _)

/-- Balanced braces enclose a named structure behind each opening brace that is kept. -/
theorem mem_opening_enclosures_iff (balanced : t.Balanced) :
    place ∈ t.enclosures.map Enclosure.opening ↔ t.KeptAt place '{' := by
  rw [enclosures, Brace.map_opening_enclosures balanced, ← named_mem_braces_iff, List.mem_map]
  simp only [List.mem_filter, Brace.isNamed, beq_iff_eq]
  constructor
  · rintro ⟨⟨_, _⟩, ⟨mem, rfl⟩, rfl⟩
    exact mem
  · exact fun mem => ⟨_, ⟨mem, rfl⟩, rfl⟩

end Text

end FieldTables
