import Mathlib.Data.List.Forall2

/-!
# Outcomes of steps

A run is a sequence of steps that each give a value or an error. It succeeds exactly when all of
its steps do, so a success is taken apart into the successes of its steps, and what every step
keeps holds of the whole run.
-/

namespace FieldTables.Outcome

variable {ε α β : Type}

/-- What follows a success is what is done with its value. -/
theorem ok_bind (a : α) (f : α → Except ε β) : .ok a >>= f = f a :=
  rfl

/-- Two steps succeed when the first does and the second does from there. -/
theorem bind_eq_ok_iff {x : Except ε α} {f : α → Except ε β} {b : β} :
    x >>= f = .ok b ↔ ∃ a, x = .ok a ∧ f a = .ok b := by
  cases x with
  | error e => simp [bind, Except.bind]
  | ok a => simp [bind, Except.bind]

/-- Two steps fail when the first does, or the second after a success of the first. -/
theorem bind_eq_error_iff {x : Except ε α} {f : α → Except ε β} {e : ε} :
    x >>= f = .error e ↔ x = .error e ∨ ∃ a, x = .ok a ∧ f a = .error e := by
  cases x with
  | error e' => simp [bind, Except.bind]
  | ok a => simp [bind, Except.bind]

/-- Runs with a state go on alike from steps that end alike. -/
theorem run_bind_congr {σ : Type} {x y : ExceptT ε (StateM σ) α}
    {f : α → ExceptT ε (StateM σ) β} {v w : σ} (same : x v = y w) : (x >>= f) v = (y >>= f) w := by
  have run : ∀ (z : ExceptT ε (StateM σ) α) u,
      (z >>= f) u = ExceptT.bindCont f (z u).1 (z u).2 := fun _ _ => rfl
  rw [run, run, same]

/-- A run with a state goes on from where its first step succeeds. -/
theorem run_bind_of_ok {σ : Type} {x : ExceptT ε (StateM σ) α}
    {f : α → ExceptT ε (StateM σ) β} {v w : σ} {a : α} (ok : x v = (.ok a, w)) :
    (x >>= f) v = f a w :=
  run_bind_congr (y := pure a) ok

/-- A run with a state stops where its first step fails. -/
theorem run_bind_of_error {σ : Type} {x : ExceptT ε (StateM σ) α}
    {f : α → ExceptT ε (StateM σ) β} {v w : σ} {e : ε} (failed : x v = (.error e, w)) :
    (x >>= f) v = (.error e, w) :=
  run_bind_congr (y := throw e) failed

/-- A step with a value that can be looked at succeeds. -/
theorem exists_of_map_toOption {x : Except ε α} {look : α → β} {b : β}
    (value : x.toOption.map look = some b) : ∃ a, x = .ok a ∧ look a = b := by
  cases x with
  | error e => cases value
  | ok a => exact ⟨a, rfl, Option.some.inj value⟩

/-- What holds at the start and is kept by every step holds at the end of a successful run. -/
theorem foldlM_induction {f : β → α → Except ε β} {motive : β → Prop} {items : List α}
    (step : ∀ b b', ∀ a ∈ items, motive b → f b a = .ok b' → motive b') {start finish : β}
    (init : motive start) (run : items.foldlM f start = .ok finish) : motive finish := by
  induction items generalizing start with
  | nil =>
    cases run
    exact init
  | cons a rest ih =>
    rw [List.foldlM_cons, bind_eq_ok_iff] at run
    obtain ⟨next, first, others⟩ := run
    have later : ∀ b b', ∀ c ∈ rest, motive b → f b c = .ok b' → motive b' :=
      fun b b' c hc => step b b' c (List.mem_cons_of_mem a hc)
    exact ih later (step start next a List.mem_cons_self init first) others

/-- A run fails at one of its items, with what every step keeps still holding in front of it. -/
theorem exists_of_foldlM_eq_error {f : β → α → Except ε β} {motive : β → Prop} {items : List α}
    (step : ∀ b b', ∀ a ∈ items, motive b → f b a = .ok b' → motive b') {start : β} {e : ε}
    (init : motive start) (failed : items.foldlM f start = .error e) :
    ∃ b, motive b ∧ ∃ a ∈ items, f b a = .error e := by
  induction items generalizing start with
  | nil => cases failed
  | cons a rest ih =>
    rw [List.foldlM_cons, bind_eq_error_iff] at failed
    rcases failed with here | ⟨next, first, others⟩
    · exact ⟨start, init, a, List.mem_cons_self, here⟩
    · have later : ∀ b b', ∀ c ∈ rest, motive b → f b c = .ok b' → motive b' :=
        fun b b' c hc => step b b' c (List.mem_cons_of_mem a hc)
      obtain ⟨b, kept, c, mem, there⟩ :=
        ih later (step start next a List.mem_cons_self init first) others
      exact ⟨b, kept, c, List.mem_cons_of_mem a mem, there⟩

/-- Of two lists related item by item, each item of the first is related to one of the second. -/
theorem exists_of_mem_left {R : α → β → Prop} {items : List α} {results : List β}
    (related : List.Forall₂ R items results) {a : α} (mem : a ∈ items) : ∃ b ∈ results, R a b := by
  induction related with
  | nil => cases mem
  | cons here _ ih =>
    rcases List.mem_cons.mp mem with rfl | below
    · exact ⟨_, List.mem_cons_self, here⟩
    · obtain ⟨b, listed, there⟩ := ih below
      exact ⟨b, List.mem_cons_of_mem _ listed, there⟩

/-- Of two lists related item by item, each item of the second is related to one of the first. -/
theorem exists_of_mem_right {R : α → β → Prop} {items : List α} {results : List β}
    (related : List.Forall₂ R items results) {b : β} (mem : b ∈ results) : ∃ a ∈ items, R a b :=
  exists_of_mem_left related.flip mem

/-- Lists that are related item by item to a list between them are related item by item. -/
theorem forall₂_trans {γ : Type} {R : α → β → Prop} {S : β → γ → Prop} {T : α → γ → Prop}
    (step : ∀ a b c, R a b → S b c → T a c) {items : List α} {results : List β} {others : List γ}
    (first : List.Forall₂ R items results) (second : List.Forall₂ S results others) :
    List.Forall₂ T items others := by
  induction first generalizing others with
  | nil =>
    cases second
    exact .nil
  | cons here _ ih =>
    cases second with
    | cons there below => exact .cons (step _ _ _ here there) (ih below)

/-- Items have results with given marks when each of them has one with its mark. -/
theorem exists_forall₂_map_iff {γ : Type} {R : α → β → Prop} {mark : β → γ} {items : List α}
    {marks : List γ} :
    (∃ results, List.Forall₂ R items results ∧ results.map mark = marks) ↔
      List.Forall₂ (fun a c => ∃ b, R a b ∧ mark b = c) items marks := by
  constructor
  · rintro ⟨results, related, rfl⟩
    rw [List.forall₂_map_right_iff]
    exact related.imp fun a b here => ⟨b, here, rfl⟩
  · intro related
    induction related with
    | nil => exact ⟨[], .nil, rfl⟩
    | cons here _ ih =>
      obtain ⟨b, result, rfl⟩ := here
      obtain ⟨results, others, rfl⟩ := ih
      exact ⟨b :: results, .cons result others, rfl⟩

/-- What is mapped to three results are three items. -/
theorem exists_of_map_eq_three {f : α → β} {items : List α} {x y z : β}
    (results : items.map f = [x, y, z]) :
    ∃ a b c, items = [a, b, c] ∧ f a = x ∧ f b = y ∧ f c = z := by
  obtain ⟨a, _, rfl, first, two⟩ := List.map_eq_cons_iff.mp results
  obtain ⟨b, _, rfl, second, one⟩ := List.map_eq_cons_iff.mp two
  obtain ⟨c, _, rfl, third, ended⟩ := List.map_eq_cons_iff.mp one
  cases List.map_eq_nil_iff.mp ended
  exact ⟨a, b, c, rfl, first, second, third⟩

/-- Items have results when each of them has one. -/
theorem exists_forall₂_iff {R : α → β → Prop} {items : List α} :
    (∃ results, List.Forall₂ R items results) ↔ ∀ a ∈ items, ∃ b, R a b := by
  constructor
  · rintro ⟨results, related⟩ a mem
    obtain ⟨b, -, here⟩ := exists_of_mem_left related mem
    exact ⟨b, here⟩
  · intro each
    induction items with
    | nil => exact ⟨[], .nil⟩
    | cons a rest ih =>
      obtain ⟨⟨b, here⟩, others⟩ := List.forall_mem_cons.mp each
      obtain ⟨results, below⟩ := ih others
      exact ⟨b :: results, .cons here below⟩

/-- Items that determine what they are related to are mapped to it. -/
theorem exists_map_of_forall₂ [Nonempty β] {R : α → β → Prop} {items : List α} {results : List β}
    (unique : ∀ a b c, R a b → R a c → b = c) (related : List.Forall₂ R items results) :
    ∃ f : α → β, results = items.map f ∧ ∀ a ∈ items, R a (f a) := by
  refine ⟨fun a => Classical.epsilon (R a), ?_, ?_⟩
  · induction related with
    | nil => rfl
    | cons here _ ih =>
      rw [List.map_cons, ← ih]
      exact congrArg (· :: _) (unique _ _ _ here (Classical.epsilon_spec ⟨_, here⟩))
  · induction related with
    | nil => exact nofun
    | cons here _ ih =>
      exact List.forall_mem_cons.mpr ⟨Classical.epsilon_spec ⟨_, here⟩, ih⟩

/-- Each entry of a list is read back to what it was printed from. -/
theorem mapM_map_eq_some {γ : Type} {read : β → Option γ} {print : α → β} {value : α → γ}
    {items : List α} (each : ∀ a ∈ items, read (print a) = some (value a)) :
    (items.map print).mapM read = some (items.map value) := by
  induction items with
  | nil => rfl
  | cons a rest ih =>
    obtain ⟨here, below⟩ := List.forall_mem_cons.mp each
    rw [List.map_cons, List.mapM_cons, here, ih below]
    rfl

end FieldTables.Outcome
