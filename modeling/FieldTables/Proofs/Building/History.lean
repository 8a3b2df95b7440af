import FieldTables.Proofs.Building.Picture
import Mathlib.Data.List.Induction

/-!
# Histories of calls

Calls are made on a new builder one behind the other, and some of them fail. The calls that succeed
spell out, one by one, the header that is built, so the others might as well not have been made. Why
a call fails can be told from the calls before it.
-/

namespace FieldTables

variable {h grown : Header} {s : Structure} {f : Field} {c : Call} {calls : List Call} {e : Error}

namespace Header

/-- A call that succeeds is spelled out behind those that were. -/
theorem calls_of_apply (ok : c.apply h = .ok grown) : grown.calls = h.calls ++ [c] := by
  cases c with
  | beginStructure name line =>
    have entries := addStructure_eq_ok_iff.mp ok
    rw [calls, entries, List.flatMap_append]
    rfl
  | pushField f =>
    rcases eq_empty_or_exists_last h with empty | ⟨before, s, last⟩
    · cases ok.symm.trans (addField_of_empty empty)
    · obtain ⟨t, name, line, fields, entries⟩ := (addField_eq_ok_iff last).mp ok
      rw [calls, calls, entries, last]
      simp [name, line, fields]

/-- The structures that spelled out calls open are those of the header. -/
theorem filterMap_opens?_calls (h : Header) : h.calls.filterMap Call.opens? = h.names := by
  have pushes : ∀ fields : List Field, (fields.map Call.pushField).filterMap Call.opens? = [] := by
    intro fields
    rw [List.filterMap_map, List.filterMap_eq_nil_iff]
    exact fun _ _ => rfl
  rw [calls, Roster.names]
  induction h.entries with
  | nil => rfl
  | cons s rest ih =>
    rw [List.flatMap_cons, List.filterMap_append, List.filterMap_cons, pushes, ih]
    rfl

/-- A call adds the tag that it opens, if it is new. -/
theorem names_take (h : Header) (c : Call) :
    (h.take c).names = h.names ++ (c.opens?.toList.removeAll h.names) := by
  cases outcome : c.apply h with
  | error e =>
    rw [take_of_error outcome]
    cases c with
    | beginStructure name line =>
      obtain ⟨taken, -⟩ := addStructure_eq_error_iff.mp outcome
      simp [Call.opens?, List.removeAll, taken]
    | pushField f => exact (List.append_nil _).symm
  | ok grown =>
    rw [take_of_ok outcome]
    cases c with
    | beginStructure name line =>
      have entries := addStructure_eq_ok_iff.mp outcome
      have fresh : name ∉ h.names := name_notMem_of_entries entries
      have added : [name].removeAll h.names = [name] := by simp [List.removeAll, fresh]
      rw [Call.opens?, Option.toList_some, added, Roster.names, entries, List.map_append]
      rfl
    | pushField f =>
      have same : grown.calls.filterMap Call.opens? = h.calls.filterMap Call.opens? := by
        rw [calls_of_apply outcome, List.filterMap_append]
        exact List.append_nil _
      rw [← filterMap_opens?_calls, ← filterMap_opens?_calls, same]
      exact (List.append_nil _).symm

/-- The tags are those that calls open, each where it comes first. -/
theorem names_ofCalls (calls : List Call) :
    (ofCalls calls).names = (calls.filterMap Call.opens?).eraseDups := by
  induction calls using List.reverseRecOn with
  | nil => rfl
  | append_singleton calls c ih =>
    have added : [c].filterMap Call.opens? = c.opens?.toList := by cases c <;> rfl
    have step : ofCalls (calls ++ [c]) = (ofCalls calls).take c := List.foldl_concat ..
    rw [step, names_take, ih, List.filterMap_append, List.eraseDups_append, added]
    generalize calls.filterMap Call.opens? = opened
    cases c.opens? with
    | none => rfl
    | some name =>
      by_cases known : name ∈ opened <;> simp [List.removeAll, known, List.eraseDups_cons]

end Header

namespace Builder

/-- Calls do to the picture of a header what growing does to the header. -/
theorem after_builder (h : Header) (calls : List Call) :
    after h.builder calls = (calls.foldl Header.take h).builder := by
  induction calls generalizing h with
  | nil => rfl
  | cons c rest ih =>
    rw [after, List.foldl_cons, Call.run_builder]
    exact ih (h.take c)

/-- A call is accepted when the header grows by it. -/
theorem accepted_builder_cons (h : Header) (c : Call) (rest : List Call) :
    accepted h.builder (c :: rest) =
      (if (c.apply h).isOk then [c] else []) ++ accepted (h.take c).builder rest := by
  rw [accepted, Call.run_builder]
  cases c.apply h with
  | error e => rfl
  | ok grown => rfl

/-- The calls that are accepted spell out what is built by all of them. -/
theorem calls_append_accepted (h : Header) (calls : List Call) :
    h.calls ++ accepted h.builder calls = (calls.foldl Header.take h).calls := by
  induction calls generalizing h with
  | nil => exact List.append_nil _
  | cons c rest ih =>
    rw [accepted_builder_cons, List.foldl_cons, ← ih (h.take c), ← List.append_assoc]
    cases outcome : c.apply h with
    | error e =>
      rw [Header.take_of_error outcome]
      simp [Except.isOk, Except.toBool]
    | ok grown =>
      rw [Header.take_of_ok outcome, Header.calls_of_apply outcome]
      rfl

/-- The calls that are accepted build the same alone, and are accepted again. -/
theorem accepted_builder_accepted (h : Header) (calls : List Call) :
    (accepted h.builder calls).foldl Header.take h = calls.foldl Header.take h ∧
      accepted h.builder (accepted h.builder calls) = accepted h.builder calls := by
  induction calls generalizing h with
  | nil => exact ⟨rfl, rfl⟩
  | cons c rest ih =>
    rw [accepted_builder_cons, List.foldl_cons]
    cases outcome : c.apply h with
    | error e =>
      rw [Header.take_of_error outcome]
      exact ih h
    | ok grown =>
      obtain ⟨same, again⟩ := ih grown
      rw [Header.take_of_ok outcome]
      refine ⟨?_, ?_⟩
      · change (accepted grown.builder rest).foldl Header.take (h.take c) = _
        rw [Header.take_of_ok outcome, same]
      · change accepted h.builder (c :: accepted grown.builder rest) = c :: _
        rw [accepted_builder_cons, Header.take_of_ok outcome, outcome, again]
        rfl

/-- The tag that the last successful opening among some calls opened. -/
def lastOpened? (calls : List Call) : Option Text :=
  ((accepted {} calls).filterMap Call.opens?).getLast?

/-- The structures that successful calls open are those of the header. -/
theorem lastOpened?_eq (calls : List Call) :
    lastOpened? calls = (Header.ofCalls calls).names.getLast? := by
  have spelled : accepted {} calls = (Header.ofCalls calls).calls :=
    calls_append_accepted .empty calls
  rw [lastOpened?, spelled, Header.filterMap_opens?_calls]

/-- Why a call fails behind other calls. -/
inductive Refuses (calls : List Call) : Call → Error → Prop
  /-- The tag was opened before, whether that failed or not. -/
  | reopened {name : Text} {line : Nat} : name ∈ calls.filterMap Call.opens? →
      Refuses calls (.beginStructure name line) (.duplicateStructure name)
  /-- No structure was opened. -/
  | orphan {f : Field} : lastOpened? calls = none →
      Refuses calls (.pushField f) (.syntactic f.line 1 (.orphan f.name))
  /-- The structure that was opened last has a field of that name. -/
  | repeated {f : Field} {s : Structure} : lastOpened? calls = some s.name →
      (Header.ofCalls calls).find? s.name = some s → f.name ∈ s.fields.names →
      Refuses calls (.pushField f) (.duplicateField s.name f.name)

/-- A field goes to the structure that was opened last. -/
structure Places (calls : List Call) (f : Field) (before : List Structure) (s t : Structure) :
    Prop where
  /-- The structure was opened last. -/
  opened : lastOpened? calls = some s.name
  /-- It stands last in the header. -/
  last : (Header.ofCalls calls).entries = before ++ [s]
  /-- The other structures stay, and it changes in its place. -/
  others : (Header.ofCalls (calls ++ [.pushField f])).entries = before ++ [t]
  /-- It keeps its tag. -/
  name : t.name = s.name
  /-- It keeps its line. -/
  line : t.line = s.line
  /-- The field is its new last one. -/
  fields : t.fields.entries = s.fields.entries ++ [f]

/-- What calls on a new builder come to, and what one more call does. -/
structure Follows (calls : List Call) : Prop where
  /-- The builder is the picture of the header that grows by the calls: every structure and field
  stands under its own name, no two under one. -/
  picture : after {} calls = (Header.ofCalls calls).builder
  /-- What is built has the structures of that header. -/
  finished : (after {} calls).finish = .ofNamed Structure.draft (Header.ofCalls calls).entries
  /-- The calls that succeed spell the header out: each structure where it is opened, with its
  fields behind it in the order in which they are added. -/
  spelled : accepted {} calls = (Header.ofCalls calls).calls
  /-- The same is built by the calls that succeed alone. -/
  alone : after {} (accepted {} calls) = after {} calls
  /-- They all succeed when they are made alone. -/
  again : accepted {} (accepted {} calls) = accepted {} calls
  /-- The structures stand in the order in which their tags were first opened. -/
  order : (Header.ofCalls calls).names = (calls.filterMap Call.opens?).eraseDups
  /-- A call fails exactly for one of the reasons there are. -/
  refused : ∀ (c : Call) (e : Error),
    (c.run (after {} calls)).1 = .error e ↔ Refuses calls c e
  /-- A call that fails leaves the builder as it was. -/
  unchanged : ∀ (c : Call) (e : Error), (c.run (after {} calls)).1 = .error e →
    (c.run (after {} calls)).2 = after {} calls
  /-- A field that is added goes to the structure that was opened last. -/
  placed : ∀ f, (Call.run (after {} calls) (.pushField f)).1 = .ok () →
    ∃ before s t, Places calls f before s t

/-- The structure that stands last was opened last. -/
theorem lastOpened?_of_entries {before : List Structure}
    (last : (Header.ofCalls calls).entries = before ++ [s]) : lastOpened? calls = some s.name := by
  rw [lastOpened?_eq, Roster.names, last, List.map_append, List.map_singleton,
    List.getLast?_concat]
  rfl

/-- Growing fails for the reasons that calls fail for. -/
theorem apply_eq_error_iff (calls : List Call) (c : Call) (e : Error) :
    c.apply (Header.ofCalls calls) = .error e ↔ Refuses calls c e := by
  cases c with
  | beginStructure name line =>
    rw [Call.apply, Header.addStructure_eq_error_iff, Header.names_ofCalls, List.mem_eraseDups]
    constructor
    · rintro ⟨known, rfl⟩
      exact .reopened known
    · rintro ⟨known⟩
      exact ⟨known, rfl⟩
  | pushField f =>
    rw [Call.apply]
    rcases (Header.ofCalls calls).eq_empty_or_exists_last with empty | ⟨before, s, last⟩
    · have nowhere : lastOpened? calls = none := by
        rw [lastOpened?_eq, Roster.names, empty]
        rfl
      rw [Header.addField_of_empty empty]
      constructor
      · rintro ⟨⟩
        exact .orphan nowhere
      · rintro (_ | _ | opened)
        · rfl
        · cases nowhere.symm.trans opened
    · have opened := lastOpened?_of_entries last
      have mem : s ∈ (Header.ofCalls calls).entries := by simp [last]
      have found : (Header.ofCalls calls).find? s.name = some s := Roster.find?_name_of_mem mem
      rw [Header.addField_eq_error_iff last]
      constructor
      · rintro ⟨taken, rfl⟩
        exact .repeated opened found taken
      · rintro (_ | nowhere | ⟨opened', found', taken⟩)
        · cases nowhere.symm.trans opened
        · rw [opened, Option.some.injEq] at opened'
          rw [← opened', found, Option.some.injEq] at found'
          subst found'
          exact ⟨taken, rfl⟩

/-- Whatever calls are made on a new builder, it holds the header that the successful ones spell
out; the next call fails exactly for one of the reasons there are, and changes nothing then. -/
theorem after_follows (calls : List Call) : Follows calls where
  picture := after_builder .empty calls
  finished := congrArg finish (after_builder .empty calls)
  spelled := calls_append_accepted .empty calls
  alone := by
    have picture : ∀ calls, after {} calls = (Header.ofCalls calls).builder := after_builder .empty
    rw [picture, picture]
    exact congrArg Header.builder (accepted_builder_accepted .empty calls).1
  again := (accepted_builder_accepted .empty calls).2
  order := Header.names_ofCalls calls
  refused := by
    intro c e
    have picture : after {} calls = (Header.ofCalls calls).builder := after_builder .empty calls
    rw [picture, Call.run_builder, ← apply_eq_error_iff]
    cases c.apply (Header.ofCalls calls) with
    | error e' =>
      constructor <;>
        · rintro ⟨⟩
          rfl
    | ok grown => exact iff_of_false nofun nofun
  unchanged := fun c e failed => Call.run_eq_self_of_error failed
  placed := by
    intro f ok
    have picture : after {} calls = (Header.ofCalls calls).builder := after_builder .empty calls
    have step : Header.ofCalls (calls ++ [.pushField f]) =
        (Header.ofCalls calls).take (.pushField f) := List.foldl_concat ..
    rw [picture, Call.run_builder] at ok
    cases outcome : (Call.pushField f).apply (Header.ofCalls calls) with
    | error e =>
      rw [outcome] at ok
      cases ok
    | ok grown =>
      rcases (Header.ofCalls calls).eq_empty_or_exists_last with empty | ⟨before, s, last⟩
      · cases outcome.symm.trans (Header.addField_of_empty empty)
      · obtain ⟨t, name, line, fields, entries⟩ := (Header.addField_eq_ok_iff last).mp outcome
        rw [← Header.take_of_ok outcome, ← step] at entries
        exact ⟨before, s, t, lastOpened?_of_entries last, last, entries, name, line, fields⟩

/-- A field in front of every structure, a tag that is opened again and a name that is repeated are
refused; behind the refused opening fields go on to the structure that was opened last. -/
example :
    let x : Call := .pushField (.declared "x".toList "int".toList 3)
    let y : Call := .pushField (.declared "y".toList "int".toList 4)
    let a : Call := .beginStructure "a".toList 1
    let b : Call := .beginStructure "b".toList 2
    accepted {} [x, a, x, b, a, x, x, y] = [a, x, b, x, y] := by decide

end Builder

end FieldTables
