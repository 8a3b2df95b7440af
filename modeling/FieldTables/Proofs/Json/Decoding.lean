import FieldTables.Proofs.Json.Printing
import FieldTables.Proofs.Outcome

/-!
# Headers in their JSON values

A header is found again in the value that it is written as: every structure and every field under
its own name and in its place, with every line, type, length and path. The printed text of a header
has one value by the grammar, so the text determines the header.
-/

namespace FieldTables

open Outcome

namespace Json

/-- The number that a value is, if it is a natural one. -/
def nat? : Json → Option Nat
  | .number digits => if digits.all Char.isDigit then some (Nat.ofDigitChars 10 digits 0) else none
  | _ => none

/-- The text that a value is, or nothing where the value is null. -/
def optional? : Json → Option (Option Text)
  | .null => some none
  | j => j.text?.map some

/-- The values of an object that has members with the given names, in this order and no others. -/
def record? (names : List Text) : Json → Option (List Json)
  | .object members =>
    if members.map Prod.fst = names.map some then some (members.map Prod.snd) else none
  | _ => none

/-- The entries of an object, each under its own name, in order. -/
def roster? {α : Type} [Named α] (ofJson? : Json → Option α) : Json → Option (Roster α)
  | .object members => do
    let entries ← members.mapM fun member => ofJson? member.2
    if own : members.map Prod.fst = entries.map (some ∘ Named.name) ∧
        (entries.map Named.name).Nodup then
      some ⟨entries, own.2⟩
    else none
  | _ => none

@[simp] theorem text?_ofText (t : Text) : (ofText t).text? = some t := rfl

@[simp] theorem optional?_ofText? (t : Option Text) : (ofText? t).optional? = some t := by
  cases t <;> rfl

@[simp] theorem nat?_ofNat (n : Nat) : (ofNat n).nat? = some n := by
  have digits : (Text.decimal n).all Char.isDigit = true :=
    List.all_eq_true.mpr (isDigits_decimal n).digits
  rw [ofNat, nat?, if_pos digits]
  exact congrArg some Nat.ofDigitChars_ten_toDigits

@[simp] theorem texts?_array_ofText (ts : List Text) :
    (Json.array (ts.map .ofText)).texts? = some ts := by
  have each : (ts.map ofText).mapM text? = some (ts.map id) := mapM_map_eq_some fun t _ => rfl
  rwa [List.map_id] at each

/-- An object has the values of the members that it was made of. -/
theorem record?_ofMembers (members : List (Text × Json)) :
    (ofMembers members).record? (members.map Prod.fst) = some (members.map Prod.snd) := by
  have names : (members.map fun m => (some m.1, m.2)).map Prod.fst =
      (members.map Prod.fst).map some := by simp
  rw [ofMembers, record?, if_pos names, List.map_map]
  rfl

/-- A roster is found again in the object of its entries when each entry is. -/
theorem roster?_ofMembers {α : Type} [Named α] {ofJson? : Json → Option α} {toJson : α → Json}
    (reads : ∀ a, ofJson? (toJson a) = some a) (r : Roster α) :
    (ofMembers (r.entries.map fun a => (Named.name a, toJson a))).roster? ofJson? = some r := by
  have read : (r.entries.map fun a => (some (Named.name a), toJson a)).mapM
      (fun member => ofJson? member.2) = some (r.entries.map id) :=
    mapM_map_eq_some fun a _ => reads a
  have own : (r.entries.map fun a => (some (Named.name a), toJson a)).map Prod.fst =
      r.entries.map (some ∘ Named.name) ∧ (r.entries.map Named.name).Nodup := by
    refine ⟨?_, r.distinct⟩
    rw [List.map_map]
    rfl
  rw [List.map_id] at read
  rw [ofMembers, List.map_map]
  exact (congrArg (Option.bind · _) read).trans (dif_pos own)

end Json

open Json

/-- The field that a value describes. -/
def Field.ofJson? (j : Json) : Option Field := do
  let [name, line, type, inner, length, path] ← j.record? ["name".toList, "line".toList,
    "type_text".toList, "struct_ref".toList, "array_len".toList, "path".toList] | none
  return {
    name := ← name.text?
    line := ← line.nat?
    type := ← type.text?
    inner := ← inner.optional?
    length := ← length.optional?
    path := ← path.texts? }

/-- The structure that a value describes. -/
def Structure.ofJson? (j : Json) : Option Structure := do
  let [name, line, fields] ← j.record? ["name".toList, "line".toList, "fields".toList] | none
  return {
    name := ← name.text?
    line := ← line.nat?
    fields := ← fields.roster? Field.ofJson? }

/-- The header that a value describes. -/
def Header.ofJson? (j : Json) : Option Header := do
  let [structures] ← j.record? ["structures".toList] | none
  structures.roster? Structure.ofJson?

theorem Field.ofJson?_toJson (f : Field) : ofJson? f.toJson = some f := by
  have values := record?_ofMembers
    [("name".toList, .ofText f.name), ("line".toList, .ofNat f.line),
     ("type_text".toList, .ofText f.type), ("struct_ref".toList, .ofText? f.inner),
     ("array_len".toList, .ofText? f.length), ("path".toList, .array (f.path.map .ofText))]
  simp only [List.map_cons, List.map_nil] at values
  rw [ofJson?, toJson, values]
  simp

theorem Structure.ofJson?_toJson (s : Structure) : ofJson? s.toJson = some s := by
  have values := record?_ofMembers
    [("name".toList, .ofText s.name), ("line".toList, .ofNat s.line),
     ("fields".toList, .ofMembers (s.fields.entries.map fun f => (f.name, f.toJson)))]
  have fields : (ofMembers (s.fields.entries.map fun f => (f.name, f.toJson))).roster?
      Field.ofJson? = some s.fields := roster?_ofMembers Field.ofJson?_toJson s.fields
  simp only [List.map_cons, List.map_nil] at values
  rw [ofJson?, toJson, values]
  simp [fields]

theorem Header.ofJson?_toJson (h : Header) : ofJson? h.toJson = some h := by
  have values := record?_ofMembers
    [("structures".toList, .ofMembers (h.entries.map fun s => (s.name, s.toJson)))]
  simp only [List.map_cons, List.map_nil] at values
  rw [ofJson?, toJson, values]
  exact roster?_ofMembers Structure.ofJson?_toJson h

namespace Header

/-- A header is printed by the grammar of JSON. Every value that the printed text is written for by
the grammar describes that header again, in all its parts and in their order, so no other header is
printed alike. -/
theorem pretty_toJson_determines (h : Header) :
    Written (.element h.toJson) h.toJson.pretty ∧
      (∀ j, Written (.element j) h.toJson.pretty → ofJson? j = some h) ∧
      ∀ g : Header, g.toJson.pretty = h.toJson.pretty → g = h := by
  have written : ∀ h : Header, Written (.element h.toJson) h.toJson.pretty := fun h => by
    have whole := Written.element blank_nil (h.printable_toJson 0) blank_nil
    rwa [List.append_nil] at whole
  refine ⟨written h, fun j other => ?_, fun g same => ?_⟩
  · rw [other.unique (written h), ofJson?_toJson]
  · have alike := written g
    rw [same] at alike
    have values := congrArg ofJson? (alike.unique (written h))
    rwa [ofJson?_toJson, ofJson?_toJson, Option.some.injEq] at values

end Header

end FieldTables
