import ScriptAtlas.Proofs.Json.Overlay
import ScriptAtlas.Proofs.Json.Printing

/-!
Printed values are well-formed (`isValue_printAt`), and a printed object has the
members that were printed (`isObject_printAt`). So it is read as any object is:
if its members show the fields of a record, it shows the record (`Fills.shows`).
-/
namespace ScriptAtlas.Json

variable {α δ : Type}

/-! ### Printed values are well-formed -/

theorem isNumber_ofNat (n : Nat) : IsNumber (Text.ofNat n) := by
  have digits : IsDigits (Text.ofNat n) := by
    obtain ⟨c, tail, written, -⟩ := exists_ofNat_eq_cons n
    exact ⟨by rw [written]; exact List.cons_ne_nil c tail, isDigit_ofNat n⟩
  have leading : (Text.ofNat n).head? = some '0' → Text.ofNat n = ['0'] := by
    intro zero
    obtain rfl | positive := Nat.eq_zero_or_pos n
    · rfl
    · exact absurd zero (head?_ofNat_ne_zero positive)
  simpa using IsNumber.of (.inl rfl) digits leading .none .none

theorem isItems_itemsBehind {level : Nat} {vs : List Value} (each : ∀ v ∈ vs, IsValue (v.printAt level)) {gap : Text}
    (blank : isGap gap = true) : IsItems false (itemsBehind level vs ++ (gap ++ [']'])) := by
  induction vs with
  | nil => exact .close blank
  | cons v vs ih =>
    have others := ih fun w member => each w (List.mem_cons_of_mem v member)
    have items := IsItems.item (leads_newline level) (each v List.mem_cons_self) others
    rw [itemsBehind, printItems_cons]
    simpa only [List.append_assoc, List.cons_append] using items

/-- A member as it is printed: its key between quotes, and its value. -/
def printedMember (level : Nat) (m : Text × Value) : Text × Text := (m.1.flatMap printedChar, m.2.printAt level)

theorem isMembers_printed {level : Nat} {m : Text × Value} (value : IsValue (m.2.printAt level)) {first : Bool}
    {lead s : Text} (leads : Leads first lead) {written : List (Text × Text)} (others : IsMembers false s written) :
    IsMembers first (lead ++ (printedText m.1 ++ ':' :: ' ' :: (m.2.printAt level ++ s)))
      (printedMember level m :: written) := by
  have member := IsMembers.member leads (means_printed m.1).isContent isGap_nil isGap_blank value others
  simpa only [printedMember, printedText, List.append_assoc, List.cons_append, List.nil_append] using member

theorem isMembers_membersBehind {level : Nat} {ms : List (Text × Value)}
    (each : ∀ m ∈ ms, IsValue (m.2.printAt level)) {gap : Text} (blank : isGap gap = true) :
    IsMembers false (membersBehind level ms ++ (gap ++ ['\x7d'])) (ms.map (printedMember level)) := by
  induction ms with
  | nil => exact .close blank
  | cons m ms ih =>
    have others := ih fun n member => each n (List.mem_cons_of_mem m member)
    have members := isMembers_printed (each m List.mem_cons_self) (leads_newline level) others
    rw [membersBehind, printMembers_cons]
    simpa only [List.map_cons, List.append_assoc, List.cons_append] using members

theorem exists_isMembers_printAt (members : List (Text × Value)) (level : Nat)
    (each : ∀ m ∈ members, IsValue (m.2.printAt (level + 1))) :
    ∃ inside, (Value.object members).printAt level = '\x7b' :: inside ∧
      IsMembers true inside (members.map (printedMember (level + 1))) := by
  cases members with
  | nil => exact ⟨['\x7d'], rfl, .close isGap_nil⟩
  | cons m ms =>
    have others := isMembers_membersBehind (fun n member => each n (List.mem_cons_of_mem m member)) (isGap_newline level)
    refine ⟨_, ?_, isMembers_printed (each m List.mem_cons_self) (.first (isGap_newline (level + 1))) others⟩
    rw [Value.printAt, printMembers_cons]
    simp only [List.append_assoc, List.cons_append, List.nil_append]

theorem isValue_printAt (v : Value) (level : Nat) : IsValue (v.printAt level) := by
  match v with
  | .null => exact .null
  | .bool true => exact .bool true
  | .bool false => exact .bool false
  | .number n =>
    rw [Value.printAt]
    exact .number (isNumber_ofNat n)
  | .text s =>
    rw [Value.printAt]
    exact .text (means_printed s).isContent
  | .array [] => exact .array (.close isGap_nil)
  | .array (v :: vs) =>
    have others : IsItems false (itemsBehind (level + 1) vs ++ ('\n' :: margin level ++ [']'])) :=
      isItems_itemsBehind (fun w _ => isValue_printAt w (level + 1)) (isGap_newline level)
    have items := IsItems.item (.first (isGap_newline (level + 1))) (isValue_printAt v (level + 1)) others
    have array := IsValue.array items
    rw [Value.printAt, printItems_cons]
    simpa only [List.append_assoc, List.cons_append, List.nil_append] using array
  | .object members =>
    obtain ⟨inside, printed, list⟩ :=
      exists_isMembers_printAt members level fun m member => isValue_printAt m.2 (level + 1)
    rw [printed]
    exact .object list
termination_by sizeOf v
decreasing_by
  · decreasing_tactic
  · decreasing_tactic
  · exact sizeOf_lt_object member

theorem isObject_printAt (members : List (Text × Value)) (level : Nat) :
    IsObject ((Value.object members).printAt level) (members.map fun m => (m.1, m.2.printAt (level + 1))) := by
  obtain ⟨inside, printed, list⟩ :=
    exists_isMembers_printAt members level fun m _ => isValue_printAt m.2 (level + 1)
  refine ⟨inside, _, printed, list, ?_⟩
  rw [List.forall₂_map_left_iff, List.forall₂_map_right_iff]
  exact List.forall₂_same.mpr fun m _ => ⟨means_printed m.1, rfl⟩

/-! ### Printed records -/

/-- Members fill a draft field by field until it is another one. -/
inductive Fills (r : Record δ α) : δ → List (Text × Value) → δ → Prop
  | nil (d : δ) : Fills r d [] d
  | cons {d₁ d₂ d₃ : δ} {key : Text} {v : Value} {members : List (Text × Value)} {f : Field δ}
      (found : r.fields.find? (·.name == key) = some f) (fresh : f.isGiven d₁ = false)
      (shows : Shows (f.read d₁) v d₂) (others : Fills r d₂ members d₃) : Fills r d₁ ((key, v) :: members) d₃

theorem Fills.append {r : Record δ α} {d₁ d₂ d₃ : δ} {members others : List (Text × Value)}
    (fills : Fills r d₁ members d₂) (onwards : Fills r d₂ others d₃) : Fills r d₁ (members ++ others) d₃ := by
  induction fills with
  | nil => exact onwards
  | cons found fresh shows _ ih => exact .cons found fresh shows (ih onwards)

theorem Fills.overlays {r : Record δ α} {d d' : δ} {members : List (Text × Value)} (fills : Fills r d members d')
    (level : Nat) : Overlays Accepts r d (members.map fun m => (m.1, m.2.printAt level)) d' := by
  induction fills with
  | nil d => exact .nil d
  | cons found fresh shows _ ih => exact .cons (.field found fresh (shows level)) ih

/-- A printed object whose members complete the draft of a record shows the record. -/
theorem Fills.shows {r : Record δ α} {d : δ} {a : α} {members : List (Text × Value)}
    (fills : Fills r r.draft members d) (whole : r.finish d = .ok a) : Shows r.read (.object members) a :=
  fun level => (isObject_printAt members level).accepts (fills.overlays (level + 1)) whole

end ScriptAtlas.Json
