import ScriptAtlas.Proofs.Json.Containers

/-!
Printed values are different for different values. What stands behind a printed
value shows where it ends, so no text begins with two of them
(`Value.Determined`, `determined`), and a printed value is that of one value
only (`print_injective`). This holds for numbers of any size, also those that no
reader accepts.
-/
namespace ScriptAtlas.Json

/-! ### Numbers and texts -/

theorem eq_of_ofNat {n m : Nat} {s t : Text} (ends : Ends s) (ends' : Ends t)
    (same : Text.ofNat n ++ s = Text.ofNat m ++ t) : n = m ∧ s = t := by
  have value : ∀ k, Nat.ofDigitChars 10 (Text.ofNat k) 0 = k := fun k =>
    Nat.ofDigitChars_toDigits (by decide) (by decide)
  -- Gathering digits up to a limit that neither number exceeds reads both.
  obtain ⟨p, left⟩ := exists_gatherFrom (isDigit_ofNat n) ends.not_isDigit {} 0 0
    ((value n).symm ▸ Nat.le_max_left n m)
  obtain ⟨q, right⟩ := exists_gatherFrom (isDigit_ofNat m) ends'.not_isDigit {} 0 0
    ((value m).symm ▸ Nat.le_max_right n m)
  rw [value] at left right
  have gathered := left.symm.trans ((congrArg (gatherFrom (max n m) · {} 0 0) same).trans right)
  simp only [Gathered.mk.injEq, Cursor.mk.injEq] at gathered
  exact ⟨gathered.1, gathered.2.2.1⟩

theorem eq_of_printedText {a b s t : Text} (same : printedText a ++ s = printedText b ++ t) : a = b ∧ s = t := by
  simp only [printedText, List.cons_append, List.append_assoc, List.nil_append, List.cons.injEq, true_and] at same
  obtain ⟨p, left⟩ := yields_readText a s {}
  obtain ⟨q, right⟩ := yields_readText b t {}
  have read := left.symm.trans ((congrArg (fun text => readText ⟨text, {}⟩) same).trans right)
  simp only [Except.ok.injEq, Prod.mk.injEq, Cursor.mk.injEq] at read
  exact ⟨read.1, read.2.1⟩

theorem eq_of_printedKey {key key' s t : Text}
    (same : printedText key ++ ':' :: ' ' :: s = printedText key' ++ ':' :: ' ' :: t) : key = key' ∧ s = t := by
  obtain ⟨keys, rest⟩ := eq_of_printedText same
  simp only [List.cons.injEq, true_and] at rest
  exact ⟨keys, rest⟩

/-! ### Values -/

theorem sizeOf_lt_object {m : Text × Value} {ms : List (Text × Value)} (member : m ∈ ms) :
    sizeOf m.2 < sizeOf (Value.object ms) := by
  have inside := List.sizeOf_lt_of_mem member
  rw [Value.object.sizeOf_spec]
  cases m
  simp only [Prod.mk.sizeOf_spec] at inside ⊢
  omega

/-- What tells apart the forms of printed values: their first characters, where
    all digits count as one. -/
def form (c : Char) : Char := if c.isDigit then '0' else c

def Value.form : Value → Char
  | .null => 'n'
  | .bool true => 't'
  | .bool false => 'f'
  | .number _ => '0'
  | .text _ => '"'
  | .array _ => '['
  | .object _ => '\x7b'

theorem exists_printAt_eq_cons (v : Value) (level : Nat) :
    ∃ c tail, v.printAt level = c :: tail ∧ Json.form c = v.form := by
  cases v with
  | null => exact ⟨_, _, rfl, rfl⟩
  | bool b => cases b <;> exact ⟨_, _, rfl, rfl⟩
  | number n =>
    obtain ⟨c, digits, written, digit, -⟩ := exists_ofNat_eq_cons n
    refine ⟨c, digits, by rw [Value.printAt, written], ?_⟩
    rw [Json.form, if_pos digit]
    rfl
  | text s => exact ⟨_, _, by rw [Value.printAt, printedText], rfl⟩
  | array items =>
    cases items with
    | nil => exact ⟨_, _, by rw [Value.printAt], rfl⟩
    | cons v items => exact ⟨_, _, by rw [Value.printAt]; rfl, rfl⟩
  | object members =>
    cases members with
    | nil => exact ⟨_, _, by rw [Value.printAt], rfl⟩
    | cons m members => exact ⟨_, _, by rw [Value.printAt]; rfl, rfl⟩

theorem form_eq_of_printAt {v w : Value} {level : Nat} {s t : Text}
    (same : v.printAt level ++ s = w.printAt level ++ t) : v.form = w.form := by
  obtain ⟨c, tail, printed, first⟩ := exists_printAt_eq_cons v level
  obtain ⟨d, tail', printed', first'⟩ := exists_printAt_eq_cons w level
  rw [printed, printed'] at same
  rw [← first, ← first', (List.cons.inj same).1]

/-! ### What is printed behind an element -/

/-- The printed elements behind another one, with what sets them apart from it. -/
def itemsBehind (level : Nat) : List Value → Text
  | [] => []
  | v :: vs => ',' :: '\n' :: printItems level (v :: vs)

def membersBehind (level : Nat) : List (Text × Value) → Text
  | [] => []
  | m :: ms => ',' :: '\n' :: printMembers level (m :: ms)

theorem printItems_cons (level : Nat) (v : Value) (vs : List Value) :
    printItems level (v :: vs) = margin level ++ (v.printAt level ++ itemsBehind level vs) := by
  cases vs <;> simp [printItems, itemsBehind]

theorem printMembers_cons (level : Nat) (m : Text × Value) (ms : List (Text × Value)) :
    printMembers level (m :: ms) =
      margin level ++ (printedText m.1 ++ ':' :: ' ' :: (m.2.printAt level ++ membersBehind level ms)) := by
  cases ms <;> simp [printMembers, membersBehind]

theorem ends_itemsBehind (level : Nat) (vs : List Value) (s : Text) : Ends (itemsBehind level vs ++ '\n' :: s) := by
  intro c first
  cases vs <;> cases first <;> rfl

theorem ends_membersBehind (level : Nat) (ms : List (Text × Value)) (s : Text) :
    Ends (membersBehind level ms ++ '\n' :: s) := by
  intro c first
  cases ms <;> cases first <;> rfl

/-! ### Values side by side -/

/-- A text that begins with the printed value does not begin with another one,
    if what stands behind it continues neither. -/
def Value.Determined (v : Value) : Prop :=
  ∀ {w : Value} {level : Nat} {s t : Text}, Ends s → Ends t →
    v.printAt level ++ s = w.printAt level ++ t → v = w ∧ s = t

theorem eq_of_printItems {v w : Value} {vs ws : List Value} (each : ∀ u ∈ v :: vs, u.Determined) {level : Nat} {s t : Text}
    (same : printItems level (v :: vs) ++ '\n' :: s = printItems level (w :: ws) ++ '\n' :: t) :
    v :: vs = w :: ws ∧ s = t := by
  induction vs generalizing v w ws with
  | nil =>
    simp only [printItems_cons, List.append_assoc] at same
    obtain ⟨rfl, rest⟩ := each v List.mem_cons_self (ends_itemsBehind level [] s) (ends_itemsBehind level ws t)
      (List.append_cancel_left same)
    cases ws with
    | nil => exact ⟨rfl, (List.cons.inj rest).2⟩
    | cons w' ws => cases rest
  | cons v' vs ih =>
    simp only [printItems_cons level v, printItems_cons level w, List.append_assoc] at same
    obtain ⟨rfl, rest⟩ := each v List.mem_cons_self (ends_itemsBehind level (v' :: vs) s) (ends_itemsBehind level ws t)
      (List.append_cancel_left same)
    cases ws with
    | nil => cases rest
    | cons w' ws =>
      simp only [itemsBehind, List.cons_append, List.cons.injEq, true_and] at rest
      obtain ⟨items, behind⟩ := ih (fun u member => each u (List.mem_cons_of_mem v member)) rest
      exact ⟨by rw [items], behind⟩

theorem eq_of_printMembers {m n : Text × Value} {ms ns : List (Text × Value)} (each : ∀ u ∈ m :: ms, u.2.Determined)
    {level : Nat} {s t : Text}
    (same : printMembers level (m :: ms) ++ '\n' :: s = printMembers level (n :: ns) ++ '\n' :: t) :
    m :: ms = n :: ns ∧ s = t := by
  induction ms generalizing m n ns with
  | nil =>
    simp only [printMembers_cons, List.append_assoc, List.cons_append] at same
    obtain ⟨keys, valued⟩ := eq_of_printedKey (List.append_cancel_left same)
    obtain ⟨values, rest⟩ := each m List.mem_cons_self (ends_membersBehind level [] s) (ends_membersBehind level ns t) valued
    cases ns with
    | nil => exact ⟨by rw [Prod.ext keys values], (List.cons.inj rest).2⟩
    | cons n' ns => cases rest
  | cons m' ms ih =>
    simp only [printMembers_cons level m, printMembers_cons level n, List.append_assoc, List.cons_append] at same
    obtain ⟨keys, valued⟩ := eq_of_printedKey (List.append_cancel_left same)
    obtain ⟨values, rest⟩ := each m List.mem_cons_self (ends_membersBehind level (m' :: ms) s)
      (ends_membersBehind level ns t) valued
    cases ns with
    | nil => cases rest
    | cons n' ns =>
      simp only [membersBehind, List.cons_append, List.cons.injEq, true_and] at rest
      obtain ⟨members, behind⟩ := ih (fun u member => each u (List.mem_cons_of_mem m member)) rest
      exact ⟨by rw [Prod.ext keys values, members], behind⟩

theorem determined (v : Value) : v.Determined := by
  intro w level s t ends ends' same
  have forms := form_eq_of_printAt same
  match v, w, forms with
  | .null, .null, _ => exact ⟨rfl, List.append_cancel_left same⟩
  | .bool true, .bool true, _ => exact ⟨rfl, List.append_cancel_left same⟩
  | .bool false, .bool false, _ => exact ⟨rfl, List.append_cancel_left same⟩
  | .number n, .number m, _ =>
    rw [Value.printAt, Value.printAt] at same
    obtain ⟨rfl, rest⟩ := eq_of_ofNat ends ends' same
    exact ⟨rfl, rest⟩
  | .text a, .text b, _ =>
    rw [Value.printAt, Value.printAt] at same
    obtain ⟨rfl, rest⟩ := eq_of_printedText same
    exact ⟨rfl, rest⟩
  | .array [], .array [], _ => exact ⟨rfl, List.append_cancel_left same⟩
  | .array [], .array (w :: ws), _ => cases same
  | .array (v :: vs), .array [], _ => cases same
  | .array (v :: vs), .array (w :: ws), _ =>
    rw [Value.printAt, Value.printAt] at same
    simp only [List.append_assoc, List.cons_append, List.nil_append, List.cons.injEq, true_and] at same
    obtain ⟨items, rest⟩ := eq_of_printItems (fun u _ => determined u) same
    exact ⟨congrArg Value.array items, (List.cons.inj (List.append_cancel_left rest)).2⟩
  | .object [], .object [], _ => exact ⟨rfl, List.append_cancel_left same⟩
  | .object [], .object (n :: ns), _ => cases same
  | .object (m :: ms), .object [], _ => cases same
  | .object (m :: ms), .object (n :: ns), _ =>
    rw [Value.printAt, Value.printAt] at same
    simp only [List.append_assoc, List.cons_append, List.nil_append, List.cons.injEq, true_and] at same
    obtain ⟨members, rest⟩ := eq_of_printMembers (fun u member => determined u.2) same
    exact ⟨congrArg Value.object members, (List.cons.inj (List.append_cancel_left rest)).2⟩
termination_by sizeOf v
decreasing_by
  · decreasing_tactic
  · exact sizeOf_lt_object member

/-- A value is determined by its printed form. -/
theorem print_injective {v w : Value} (same : v.print = w.print) : v = w :=
  (determined v ends_nil ends_nil (by rw [List.append_nil, List.append_nil]; exact same)).1

end ScriptAtlas.Json
