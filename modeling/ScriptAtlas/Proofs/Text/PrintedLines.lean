import Mathlib.Data.List.Basic
import ScriptAtlas.Line.Construct
import ScriptAtlas.Proofs.Json.Printing
import ScriptAtlas.Proofs.Text.Erasure

/-!
Printed lines against what they show. A mark divides a text in one way if it stands
on one side only (`eq_of_append_cons`, `eq_of_append_cons_of_last`), indentation ends
where the first other character stands (`eq_of_indented`), and lines without line breaks
of their own are found again in the text that they make up (`eq_of_printed`).
-/
namespace ScriptAtlas.Text

variable {α β γ δ : Type} {c : Char} {s t u v : Text}

/-- A mark that is in neither beginning stands behind both. -/
theorem eq_of_append_cons (first : c ∉ s) (first' : c ∉ t) (same : s ++ c :: u = t ++ c :: v) : s = t ∧ u = v := by
  have cut := cutAt_append first u
  rw [same, cutAt_append first' v] at cut
  simpa [eq_comm] using cut

/-- A mark that is in neither end stands before both. -/
theorem eq_of_append_cons_of_last (last : c ∉ u) (last' : c ∉ v) (same : s ++ c :: u = t ++ c :: v) :
    s = t ∧ u = v := by
  have backwards : u.reverse ++ c :: s.reverse = v.reverse ++ c :: t.reverse := by
    simpa using congrArg List.reverse same
  have parts := eq_of_append_cons (by simpa using last) (by simpa using last') backwards
  simpa [and_comm] using parts

/-- Where no space follows, two spaces for each level show the level. -/
theorem eq_of_indented {n m : Nat} (ink : s.head? ≠ some ' ') (ink' : t.head? ≠ some ' ')
    (same : repeated n [' ', ' '] ++ s = repeated m [' ', ' '] ++ t) : n = m ∧ s = t := by
  induction n generalizing m with
  | zero =>
    cases m with
    | zero => exact ⟨rfl, same⟩
    | succ m =>
      rw [repeated_succ] at same
      have spaced : s = ' ' :: ' ' :: (repeated m [' ', ' '] ++ t) := same
      simp [spaced] at ink
  | succ n ih =>
    cases m with
    | zero =>
      rw [repeated_succ] at same
      have spaced : ' ' :: ' ' :: (repeated n [' ', ' '] ++ s) = t := same
      simp [← spaced] at ink'
    | succ m =>
      rw [repeated_succ, repeated_succ, List.append_assoc, List.append_assoc] at same
      obtain ⟨rfl, rest⟩ := ih (List.append_cancel_left same)
      exact ⟨rfl, rest⟩

theorem not_mem_indent (other : c ≠ ' ') (n : Nat) : c ∉ repeated n [' ', ' '] := by
  induction n with
  | zero => exact List.not_mem_nil
  | succ n ih =>
    rw [repeated_succ]
    simp [other, ih]

/-- Digits are the only characters of a number. -/
theorem not_mem_ofNat (other : c.isDigit = false) (n : Nat) : c ∉ ofNat n := by
  intro member
  have digit := List.all_eq_true.mp (Json.isDigit_ofNat n) c member
  rw [other] at digit
  cases digit

theorem eq_of_ofNat_eq {n m : Nat} (same : ofNat n = ofNat m) : n = m :=
  (Json.eq_of_ofNat Json.ends_nil Json.ends_nil (congrArg (· ++ []) same)).1

/-- Lists that look alike item by item look alike by all that the look tells. -/
theorem map_eq_of_map_eq {look : α → δ} {look' : β → δ} {view : α → γ} {view' : β → γ} {xs : List α} {ys : List β}
    (same : xs.map look = ys.map look') (tells : ∀ x ∈ xs, ∀ y ∈ ys, look x = look' y → view x = view' y) :
    xs.map view = ys.map view' := by
  induction xs generalizing ys with
  | nil => rw [List.map_eq_nil_iff.mp same.symm, List.map_nil, List.map_nil]
  | cons x xs ih =>
    obtain ⟨y, rest, rfl, here, later⟩ := List.map_eq_cons_iff.mp same.symm
    simp only [List.forall_mem_cons] at tells
    rw [List.map_cons, List.map_cons, tells.1.1 here.symm, ih later.symm fun z member => (tells.2 z member).2]

/-- Lines without line breaks of their own, each with one behind it, are found again in
    the text that they make up. -/
theorem eq_of_printed {xs ys : List Text} (unbroken : ∀ line ∈ xs, '\n' ∉ line) (unbroken' : ∀ line ∈ ys, '\n' ∉ line)
    (same : (xs.flatMap fun line => line ++ ['\n']) = ys.flatMap fun line => line ++ ['\n']) : xs = ys := by
  induction xs generalizing ys with
  | nil =>
    cases ys with
    | nil => rfl
    | cons y ys => simp at same
  | cons x xs ih =>
    cases ys with
    | nil => simp at same
    | cons y ys =>
      simp only [List.flatMap_cons, List.append_assoc, List.singleton_append] at same
      simp only [List.forall_mem_cons] at unbroken unbroken'
      obtain ⟨rfl, rest⟩ := eq_of_append_cons unbroken.1 unbroken'.1 same
      rw [ih unbroken.2 unbroken'.2 rest]

end ScriptAtlas.Text

namespace ScriptAtlas.Kind

theorem eq_of_tag {k l : Kind} (same : k.tag = l.tag) : k = l := by
  have found := ofTag?_tag k
  rw [same, ofTag?_tag l] at found
  exact (Option.some.inj found).symm

theorem head?_tag_append (k : Kind) (s : Text) : (k.tag ++ s).head? ≠ some ' ' := by
  cases k <;> exact fun same => by cases same

/-- The marks that stand behind tags in printed lines are in none of them. -/
theorem not_mem_tag (k : Kind) : ' ' ∉ k.tag ∧ '@' ∉ k.tag ∧ '\n' ∉ k.tag := by
  cases k <;> decide

end ScriptAtlas.Kind
