/-!
Patterns with gaps. A pattern is read along a list: an item of it stands for
one item of the list, a gap for any number of them. Reading keeps every end of
the list that can be left over, and since those are ends of one list, a gap
leaves just the ends of the longest. Main statement: `Glob.fits_iff`, a list is
accepted exactly when its items can be shared out among the parts in order.
-/
namespace ScriptAtlas

/-- A part of a pattern. -/
inductive Glob.Part (α : Type)
  | item (a : α)
  | gap
deriving DecidableEq, Repr

/-- A pattern for lists. -/
abbrev Glob (α : Type) := List (Glob.Part α)

namespace Glob

variable {α β : Type} (accepts : α → β → Bool)

/-- The ends of a list, the longest first. -/
def ends : List β → List (List β)
  | [] => [[]]
  | b :: l => (b :: l) :: ends l

/-- What follows the first item of a list if that item is accepted. -/
def afterItem (a : α) : List β → Option (List β)
  | [] => none
  | b :: l => if accepts a b then some l else none

/-- What can be left over when a pattern has been read along one of several
    ends of a list, which are given with the longest first. -/
def rests : Glob α → List (List β) → List (List β)
  | [], ls => ls
  | .item a :: p, ls => rests p (ls.filterMap (afterItem accepts a))
  | .gap :: p, ls => rests p ((ls.head?.map ends).getD [])

/-- Whether a pattern can be read along all of a list. -/
def fits (p : Glob α) (l : List β) : Bool := (rests accepts p [l]).any List.isEmpty

/-- The items of a list are shared out among the parts of a pattern: an accepted
    one to each item, any number to a gap. -/
inductive Fits : Glob α → List β → Prop
  | nil : Fits [] []
  | item {a b p l} : accepts a b → Fits p l → Fits (.item a :: p) (b :: l)
  | close {p l} : Fits p l → Fits (.gap :: p) l
  | widen {b p l} : Fits (.gap :: p) l → Fits (.gap :: p) (b :: l)

variable {accepts}

theorem mem_ends {l r : List β} : r ∈ ends l ↔ r <:+ l := by
  induction l with
  | nil => simp [ends]
  | cons b l ih => simp [ends, ih, List.suffix_cons_iff]

theorem pairwise_ends (l : List β) : (ends l).Pairwise fun l r => r <:+ l := by
  induction l with
  | nil => simp [ends]
  | cons b l ih =>
    refine List.pairwise_cons.2 ⟨fun r hr => ?_, ih⟩
    exact (mem_ends.1 hr).trans (List.suffix_cons b l)

theorem fits_gap_iff {p : Glob α} {l : List β} :
    Fits accepts (.gap :: p) l ↔ ∃ r, r <:+ l ∧ Fits accepts p r := by
  constructor
  · intro h
    generalize hq : Part.gap :: p = q at h
    induction h with
    | nil => cases hq
    | item => cases hq
    | close h => cases hq; exact ⟨_, List.suffix_refl _, h⟩
    | widen h ih =>
      obtain ⟨r, hr, h⟩ := ih hq
      exact ⟨r, hr.trans (List.suffix_cons _ _), h⟩
  · rintro ⟨r, ⟨s, rfl⟩, h⟩
    induction s with
    | nil => exact .close h
    | cons b s ih => exact .widen ih

theorem fits_item_iff {a : α} {p : Glob α} {l : List β} :
    Fits accepts (.item a :: p) l ↔ ∃ r, afterItem accepts a l = some r ∧ Fits accepts p r := by
  constructor
  · rintro (_ | ⟨ok, h⟩)
    exact ⟨_, by simp [afterItem, ok], h⟩
  · rintro ⟨r, hr, h⟩
    match l with
    | [] => simp [afterItem] at hr
    | b :: l =>
      simp only [afterItem, Option.ite_none_right_eq_some, Option.some.injEq] at hr
      obtain ⟨ok, rfl⟩ := hr
      exact .item ok h

theorem suffix_afterItem {a c : α} {l r l' r' : List β} (h : r <:+ l)
    (hl : afterItem accepts a l = some l') (hr : afterItem accepts c r = some r') : r' <:+ l' := by
  match l, r with
  | [], _ => simp [afterItem] at hl
  | _, [] => simp [afterItem] at hr
  | b :: l, d :: r =>
    simp only [afterItem, Option.ite_none_right_eq_some, Option.some.injEq] at hl hr
    obtain ⟨-, rfl⟩ := hl
    obtain ⟨-, rfl⟩ := hr
    rcases List.suffix_cons_iff.1 h with h | h
    · cases h
      exact List.suffix_refl _
    · exact (List.suffix_cons d r).trans h

theorem any_rests_iff {p : Glob α} {ls : List (List β)} (order : ls.Pairwise fun l r => r <:+ l) :
    (rests accepts p ls).any List.isEmpty ↔ ∃ l ∈ ls, Fits accepts p l := by
  induction p generalizing ls with
  | nil =>
    simp only [rests, List.any_eq_true, List.isEmpty_iff]
    constructor
    · rintro ⟨l, hl, rfl⟩
      exact ⟨[], hl, .nil⟩
    · rintro ⟨l, hl, _ | _⟩
      exact ⟨[], hl, rfl⟩
  | cons part p ih =>
    cases part with
    | item a =>
      rw [rests, ih]
      · simp only [List.mem_filterMap, fits_item_iff]
        constructor
        · rintro ⟨r, ⟨l, hl, hr⟩, h⟩
          exact ⟨l, hl, r, hr, h⟩
        · rintro ⟨l, hl, r, hr, h⟩
          exact ⟨r, ⟨l, hl, hr⟩, h⟩
      · exact order.filterMap (afterItem accepts a) fun l r h l' hl r' hr => suffix_afterItem h hl hr
    | gap =>
      cases ls with
      | nil => rw [rests, ih] <;> simp
      | cons longest ls =>
        rw [rests, ih (by simpa using pairwise_ends longest)]
        simp only [List.head?_cons, Option.map_some, Option.getD_some, mem_ends, fits_gap_iff]
        constructor
        · rintro ⟨r, hr, h⟩
          exact ⟨longest, .head _, r, hr, h⟩
        · rintro ⟨l, hl, r, hr, h⟩
          refine ⟨r, ?_, h⟩
          rcases List.mem_cons.1 hl with rfl | hl
          · exact hr
          · exact hr.trans (List.rel_of_pairwise_cons order hl)

theorem fits_iff {p : Glob α} {l : List β} : fits accepts p l ↔ Fits accepts p l :=
  (any_rests_iff (List.pairwise_singleton _ l)).trans (by simp)

end Glob
end ScriptAtlas
