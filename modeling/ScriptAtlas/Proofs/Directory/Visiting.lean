import Mathlib.Data.List.Nodup
import ScriptAtlas.Proofs.Path.Below

/-!
Walks through folders without ignore files. A file is told by the names that
lead to it (`FileTree.Holds`); in a well-named tree they lead to one file only
(`Holds.unique`). Where there are no rules the walk visits the files that are
neither hidden nor below a hidden folder, each once and in the order of the
entries (`walk_eq_map_seen`, `mem_seen_iff`, `pairwise_seen`), and other bytes
in them change nothing else (`seen_mapFiles`). What holds of a whole tree holds
at every place of it (`Spot.Plain.of_reach`).
-/
namespace ScriptAtlas
namespace FileTree

/-- To show something of every tree, show it of files and of folders from their entries. -/
theorem tree_induction {p : FileTree → Prop} (file : ∀ bytes, p (file bytes))
    (folder : ∀ es, (∀ e ∈ es, p e.2) → p (folder es)) : ∀ t, p t
  | .file bytes => file bytes
  | .folder es => folder es fun e _ => tree_induction file folder e.2
termination_by t => sizeOf t
decreasing_by
  rename_i member
  have smaller := List.sizeOf_lt_of_mem member
  obtain ⟨name, t⟩ := e
  simp only [Prod.mk.sizeOf_spec] at smaller
  simp only [FileTree.folder.sizeOf_spec]
  omega

/-! ### Files in a tree -/

/-- Names lead to a file with some bytes. -/
inductive Holds : FileTree → List Text → List UInt8 → Prop
  | here (bytes : List UInt8) : Holds (file bytes) [] bytes
  | within {es : List (Text × FileTree)} {e : Text × FileTree} {names : List Text} {bytes : List UInt8}
      (entry : e ∈ es) (rest : Holds e.2 names bytes) : Holds (folder es) (e.1 :: names) bytes

/-- All entries have proper names, and no two entries of a folder have the same. -/
inductive WellNamed : FileTree → Prop
  | file (bytes : List UInt8) : WellNamed (file bytes)
  | folder {es : List (Text × FileTree)} (distinct : (es.map (·.1)).Nodup) (proper : ∀ e ∈ es, IsName e.1)
      (below : ∀ e ∈ es, WellNamed e.2) : WellNamed (folder es)

/-- The names of ignore files. -/
def isIgnoreName (name : Text) : Bool := name = ".ignore".toList || name = ".gitignore".toList

/-- There is no ignore file in the tree. -/
def RuleFree (t : FileTree) : Prop :=
  ∀ names name bytes, t.Holds (names ++ [name]) bytes → isIgnoreName name = false

/-- Hidden entries are those whose name begins with a dot. -/
def isHidden (name : Text) : Bool := name.head? == some '.'

/-- Names lead to a file and through no hidden entry. -/
def Shows (t : FileTree) (names : List Text) (bytes : List UInt8) : Prop :=
  t.Holds names bytes ∧ ∀ name ∈ names, isHidden name = false

theorem holds_folder_iff {es : List (Text × FileTree)} {names : List Text} {bytes : List UInt8} :
    (folder es).Holds names bytes ↔ ∃ e ∈ es, ∃ rest, names = e.1 :: rest ∧ e.2.Holds rest bytes := by
  constructor
  · rintro (_ | ⟨entry, rest⟩)
    exact ⟨_, entry, _, rfl, rest⟩
  · rintro ⟨e, entry, rest, rfl, holds⟩
    exact .within entry holds

theorem WellNamed.eq_of_name {es : List (Text × FileTree)} (named : WellNamed (.folder es)) {e f : Text × FileTree}
    (first : e ∈ es) (second : f ∈ es) (same : e.1 = f.1) : e = f := by
  cases named with
  | folder distinct => exact List.inj_on_of_nodup_map distinct first second same

theorem mem_of_found {es : List (Text × FileTree)} {name : Text} {t : FileTree}
    (found : FileTree.entry? (folder es) name = some t) : (name, t) ∈ es := by
  obtain ⟨before, after, rfl, -⟩ := List.lookup_eq_some_iff.mp found
  simp

/-- Names lead to one file at most. -/
theorem Holds.unique {t : FileTree} (named : t.WellNamed) {names : List Text} {bytes bytes' : List UInt8}
    (first : t.Holds names bytes) (second : t.Holds names bytes') : bytes = bytes' := by
  induction first with
  | here => cases second; rfl
  | within entry _ ih =>
    obtain ⟨f, other, rest, names, holds⟩ := holds_folder_iff.mp second
    rw [List.cons.injEq] at names
    obtain ⟨same, rfl⟩ := names
    obtain rfl := named.eq_of_name entry other same
    cases named with
    | folder _ _ below => exact ih (below _ entry) holds

theorem Holds.proper {t : FileTree} (named : t.WellNamed) {names : List Text} {bytes : List UInt8}
    (holds : t.Holds names bytes) : ∀ name ∈ names, IsName name := by
  induction holds with
  | here => simp
  | within entry _ ih =>
    cases named with
    | folder _ proper below => exact List.forall_mem_cons.mpr ⟨proper _ entry, ih (below _ entry)⟩

theorem ruleFree_folder_iff {es : List (Text × FileTree)} :
    RuleFree (.folder es) ↔ ∀ e ∈ es, (e.2.isFolder = true ∨ isIgnoreName e.1 = false) ∧ e.2.RuleFree := by
  constructor
  · intro free e entry
    refine ⟨?_, fun names name bytes holds => free (e.1 :: names) name bytes (.within entry holds)⟩
    cases kind : e.2 with
    | file bytes => exact .inr (free [] e.1 bytes (.within entry (kind ▸ .here bytes)))
    | folder _ => exact .inl rfl
  · intro entries names name bytes holds
    obtain ⟨e, entry, rest, spelled, below⟩ := holds_folder_iff.mp holds
    obtain ⟨ignored, free⟩ := entries e entry
    cases names with
    | cons first names =>
      obtain ⟨-, rfl⟩ := List.cons.inj spelled
      exact free names name bytes below
    | nil =>
      obtain ⟨rfl, rfl⟩ := List.cons.inj spelled
      refine ignored.resolve_left fun isFolder => ?_
      generalize e.2 = t at below isFolder
      cases below
      cases isFolder

theorem RuleFree.entry {es : List (Text × FileTree)} (free : RuleFree (.folder es)) {e : Text × FileTree}
    (entry : e ∈ es) : e.2.RuleFree :=
  (ruleFree_folder_iff.mp free e entry).2

/-! ### Files in the order of the entries -/

mutual

/-- The files that are neither hidden nor below a hidden folder, with the names
    that lead to them. -/
def seen : FileTree → List (List Text × List UInt8)
  | file bytes => [([], bytes)]
  | folder es => seenIn es

def seenIn : List (Text × FileTree) → List (List Text × List UInt8)
  | [] => []
  | (name, t) :: rest =>
    (if isHidden name then [] else t.seen.map fun (names, bytes) => (name :: names, bytes)) ++ seenIn rest

end

theorem seen_folder (es : List (Text × FileTree)) :
    (folder es).seen =
      es.flatMap fun e => if isHidden e.1 then [] else e.2.seen.map fun f => (e.1 :: f.1, f.2) := by
  rw [seen]
  induction es with
  | nil => rfl
  | cons e rest ih => rw [seenIn, ih, List.flatMap_cons]

theorem walk_folder (scopes : List Scope) (path : Path) (es : List (Text × FileTree)) :
    (folder es).walk scopes path =
      es.flatMap fun e =>
        if Scope.visits (Scope.ofFolder (folder es) [] :: scopes) e.1 e.2.isFolder then
          e.2.walk ((Scope.ofFolder (folder es) [] :: scopes).map (Scope.enter e.1)) (path.child e.1)
        else [] := by
  rw [walk]
  generalize Scope.ofFolder (folder es) [] :: scopes = inner
  induction es with
  | nil => rfl
  | cons e rest ih => rw [walkEntries, ih, List.flatMap_cons]

theorem mem_seen_folder_iff {es : List (Text × FileTree)} {names : List Text} {bytes : List UInt8} :
    (names, bytes) ∈ (folder es).seen ↔
      ∃ e ∈ es, isHidden e.1 = false ∧ ∃ rest, names = e.1 :: rest ∧ (rest, bytes) ∈ e.2.seen := by
  rw [seen_folder, List.mem_flatMap]
  refine exists_congr fun e => and_congr_right fun entry => ?_
  cases hidden : isHidden e.1 with
  | true => simp
  | false =>
    simp only [Bool.false_eq_true, if_false, List.mem_map, Prod.mk.injEq, true_and]
    constructor
    · rintro ⟨⟨rest, bytes⟩, member, rfl, rfl⟩
      exact ⟨rest, rfl, member⟩
    · rintro ⟨rest, rfl, member⟩
      exact ⟨(rest, bytes), member, rfl, rfl⟩

theorem mem_seen_iff {t : FileTree} {names : List Text} {bytes : List UInt8} :
    (names, bytes) ∈ t.seen ↔ t.Shows names bytes := by
  induction t using tree_induction generalizing names with
  | file b =>
    rw [seen, List.mem_singleton, Prod.mk.injEq]
    constructor
    · rintro ⟨rfl, rfl⟩
      exact ⟨.here _, by simp⟩
    · rintro ⟨holds, -⟩
      cases holds
      exact ⟨rfl, rfl⟩
  | folder es ih =>
    rw [mem_seen_folder_iff]
    constructor
    · rintro ⟨e, entry, visible, rest, rfl, member⟩
      obtain ⟨holds, others⟩ := (ih e entry).mp member
      exact ⟨.within entry holds, List.forall_mem_cons.mpr ⟨visible, others⟩⟩
    · rintro ⟨holds, visible⟩
      obtain ⟨e, entry, rest, rfl, below⟩ := holds_folder_iff.mp holds
      obtain ⟨first, others⟩ := List.forall_mem_cons.mp visible
      exact ⟨e, entry, first, rest, rfl, (ih e entry).mpr ⟨below, others⟩⟩

/-- Every file stands once in the list. -/
theorem pairwise_seen {t : FileTree} (named : t.WellNamed) : t.seen.Pairwise fun e f => e.1 ≠ f.1 := by
  induction t using tree_induction with
  | file b => exact List.pairwise_singleton _ _
  | folder es ih =>
    cases named with
    | folder distinct proper below =>
      rw [seen_folder, List.pairwise_flatMap]
      constructor
      · intro e entry
        split
        · exact .nil
        · refine List.pairwise_map.mpr ((ih e entry (below e entry)).imp fun apart same => apart ?_)
          exact List.tail_eq_of_cons_eq same
      · refine (List.pairwise_map.mp distinct).imp fun {e f} apart x left y right same => apart ?_
        split at left
        · cases left
        · split at right
          · cases right
          · obtain ⟨_, -, rfl⟩ := List.mem_map.mp left
            obtain ⟨_, -, rfl⟩ := List.mem_map.mp right
            exact List.head_eq_of_cons_eq same

/-! ### Other bytes in the files -/

mutual

/-- The tree with other bytes in its files, told by the names that lead to them
    and the bytes that were there. -/
def mapFiles (change : List Text → List UInt8 → List UInt8) : FileTree → FileTree
  | file bytes => file (change [] bytes)
  | folder es => folder (mapEntries change es)

def mapEntries (change : List Text → List UInt8 → List UInt8) : List (Text × FileTree) → List (Text × FileTree)
  | [] => []
  | (name, t) :: rest => (name, t.mapFiles fun names => change (name :: names)) :: mapEntries change rest

end

theorem mapFiles_folder (change : List Text → List UInt8 → List UInt8) (es : List (Text × FileTree)) :
    (folder es).mapFiles change =
      folder (es.map fun e => (e.1, e.2.mapFiles fun names => change (e.1 :: names))) := by
  rw [mapFiles]
  congr 1
  induction es with
  | nil => rfl
  | cons e rest ih => rw [mapEntries, ih, List.map_cons]

theorem seen_mapFiles (change : List Text → List UInt8 → List UInt8) (t : FileTree) :
    (t.mapFiles change).seen = t.seen.map fun e => (e.1, change e.1 e.2) := by
  induction t using tree_induction generalizing change with
  | file b => rw [mapFiles, seen, seen]; rfl
  | folder es ih =>
    rw [mapFiles_folder, seen_folder, seen_folder, List.flatMap_map, List.map_flatMap]
    refine List.flatMap_congr fun e entry => ?_
    cases hidden : isHidden e.1 with
    | true => simp
    | false => simp [ih e entry]

end FileTree

/-! ### Walks without rules -/

/-- A scope without rules. -/
def Scope.Silent (s : Scope) : Prop := s.rules = [] ∧ s.repositoryRules = []

namespace Scope

theorem mem_of_mem_ofRepository {scopes : List Scope} {s : Scope} (member : s ∈ ofRepository scopes) : s ∈ scopes := by
  induction scopes with
  | nil => cases member
  | cons first rest ih =>
    rw [ofRepository] at member
    split at member
    · exact List.mem_cons.mpr (.inl (List.mem_singleton.mp member))
    · rcases List.mem_cons.mp member with rfl | later
      · exact List.mem_cons_self
      · exact List.mem_cons_of_mem first (ih later)

/-- Without rules only hidden entries are left out. -/
theorem visits_of_silent {scopes : List Scope} (silent : ∀ s ∈ scopes, s.Silent) (name : Text) (isFolder : Bool) :
    visits scopes name isFolder = !FileTree.isHidden name := by
  have noRule (way : List Text) : IgnoreRule.verdict? [] way isFolder = none := rfl
  have always : (scopes.findSome? fun s => IgnoreRule.verdict? s.rules (s.way ++ [name]) isFolder) = none :=
    List.findSome?_eq_none_iff.mpr fun s member => by rw [(silent s member).1, noRule]
  have inside (part : List Scope) (within : ∀ s ∈ part, s ∈ scopes) :
      (part.findSome? fun s => IgnoreRule.verdict? s.repositoryRules (s.way ++ [name]) isFolder) = none :=
    List.findSome?_eq_none_iff.mpr fun s member => by rw [(silent s (within s member)).2, noRule]
  have none : verdict? scopes name isFolder = none := by
    unfold verdict?
    rw [always]
    split
    · exact inside _ fun _ => mem_of_mem_ofRepository
    · rfl
  rw [visits, none]
  rfl

theorem Silent.enter {s : Scope} (silent : s.Silent) (name : Text) : (s.enter name).Silent := silent

theorem silent_ofFolder {t : FileTree} (free : t.RuleFree) (way : List Text) : (ofFolder t way).Silent := by
  have absent {name : Text} (ignore : FileTree.isIgnoreName name = true) : rulesIn t name = [] := by
    unfold rulesIn
    split
    · rename_i bytes found
      cases t with
      | file b => cases found
      | folder es =>
        have kept := free [] name bytes (.within (FileTree.mem_of_found found) (.here bytes))
        rw [ignore] at kept
        cases kept
    · rfl
  exact ⟨absent (by decide), absent (by decide)⟩

end Scope

namespace FileTree

/-- Without ignore files the walk visits what is not hidden. -/
theorem walk_eq_map_seen {t : FileTree} (free : t.RuleFree) {scopes : List Scope} (silent : ∀ s ∈ scopes, s.Silent)
    (path : Path) : t.walk scopes path = t.seen.map fun e => (path.below e.1, e.2) := by
  induction t using tree_induction generalizing scopes path with
  | file b => rw [walk, seen]; rfl
  | folder es ih =>
    have inner : ∀ s ∈ Scope.ofFolder (folder es) [] :: scopes, s.Silent :=
      List.forall_mem_cons.mpr ⟨Scope.silent_ofFolder free [], silent⟩
    rw [walk_folder, seen_folder, List.map_flatMap]
    refine List.flatMap_congr fun e entry => ?_
    rw [Scope.visits_of_silent inner]
    have entered : ∀ s ∈ (Scope.ofFolder (folder es) [] :: scopes).map (Scope.enter e.1), s.Silent :=
      List.forall_mem_map.mpr fun s member => (inner s member).enter e.1
    cases hidden : isHidden e.1 with
    | true => simp
    | false =>
      rw [Bool.not_false, if_pos rfl, ih e entry (free.entry entry) entered, if_neg Bool.false_ne_true, List.map_map]
      rfl

/-! ### Places in a tree -/

/-- A tree whose entries are properly named and none of which is an ignore file. -/
structure Plain (t : FileTree) : Prop where
  named : t.WellNamed
  free : t.RuleFree

theorem plain_folder_iff {es : List (Text × FileTree)} :
    Plain (.folder es) ↔ (es.map (·.1)).Nodup ∧
      ∀ e ∈ es, IsName e.1 ∧ (e.2.isFolder = true ∨ isIgnoreName e.1 = false) ∧ e.2.Plain := by
  constructor
  · rintro ⟨named, free⟩
    cases named with
    | folder distinct proper below =>
      refine ⟨distinct, fun e entry => ?_⟩
      obtain ⟨ignored, freeBelow⟩ := ruleFree_folder_iff.mp free e entry
      exact ⟨proper e entry, ignored, below e entry, freeBelow⟩
  · rintro ⟨distinct, entries⟩
    exact ⟨.folder distinct (fun e entry => (entries e entry).1) fun e entry => (entries e entry).2.2.named,
      ruleFree_folder_iff.mpr fun e entry => ⟨(entries e entry).2.1, (entries e entry).2.2.free⟩⟩

theorem plain_file (bytes : List UInt8) : Plain (.file bytes) := by
  refine ⟨.file bytes, fun names name b holds => ?_⟩
  generalize same : names ++ [name] = way at holds
  cases holds
  simp at same

theorem Plain.entry {es : List (Text × FileTree)} (plain : Plain (.folder es)) {e : Text × FileTree}
    (entry : e ∈ es) : e.2.Plain :=
  ((plain_folder_iff.mp plain).2 e entry).2.2

mutual

def isPlain : FileTree → Bool
  | file _ => true
  | folder es => decide (es.map (·.1)).Nodup && arePlain es

def arePlain : List (Text × FileTree) → Bool
  | [] => true
  | (name, t) :: rest => decide (IsName name) && (t.isFolder || !isIgnoreName name) && t.isPlain && arePlain rest

end

theorem isPlain_iff {t : FileTree} : t.isPlain = true ↔ t.Plain := by
  induction t using tree_induction with
  | file bytes => exact iff_of_true rfl (plain_file bytes)
  | folder es ih =>
    have entries : ∀ part, (∀ e ∈ part, e ∈ es) → (arePlain part = true ↔
        ∀ e ∈ part, IsName e.1 ∧ (e.2.isFolder = true ∨ isIgnoreName e.1 = false) ∧ e.2.Plain) := by
      intro part
      induction part with
      | nil => simp [arePlain]
      | cons e rest others =>
        intro within
        obtain ⟨first, later⟩ := List.forall_mem_cons.mp within
        rw [List.forall_mem_cons, ← others later, arePlain, ← ih e first]
        simp [and_assoc]
    rw [isPlain, Bool.and_eq_true, decide_eq_true_iff, entries es fun _ => id, plain_folder_iff]

instance : DecidablePred Plain := fun _ => decidable_of_iff _ isPlain_iff

/-- The place to which a way leads; no way leads to the top. -/
def reach (t : FileTree) : Option Text → Except Obstacle Spot
  | none => .ok ⟨t, []⟩
  | some way => t.find way

/-- The folder at a place and those above it are plain. -/
structure Spot.Plain (s : Spot) : Prop where
  here : s.here.Plain
  above : ∀ e ∈ s.above, e.1.Plain

theorem Spot.Plain.step {s next : Spot} (plain : s.Plain) {part : Text} (leads : s.step part = .ok next) :
    next.Plain := by
  obtain ⟨here, above⟩ := plain
  unfold Spot.step at leads
  split at leads
  · cases leads
  · split at leads
    · cases leads
      exact ⟨here, above⟩
    · split at leads
      · split at leads
        · cases leads
        · rename_i parent name rest outer
          cases leads
          obtain ⟨first, others⟩ := List.forall_mem_cons.mp (outer ▸ above)
          exact ⟨first, others⟩
      · split at leads
        · rename_i t found
          cases leads
          refine ⟨?_, List.forall_mem_cons.mpr ⟨here, above⟩⟩
          obtain ⟨tree, outer⟩ := s
          cases tree with
          | file bytes => cases found
          | folder es => exact here.entry (mem_of_found found)
        · cases leads

/-- Every place of a plain tree is plain. -/
theorem Spot.Plain.of_reach {t : FileTree} (plain : t.Plain) {way : Option Text} {s : Spot}
    (leads : t.reach way = .ok s) : s.Plain := by
  have onwards (parts : List Text) : ∀ start : Spot, start.Plain → parts.foldlM Spot.step start = .ok s → s.Plain := by
    induction parts with
    | nil =>
      intro start sound found
      cases found
      exact sound
    | cons part parts ih =>
      intro start sound found
      rw [List.foldlM_cons] at found
      cases one : start.step part with
      | error obstacle => rw [one] at found; cases found
      | ok next =>
        rw [one] at found
        exact ih next (sound.step one) found
  have top : Spot.Plain ⟨t, []⟩ := ⟨plain, by simp⟩
  cases way with
  | none =>
    cases leads
    exact top
  | some way => exact onwards _ _ top leads

theorem silent_scopesAbove {above : List (FileTree × Text)} (plain : ∀ e ∈ above, e.1.Plain) (way : List Text) :
    ∀ s ∈ scopesAbove way above, s.Silent := by
  induction above generalizing way with
  | nil => simp [scopesAbove]
  | cons e rest ih =>
    obtain ⟨first, others⟩ := List.forall_mem_cons.mp plain
    exact List.forall_mem_cons.mpr ⟨Scope.silent_ofFolder first.free _, ih others _⟩

end FileTree

/-- What is visited from a place of a plain tree. -/
theorem visited_of_plain {s : FileTree.Spot} (plain : s.Plain) (path : Path) :
    visited s path = s.here.seen.map fun e => (path.below e.1, e.2) :=
  FileTree.walk_eq_map_seen plain.here.free (FileTree.silent_scopesAbove plain.above []) path

end ScriptAtlas
