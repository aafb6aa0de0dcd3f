import ScriptAtlas.Proofs.Script.Walk

/-!
The walk through the tree of a script. A line with content stands below another
one exactly if all lines with content after that one are deeper, up to the line
itself (`below_iff_deeper`). So the lines with content are passed in source
order (`content_preorder`), and those below a line are the deeper lines that
follow it without a break (`content_below`).
-/
namespace ScriptAtlas

/-! ### Deeper lines -/

section
variable {options : ParseOptions} {text : Text} {id c p j : Nat} {n m k : Node}

/-- The last item with a property does not stand before any other item with it. -/
theorem exists_lastWhere? {α : Type} {P : α → Bool} {items : List α} {i : Nat} {x : α}
    (found : items[i]? = some x) (holds : P x = true) : ∃ e, lastWhere? P items = some e ∧ i ≤ e.1 := by
  cases last : lastWhere? P items with
  | none =>
    rw [lastWhere?, Option.map_eq_none_iff, List.find?_eq_none] at last
    have listed : (x, i) ∈ items.zipIdx.reverse :=
      List.mem_reverse.mpr (List.mem_zipIdx_iff_getElem?.mpr found)
    exact absurd holds (last (x, i) listed)
  | some e =>
    refine ⟨e, rfl, Nat.not_lt.mp fun before => ?_⟩
    have fails := (lastWhere?_eq_some_iff.mp last).2.2 i x before found
    rw [holds] at fails
    cases fails

/-- No line with content between a line and its parent is less deep than the line. -/
theorem depth_le_between (at_c : (parse options text).get? c = some m) (content : m.isBlank = false)
    (up : m.parent = some p) (at_j : (parse options text).get? j = some k) (shown : k.isBlank = false)
    (after : p < j) (before : j < c) : m.depth ≤ k.depth := by
  rw [parse_parent_of_content at_c content, Option.map_eq_some_iff] at up
  obtain ⟨⟨_, b⟩, last, rfl⟩ := up
  have listed : (((parse options text).nodes.map Node.bare).take c)[j]? = some k.bare := by
    rw [List.getElem?_take, if_pos before, List.getElem?_map]
    exact congrArg (Option.map Node.bare) at_j
  have fails : (!k.isBlank && decide (k.depth < m.depth)) = false :=
    (lastWhere?_eq_some_iff.mp last).2.2 j k.bare after listed
  simpa [shown] using fails

/-- A line that comes after a less deep one has a parent, not before that one. -/
theorem exists_parent_of_deeper (at_c : (parse options text).get? c = some m) (content : m.isBlank = false)
    (at_j : (parse options text).get? j = some k) (shown : k.isBlank = false) (before : j < c)
    (deeper : k.depth < m.depth) : ∃ p, m.parent = some p ∧ j ≤ p := by
  have listed : (((parse options text).nodes.map Node.bare).take c)[j]? = some k.bare := by
    rw [List.getElem?_take, if_pos before, List.getElem?_map]
    exact congrArg (Option.map Node.bare) at_j
  have holds : (!k.isBlank && decide (k.depth < m.depth)) = true := by simpa [shown] using deeper
  obtain ⟨e, last, le⟩ :=
    exists_lastWhere? (P := fun l => !l.isBlank && decide (l.depth < m.depth)) listed holds
  exact ⟨e.1, by rw [parse_parent_of_content at_c content, last, Option.map_some], le⟩

/-- All lines with content after the line at `id`, up to the one at `c`, are
    deeper than `depth`. -/
def DeeperUpTo (t : Tree) (depth id c : Nat) : Prop :=
  ∀ j k, id < j → j ≤ c → t.get? j = some k → k.isBlank = false → depth < k.depth

theorem deeper_of_below (found : (parse options text).get? id = some n)
    (below : (parse options text).Below id c) :
    ∀ m, (parse options text).get? c = some m → m.isBlank = false →
      DeeperUpTo (parse options text) n.depth id c := by
  have linked := linked_parse options text
  induction below with
  | refl =>
    intro m _ _ j k after before
    omega
  | @tail p c above up ih =>
    obtain ⟨m, at_c, up⟩ := up
    intro m' same content j k after before at_j shown
    rw [at_c] at same
    cases same
    obtain ⟨l, at_p⟩ := Tree.exists_of_below found above
    obtain ⟨parent_content, less⟩ := depth_lt_of_parent at_c up at_p content
    have inside := ih l at_p parent_content
    have start : n.depth ≤ l.depth := by
      rcases Nat.lt_or_eq_of_le (linked.le_of_below above) with later | rfl
      · exact Nat.le_of_lt (inside p l later (Nat.le_refl p) at_p parent_content)
      · rw [found] at at_p
        cases at_p
        exact Nat.le_refl _
    -- Up to the parent the lines are deeper already; behind it they are as deep as the new line.
    by_cases early : j ≤ p
    · exact inside j k after early at_j shown
    · rcases Nat.lt_or_eq_of_le before with between | rfl
      · have := depth_le_between at_c content up at_j shown (by omega) between
        omega
      · rw [at_c] at at_j
        cases at_j
        omega

theorem below_of_deeper (found : (parse options text).get? id = some n) (content : n.isBlank = false) :
    ∀ c m, (parse options text).get? c = some m → m.isBlank = false → id < c →
      DeeperUpTo (parse options text) n.depth id c → (parse options text).Below id c := by
  intro c
  induction c using Nat.strongRecOn with
  | ind c ih =>
    intro m at_c shown later deeper
    have less := deeper c m later (Nat.le_refl c) at_c shown
    obtain ⟨p, up, le⟩ := exists_parent_of_deeper at_c shown found content later less
    have parent : (parse options text).IsParent p c := ⟨m, at_c, up⟩
    rcases Nat.lt_or_eq_of_le le with after | rfl
    · have earlier := (linked_parse options text).earlier c m p at_c up
      obtain ⟨l, at_p⟩ := (linked_parse options text).exists_parent at_c up
      have above : (parse options text).Below id p := by
        refine ih p earlier l at_p (isBlank_of_parent at_c up at_p) after ?_
        intro j k first last
        exact deeper j k first (by omega)
      exact above.tail parent
    · exact Relation.ReflTransGen.single parent

/-- A line with content stands below an earlier one exactly if all lines with
    content after that one are deeper, up to the line itself. -/
theorem below_iff_deeper (found : (parse options text).get? id = some n) (content : n.isBlank = false)
    (at_c : (parse options text).get? c = some m) (shown : m.isBlank = false) (later : id < c) :
    (parse options text).Below id c ↔ DeeperUpTo (parse options text) n.depth id c :=
  ⟨fun below => deeper_of_below found below m at_c shown, below_of_deeper found content c m at_c shown later⟩

/-- Blank lines have nothing below them. -/
theorem isBlank_of_below (found : (parse options text).get? id = some n)
    (below : (parse options text).Below id c) (at_c : (parse options text).get? c = some m)
    (content : m.isBlank = false) : n.isBlank = false := by
  rcases Relation.ReflTransGen.cases_head below with rfl | ⟨d, ⟨k, at_d, up⟩, -⟩
  · rw [found] at at_c
    cases at_c
    exact content
  · exact isBlank_of_parent at_d up found

/-- Lines with content in one branch come before those in a later branch. -/
theorem lt_of_branches {parent : Option Nat} {d e f : Nat} (left : c ∈ (parse options text).idsUnder parent)
    (right : d ∈ (parse options text).idsUnder parent) (earlier : c < d)
    (below : (parse options text).Below c e) (other : (parse options text).Below d f)
    (at_e : (parse options text).get? e = some n) (content : n.isBlank = false)
    (at_f : (parse options text).get? f = some m) (shown : m.isBlank = false) : e < f := by
  have linked := linked_parse options text
  obtain ⟨k, at_c, -⟩ := Tree.mem_idsUnder.mp left
  obtain ⟨l, at_d, -⟩ := Tree.mem_idsUnder.mp right
  have content_c := isBlank_of_below at_c below at_e content
  have content_d := isBlank_of_below at_d other at_f shown
  by_contra behind
  have after := linked.le_of_below other
  -- The later branch would begin among the lines below the earlier one.
  have deeper : DeeperUpTo (parse options text) k.depth c d := by
    intro j i first last
    exact deeper_of_below at_c below n at_e content j i first (by omega)
  have inside := (below_iff_deeper at_c content_c at_d content_d earlier).mpr deeper
  exact linked.not_below_both left right earlier inside Relation.ReflTransGen.refl

/-! ### Lines with content along the walk -/

/-- Of two positions with content, the first one is smaller. -/
def ContentAscends (t : Tree) (i j : Nat) : Prop :=
  ∀ n m, t.get? i = some n → t.get? j = some m → n.isBlank = false → m.isBlank = false → i < j

theorem increasing_of_contentAscends {t : Tree} {ids : List Nat} (along : ids.Pairwise (ContentAscends t)) :
    ((t.entriesAt ids).filter (!·.2.isBlank)).Pairwise fun e f => e.1 < f.1 := by
  refine List.pairwise_filter.mpr (Tree.pairwise_entriesAt (along.imp fun {i j} ascends n m at_i at_j => ?_))
  intro content shown
  exact ascends n m at_i at_j ((Bool.not_eq_true' _).mp content) ((Bool.not_eq_true' _).mp shown)

/-- The walk passes the lines with content in source order. -/
theorem content_preorder (options : ParseOptions) (text : Text) :
    ((parse options text).preorder.map (·.2)).filter (!·.2.isBlank) =
      (parse options text).entries.filter (!·.2.isBlank) := by
  have linked := linked_parse options text
  have ascends : (parse options text).walk.Pairwise (ContentAscends (parse options text)) := by
    refine linked.pairwise_walk (fun _ _ _ less _ _ _ _ _ _ => less) ?_
    intro parent c d left right earlier e f below other n m at_e at_f content shown
    exact lt_of_branches left right earlier below other at_e content at_f shown
  rw [linked.map_preorder]
  refine eq_of_increasing (increasing_of_contentAscends ascends) ((Tree.entries_increasing _).filter _) ?_
  intro e
  rw [List.mem_filter, List.mem_filter, Tree.mem_entriesAt, Tree.mem_entries]
  exact and_congr_left fun _ => and_iff_right_of_imp linked.mem_walk

/-- The lines with content below a line with content are those that follow it,
    as long as they are deeper. -/
theorem content_below (found : (parse options text).get? id = some n) (content : n.isBlank = false) :
    ((parse options text).entriesAt ((parse options text).subtree id).tail).filter (!·.2.isBlank) =
      ((parse options text).entries.filter fun e => decide (id < e.1) && !e.2.isBlank).takeWhile
        fun e => decide (n.depth < e.2.depth) := by
  have linked := linked_parse options text
  have ascends : ((parse options text).subtree id).tail.Pairwise (ContentAscends (parse options text)) := by
    refine (linked.pairwise_subtree (fun _ _ _ less _ _ _ _ _ _ => less) ?_ id n found).tail
    intro parent c d left right earlier e f below other n m at_e at_f content shown
    exact lt_of_branches left right earlier below other at_e content at_f shown
  have following := (Tree.entries_increasing (parse options text)).filter fun e => decide (id < e.1) && !e.2.isBlank
  refine eq_of_increasing (increasing_of_contentAscends ascends) (following.sublist (List.takeWhile_sublist _)) ?_
  rintro ⟨c, m⟩
  rw [mem_takeWhile_iff following]
  simp only [List.mem_filter, Tree.mem_entriesAt, Tree.mem_entries, linked.mem_subtree_tail_iff found,
    Bool.and_eq_true, decide_eq_true_eq, Bool.not_eq_true']
  constructor
  · rintro ⟨⟨⟨below, later⟩, at_c⟩, shown⟩
    refine ⟨⟨at_c, later, shown⟩, ?_⟩
    rintro ⟨j, k⟩ ⟨at_j, after, shown_j⟩ before
    exact deeper_of_below found below m at_c shown j k after before at_j shown_j
  · rintro ⟨⟨at_c, later, shown⟩, deeper⟩
    refine ⟨⟨⟨(below_iff_deeper found content at_c shown later).mpr ?_, later⟩, at_c⟩, shown⟩
    intro j k after before at_j shown_j
    exact deeper (j, k) ⟨at_j, after, shown_j⟩ before

end

/-- The walk from the roots downwards passes every line of a script once, and
    those with content in source order. The lines below a line with content are,
    blank ones aside, the deeper lines that follow it up to the first that is not
    deeper. -/
theorem preorder_parse (options : ParseOptions) (text : Text) :
    ((parse options text).preorder.map (·.2)).Perm (parse options text).entries ∧
    ((parse options text).preorder.map (·.2.2)).filter (!·.isBlank) = (parse options text).contentNodes ∧
    ∀ id n, (parse options text).get? id = some n → n.isBlank = false →
      (∀ c, c ∈ (parse options text).subtree id ↔ (parse options text).Below id c) ∧
      ((parse options text).entriesAt ((parse options text).subtree id).tail).filter (!·.2.isBlank) =
        ((parse options text).entries.filter fun e => decide (id < e.1) && !e.2.isBlank).takeWhile
          fun e => decide (n.depth < e.2.depth) := by
  have linked := linked_parse options text
  refine ⟨linked.perm_preorder, ?_, fun id n found content => ⟨fun c => ?_, content_below found content⟩⟩
  · have nodes : ∀ es : List (Nat × Node),
        (es.map (·.2)).filter (!·.isBlank) = (es.filter (!·.2.isBlank)).map (·.2) := fun _ => List.filter_map
    calc ((parse options text).preorder.map (·.2.2)).filter (!·.isBlank)
      _ = (((parse options text).preorder.map (·.2)).map (·.2)).filter (!·.isBlank) := by rw [List.map_map]; rfl
      _ = ((parse options text).entries.filter (!·.2.isBlank)).map (·.2) := by rw [nodes, content_preorder]
      _ = (parse options text).contentNodes := by rw [← nodes, Tree.map_snd_entries]; rfl
  · exact linked.mem_subtree_iff found

/-- A blank line beside an open block comes out of source order, and a line at a
    depth of its own still stands below the first line. -/
theorem preorder_parse_ragged :
    ∃ text n, (parse {} text).get? 0 = some n ∧ n.isBlank = false ∧
      (parse {} text).preorder.map (·.2.1) = [0, 2, 3, 4, 5, 1, 6] ∧
      (((parse {} text).entriesAt ((parse {} text).subtree 0).tail).filter (!·.2.isBlank)).map (·.1) =
        [2, 3, 5] := by
  refine ⟨"  on join:\n\n      wait\n    stop it\n\t\n   else :\n on quit:\n".toList, _, rfl, rfl, ?_, ?_⟩
  · decide +kernel
  · rw [((preorder_parse {} _).2.2 0 _ rfl rfl).2]
    decide +kernel

end ScriptAtlas
