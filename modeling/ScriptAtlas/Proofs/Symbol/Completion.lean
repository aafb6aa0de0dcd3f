import ScriptAtlas.Proofs.Path.Maps
import ScriptAtlas.Proofs.Symbol.Declarations
import ScriptAtlas.Symbol.Index

/-!
What is found when a name is completed. A kind and name is reported exactly if
some file declares it and it begins with the text in lower case
(`SymbolIndex.exists_mem_complete_iff`), and each is reported once. Which of
several declarations stands for it depends on the order in which they are
sorted: as a script declares one symbol a line at most, no two declarations of an
index stand in the same place (`SymbolIndex.Ordered.apart`), and the one that is
left is the first of them all (`SymbolIndex.complete_least`).
-/
namespace ScriptAtlas

/-! ### Matches in order -/

namespace Match

variable {m n : Match} {ms : List Match}

instance : Std.TransCmp order :=
  inferInstanceAs (Std.TransCmp (compareLex (compareOn fun m : Match => m.symbol.name.map Char.toNat)
    (compareLex (compareOn fun m : Match => m.file.key) (compareOn fun m : Match => m.symbol.line))))

/-- A declaration stands in an earlier file than another one, or on an earlier
    line of the same file. -/
def IsBefore (m n : Match) : Prop :=
  m.file.order n.file = .lt ∨ m.file.same n.file = true ∧ m.symbol.line < n.symbol.line

theorem sameName_iff : m.sameName n = true ↔ m.symbol.kind = n.symbol.kind ∧ m.symbol.name = n.symbol.name := by
  simp [sameName]

/-- Of declarations with the same name the place decides. -/
theorem order_of_name (name : m.symbol.name = n.symbol.name) : m.order n = .lt ↔ m.IsBefore n := by
  rw [order, name, Std.ReflOrd.compare_self, Ordering.eq_then, Ordering.then_eq_lt, Path.order_eq_iff,
    Nat.compare_eq_lt, IsBefore]

/-- How the file of a declaration is spelled does not matter to its place. -/
theorem IsBefore.of_same {file : Path} (before : m.IsBefore n) (same : n.file.same file = true) :
    m.IsBefore ⟨file, n.symbol⟩ := by
  rcases before with less | ⟨own, less⟩
  · exact .inl (Std.TransCmp.lt_of_lt_of_eq less (Path.order_eq_iff.mpr same))
  · exact .inr ⟨by rwa [Path.same_congr own], less⟩

/-- Declarations in the same place of the order have the same name, file and line. -/
theorem order_eq_iff : m.order n = .eq ↔
    m.symbol.name = n.symbol.name ∧ m.file.same n.file = true ∧ m.symbol.line = n.symbol.line := by
  rw [order, Ordering.then_eq_eq, Ordering.then_eq_eq, Std.LawfulEqOrd.compare_eq_iff_eq, Path.order_eq_iff,
    Nat.compare_eq_eq, List.map_inj_right fun _ _ => Char.toNat_inj.mp]

/-! ### The first of each kind and name -/

theorem firsts_sublist (ms : List Match) : (firsts ms).Sublist ms := by
  induction ms with
  | nil => exact .slnil
  | cons m rest ih => exact (List.filter_sublist.trans ih).cons_cons m

/-- No kind and name is reported twice. -/
theorem firsts_apart (ms : List Match) : (firsts ms).Pairwise fun m n => m.sameName n = false := by
  induction ms with
  | nil => exact .nil
  | cons m rest ih =>
    refine List.pairwise_cons.mpr ⟨fun n member => ?_, ih.filter _⟩
    have other := (List.mem_filter.mp member).2
    simpa using other

/-- Every kind and name is reported. -/
theorem exists_mem_firsts (member : n ∈ ms) : ∃ m ∈ firsts ms, m.sameName n = true := by
  induction ms with
  | nil => cases member
  | cons first rest ih =>
    cases same : first.sameName n with
    | true => exact ⟨first, List.mem_cons_self, same⟩
    | false =>
      have later : n ∈ rest := by
        rcases List.mem_cons.mp member with rfl | later
        · simp [sameName] at same
        · exact later
      obtain ⟨m, reported, found⟩ := ih later
      have other : first.sameName m = false := by
        rw [Bool.eq_false_iff, Ne, sameName_iff, sameName_iff.mp found |>.1, sameName_iff.mp found |>.2, ← sameName_iff]
        exact Bool.eq_false_iff.mp same
      exact ⟨m, List.mem_cons_of_mem _ (List.mem_filter.mpr ⟨reported, by rw [other]; rfl⟩), found⟩

/-- What is reported comes before everything else of its kind and name. -/
theorem firsts_least {R : Match → Match → Prop} (sorted : ms.Pairwise R) (reported : m ∈ firsts ms)
    (member : n ∈ ms) (same : m.sameName n = true) : m = n ∨ R m n := by
  induction ms with
  | nil => cases member
  | cons first rest ih =>
    obtain ⟨leads, sorted⟩ := List.pairwise_cons.mp sorted
    rcases List.mem_cons.mp reported with rfl | reported
    · rcases List.mem_cons.mp member with rfl | later
      · exact .inl rfl
      · exact .inr (leads n later)
    · obtain ⟨reported, other⟩ := List.mem_filter.mp reported
      rcases List.mem_cons.mp member with rfl | later
      · rw [sameName_iff, eq_comm, eq_comm (a := m.symbol.name), ← sameName_iff] at same
        rw [same] at other
        cases other
      · exact ih sorted reported later

end Match

namespace SymbolIndex

variable {options : ParseOptions} {x : SymbolIndex} {m : Match} {start : Text}

/-! ### The declarations of an index -/

theorem mem_declarations : m ∈ x.declarations ↔ ∃ symbols, (m.file, symbols) ∈ x.files.entries ∧ m.symbol ∈ symbols := by
  obtain ⟨file, symbol⟩ := m
  simp [declarations]

/-- The declarations are the symbols of the files, under the spellings of the index. -/
theorem mem_symbolsOf_iff {file : Path} {s : Symbol} :
    s ∈ x.symbolsOf file ↔ ∃ m ∈ x.declarations, m.file.same file = true ∧ m.symbol = s := by
  rw [symbolsOf]
  constructor
  · intro declared
    cases found : x.files.get? file with
    | none => rw [found] at declared; cases declared
    | some symbols =>
      rw [found, Option.getD_some] at declared
      obtain ⟨q, member, same⟩ := PathMap.get?_eq_some_iff.mp found
      exact ⟨⟨q, s⟩, mem_declarations.mpr ⟨symbols, member, declared⟩, Path.same_iff.mpr same, rfl⟩
  · rintro ⟨m, declared, same, rfl⟩
    obtain ⟨symbols, member, listed⟩ := mem_declarations.mp declared
    rwa [PathMap.get?_of_mem member same, Option.getD_some]

/-- The symbols of every file of an index stand in the order of their lines, one a
    line at most. -/
def Ordered (x : SymbolIndex) : Prop :=
  ∀ file symbols, x.files.get? file = some symbols → symbols.Pairwise fun r s => r.line < s.line

/-- The indexes that come about when scripts are brought in, at once or one by
    one, and taken out again. -/
inductive Reached : SymbolIndex → Prop
  | build (options : ParseOptions) (scripts : List (Path × Text)) : Reached (build options scripts)
  | update {x : SymbolIndex} (reached : Reached x) (options : ParseOptions) (file : Path) (text : Text) :
      Reached (x.update options file text)
  | remove {x : SymbolIndex} (reached : Reached x) (file : Path) : Reached (x.remove file)

theorem ordered_empty : Ordered {} := by
  intro file symbols found
  cases found

theorem Ordered.update (ordered : x.Ordered) (options : ParseOptions) (file : Path) (text : Text) :
    (x.update options file text).Ordered := by
  intro q symbols found
  rw [SymbolIndex.update, updateTree, PathMap.get?_insert] at found
  split at found
  · cases found
    exact symbols_increasing options text
  · exact ordered q symbols found

theorem Ordered.remove (ordered : x.Ordered) (file : Path) : (x.remove file).Ordered := by
  intro q symbols found
  rw [SymbolIndex.remove, PathMap.get?_erase] at found
  split at found
  · cases found
  · exact ordered q symbols found

theorem Reached.ordered (reached : x.Reached) : x.Ordered := by
  induction reached with
  | build options scripts =>
    exact List.foldlRecOn scripts _ ordered_empty fun x ordered e _ => ordered.update options e.1 e.2
  | update _ options file text ih => exact ih.update options file text
  | remove _ file ih => exact ih.remove file

/-- No two declarations stand in the same place. -/
theorem Ordered.apart (ordered : x.Ordered) : x.declarations.Pairwise Match.IsBefore := by
  refine List.pairwise_flatMap.mpr ⟨fun e member => ?_, x.files.sorted.imp fun {e f} less m first n second => ?_⟩
  · have lines := ordered e.1 e.2 (PathMap.get?_of_mem member (Path.same_refl e.1))
    exact List.pairwise_map.mpr (lines.imp fun less => .inr ⟨Path.same_refl e.1, less⟩)
  · obtain ⟨r, -, rfl⟩ := List.mem_map.mp first
    obtain ⟨s, -, rfl⟩ := List.mem_map.mp second
    exact .inl less

/-! ### Completions -/

/-- The declarations that complete a text, in order. -/
def candidates (x : SymbolIndex) (start : Text) : List Match :=
  (x.declarations.filter (completes start ·.symbol.name)).mergeSort fun m n => (m.order n).isLE

theorem mem_candidates : m ∈ x.candidates start ↔
    m ∈ x.declarations ∧ Text.lowercase start <+: Text.lowercase m.symbol.name := by
  rw [candidates, List.mem_mergeSort, List.mem_filter, completes, List.isPrefixOf_iff_prefix]

/-- Where no two declarations stand in the same place, sorting leaves no ties. -/
theorem Ordered.candidates (ordered : x.Ordered) (start : Text) :
    (x.candidates start).Pairwise fun m n => m.order n = .lt := by
  have sorted : (x.candidates start).Pairwise fun m n => (m.order n).isLE = true := by
    refine List.pairwise_mergeSort (fun a b c => Std.TransCmp.isLE_trans) (fun a b => ?_) _
    have swapped : b.order a = (a.order b).swap := Std.OrientedCmp.eq_swap
    rw [swapped]
    cases a.order b <;> rfl
  have differ : (x.candidates start).Pairwise fun m n => m.order n ≠ .eq := by
    have apart : (x.declarations.filter (completes start ·.symbol.name)).Pairwise fun m n => m.order n ≠ .eq := by
      refine (ordered.apart.filter _).imp fun {m n} before same => ?_
      obtain ⟨-, file, line⟩ := Match.order_eq_iff.mp same
      rcases before with less | ⟨-, less⟩
      · rw [Path.order_eq_iff.mpr file] at less
        cases less
      · omega
    refine ((List.mergeSort_perm _ _).pairwise_iff ?_).mpr apart
    exact fun differ same => differ (Std.OrientedCmp.eq_symm same)
  refine (sorted.and differ).imp fun {m n} ⟨least, differ⟩ => ?_
  cases at_n : m.order n with
  | lt => rfl
  | eq => exact absurd at_n differ
  | gt => rw [at_n] at least; cases least

/-- A kind and name is reported exactly if some file declares it and it begins
    with the text, both in lower case. -/
theorem exists_mem_complete_iff {kind : SymbolKind} {name : Text} :
    (∃ m ∈ x.complete start, m.symbol.kind = kind ∧ m.symbol.name = name) ↔
      ∃ file, ∃ s ∈ x.symbolsOf file, s.kind = kind ∧ s.name = name ∧
        Text.lowercase start <+: Text.lowercase name := by
  constructor
  · rintro ⟨m, reported, rfl, rfl⟩
    obtain ⟨declared, begins⟩ := mem_candidates.mp ((Match.firsts_sublist _).subset reported)
    exact ⟨m.file, m.symbol, mem_symbolsOf_iff.mpr ⟨m, declared, Path.same_refl _, rfl⟩, rfl, rfl, begins⟩
  · rintro ⟨file, s, declared, rfl, rfl, begins⟩
    obtain ⟨n, listed, -, rfl⟩ := mem_symbolsOf_iff.mp declared
    obtain ⟨m, reported, same⟩ := Match.exists_mem_firsts (mem_candidates.mpr ⟨listed, begins⟩)
    exact ⟨m, reported, Match.sameName_iff.mp same⟩

/-- What is reported stands before every other declaration of its kind and name. -/
theorem Ordered.least (ordered : x.Ordered) (reported : m ∈ x.complete start) {file : Path} {s : Symbol}
    (declared : s ∈ x.symbolsOf file) (kind : s.kind = m.symbol.kind) (name : s.name = m.symbol.name) :
    m.file.same file = true ∧ m.symbol = s ∨ m.IsBefore ⟨file, s⟩ := by
  obtain ⟨n, listed, same, rfl⟩ := mem_symbolsOf_iff.mp declared
  obtain ⟨-, begins⟩ := mem_candidates.mp ((Match.firsts_sublist _).subset reported)
  have candidate : n ∈ x.candidates start := mem_candidates.mpr ⟨listed, name ▸ begins⟩
  have alike : m.sameName n = true := Match.sameName_iff.mpr ⟨kind.symm, name.symm⟩
  rcases Match.firsts_least (ordered.candidates start) reported candidate alike with rfl | less
  · exact .inl ⟨same, rfl⟩
  · exact .inr (((Match.order_of_name name.symm).mp less).of_same same)

/-- The completions of a text stand in strictly increasing order of name, file and
    line, and none repeats a kind and name. A kind and name is among them exactly if
    some file declares it and it begins with the text, both in lower case; it is
    reported by the declaration that stands before all others of its kind and name. -/
theorem complete_least (reached : x.Reached) (start : Text) :
    (x.complete start).Pairwise (fun m n => m.order n = .lt) ∧
    (x.complete start).Pairwise (fun m n => ¬ (m.symbol.kind = n.symbol.kind ∧ m.symbol.name = n.symbol.name)) ∧
    (∀ kind name, (∃ m ∈ x.complete start, m.symbol.kind = kind ∧ m.symbol.name = name) ↔
      ∃ file, ∃ s ∈ x.symbolsOf file, s.kind = kind ∧ s.name = name ∧
        Text.lowercase start <+: Text.lowercase name) ∧
    ∀ m ∈ x.complete start, m ∈ x.declarations ∧ ∀ file, ∀ s ∈ x.symbolsOf file,
      s.kind = m.symbol.kind → s.name = m.symbol.name →
        m.file.same file = true ∧ m.symbol = s ∨ m.IsBefore ⟨file, s⟩ := by
  have ordered := reached.ordered
  refine ⟨?_, ?_, fun kind name => exists_mem_complete_iff, fun m reported => ⟨?_, fun file s declared => ?_⟩⟩
  · exact (ordered.candidates start).sublist (Match.firsts_sublist _)
  · refine (Match.firsts_apart _).imp fun {m n} differ same => ?_
    rw [Match.sameName_iff.mpr same] at differ
    cases differ
  · exact (mem_candidates.mp ((Match.firsts_sublist _).subset reported)).1
  · exact ordered.least reported declared

/-- Two scripts declare the same command and one of them an event of that name;
    the command is reported from the script that comes first, although it was brought
    in last. -/
theorem complete_least_clashing :
    let x := ((build {} [(⟨"b.sk".toList⟩, "command /heal:\non heal:".toList), (⟨"c.sk".toList⟩, "on heat:".toList)]).update
      {} ⟨"a.sk".toList⟩ "stop it\ncommand /heal:".toList).remove ⟨"c.sk/".toList⟩
    x.Reached ∧ ∃ m ∈ x.complete "HE".toList,
      m.file.same ⟨"a.sk".toList⟩ = true ∧ m.symbol = .command "heal".toList 2 := by
  intro x
  have reached : x.Reached := ((Reached.build _ _).update _ _ _).remove _
  obtain ⟨-, -, reports, least⟩ := complete_least reached "HE".toList
  let first : Match := ⟨⟨"a.sk".toList⟩, .command "heal".toList 2⟩
  have declared : first.symbol ∈ x.symbolsOf first.file := by decide +kernel
  obtain ⟨m, reported, kind, name⟩ := (reports .command "heal".toList).mpr
    ⟨first.file, first.symbol, declared, rfl, rfl, by decide +kernel⟩
  obtain ⟨listed, before⟩ := least m reported
  rcases before first.file first.symbol declared kind.symm name.symm with same | earlier
  · exact ⟨reached, m, reported, same⟩
  · have none : ∀ n ∈ x.declarations, n.symbol.kind = .command → ¬ n.IsBefore first := by
      unfold Match.IsBefore
      decide +kernel
    exact absurd earlier (none m listed kind)

end SymbolIndex
end ScriptAtlas
