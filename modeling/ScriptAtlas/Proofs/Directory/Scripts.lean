import Mathlib.Data.List.Forall2
import Mathlib.Data.List.Induction
import Mathlib.Data.List.Sort
import ScriptAtlas.Proofs.Directory.Visiting
import ScriptAtlas.Proofs.Path.Maps

/-!
The index of a folder without ignore files. Its scripts are the files that are
neither hidden nor below a hidden folder and whose name ends in the extension
of scripts (`FileTree.HasScript`). An index built from scripts depends on which
scripts there are and not on their order (`SymbolIndex.build_eq_of_mem_iff`), so
the index of a folder is told by its scripts alone: there is one exactly if all
of them are UTF-8, and it is the one built from them
(`SymbolIndex.ofFolder_of_plain`).
-/
namespace ScriptAtlas

/-! ### Texts as bytes -/

namespace Text

/-- The bytes that encode a text, character by character. -/
def utf8 (s : Text) : List UInt8 := s.flatMap String.utf8EncodeChar

/-- Bytes are read as the text that they encode. -/
theorem ofBytes_eq_some_iff {bytes : List UInt8} {text : Text} : ofBytes bytes = some text ↔ bytes = text.utf8 := by
  have encoded : (String.ofList text).toByteArray = ⟨text.utf8.toArray⟩ := by
    rw [String.toByteArray_ofList, List.utf8Encode]
    exact ByteArray.ext List.data_toByteArray
  have decoded (s : String) (array : ByteArray) : String.fromUTF8? array = some s ↔ s.toByteArray = array := by
    unfold String.fromUTF8?
    constructor
    · intro read
      split at read
      · cases read
        rfl
      · cases read
    · rintro rfl
      rw [dif_pos s.isValidUTF8]
      rfl
  rw [ofBytes, Option.map_eq_some_iff]
  constructor
  · rintro ⟨s, read, rfl⟩
    have same := (decoded s _).mp read
    rw [← String.ofList_toList (s := s), encoded] at same
    simpa using same.symm
  · rintro rfl
    exact ⟨String.ofList text, (decoded _ _).mpr encoded, String.toList_ofList⟩

theorem utf8_inj {left right : Text} : left.utf8 = right.utf8 ↔ left = right := by
  refine ⟨fun same => ?_, congrArg utf8⟩
  have read := ofBytes_eq_some_iff.mpr same
  rwa [ofBytes_eq_some_iff.mpr rfl, Option.some.injEq] at read

end Text

/-! ### Indexes with the same scripts -/

namespace SymbolIndex

/-- The entries of an index, where each file is given with one text only. -/
theorem mem_build_iff {options : ParseOptions} {scripts : List (Path × Text)}
    (single : ∀ e ∈ scripts, ∀ f ∈ scripts, e.1.same f.1 = true → e = f) {e : Path × List Symbol} :
    e ∈ (build options scripts).files.entries ↔ ∃ f ∈ scripts, e = (f.1, (parse options f.2).symbols) := by
  induction scripts using List.reverseRecOn generalizing e with
  | nil => exact ⟨fun member => absurd member List.not_mem_nil, fun ⟨_, member, _⟩ => absurd member List.not_mem_nil⟩
  | append_singleton scripts last ih =>
    have earlier : ∀ e ∈ scripts, ∀ f ∈ scripts, e.1.same f.1 = true → e = f := fun e inside f within =>
      single e (List.mem_append_left _ inside) f (List.mem_append_left _ within)
    have known := fun e => ih earlier (e := e)
    have atLast : ∀ f ∈ scripts, f.1.same last.1 = true → f = last := fun f inside =>
      single f (List.mem_append_left _ inside) last (by simp)
    have built : (build options (scripts ++ [last])).files =
        (build options scripts).files.insert last.1 (parse options last.2).symbols := by
      simp [build, update, updateTree]
    have spelled : ∀ e ∈ (build options scripts).files.entries, e.1.same last.1 = true → e.1 = last.1 := by
      intro e inside same
      obtain ⟨f, member, rfl⟩ := (known e).mp inside
      exact congrArg Prod.fst (atLast f member same)
    rw [built, PathMap.mem_insert_iff spelled, known]
    constructor
    · rintro (rfl | ⟨⟨f, member, rfl⟩, -⟩)
      · exact ⟨last, by simp, rfl⟩
      · exact ⟨f, List.mem_append_left _ member, rfl⟩
    · rintro ⟨f, member, rfl⟩
      rcases List.mem_append.mp member with inside | final
      · by_cases same : f.1.same last.1 = true
        · exact .inl (by rw [atLast f inside same])
        · exact .inr ⟨⟨f, inside, rfl⟩, Bool.eq_false_iff.mpr same⟩
      · exact .inl (by rw [List.mem_singleton.mp final])

/-- The order of the scripts does not matter where each file is given with one text only. -/
theorem build_eq_of_mem_iff {options : ParseOptions} {left right : List (Path × Text)}
    (single : ∀ e ∈ left, ∀ f ∈ left, e.1.same f.1 = true → e = f) (same : ∀ e, e ∈ left ↔ e ∈ right) :
    build options left = build options right := by
  have single' : ∀ e ∈ right, ∀ f ∈ right, e.1.same f.1 = true → e = f := fun e inside f within =>
    single e ((same e).mpr inside) f ((same f).mpr within)
  have order : Std.Antisymm fun e f : Path × List Symbol => e.1.order f.1 = .lt :=
    ⟨fun _ _ less greater => absurd greater (Std.OrientedCmp.not_lt_of_lt less)⟩
  have strict : Std.Irrefl fun e f : Path × List Symbol => e.1.order f.1 = .lt :=
    ⟨fun e less => Std.OrientedCmp.not_lt_of_lt less less⟩
  have entries : (build options left).files.entries = (build options right).files.entries := by
    refine (build options left).files.sorted.eq_of_mem_iff (build options right).files.sorted fun e => ?_
    rw [mem_build_iff single, mem_build_iff single']
    simp only [same]
  have maps : (build options left).files = (build options right).files := PathMap.ext entries
  cases left' : build options left
  cases right' : build options right
  simp_all

end SymbolIndex

/-! ### The scripts of a folder -/

/-- Names lead to a script: a file with the extension of scripts up to the case
    of ASCII letters, neither hidden nor below a hidden folder. -/
def FileTree.HasScript (options : IndexOptions) (t : FileTree) (names : List Text) (bytes : List UInt8) : Prop :=
  t.Shows names bytes ∧ ∃ folders stem ending, names = folders ++ [stem ++ '.' :: ending] ∧ stem ≠ [] ∧ '.' ∉ ending ∧
    Text.sameAscii options.extension ending = true

/-- Scripts with their paths and texts are all of those below a folder with a path. -/
def FileTree.ScriptsAre (options : IndexOptions) (t : FileTree) (path : Path) (scripts : List (Path × Text)) : Prop :=
  ∀ file text, (file, text) ∈ scripts ↔ ∃ names, t.HasScript options names text.utf8 ∧ file = path.below names

/-- The scripts that are visited from a place. -/
def visitedScripts (options : IndexOptions) (s : FileTree.Spot) (path : Path) : List (Path × List UInt8) :=
  (visited s path).filter (options.isScript ·.1.fileName)

section
variable {options : IndexOptions} {s : FileTree.Spot} {path : Path}

/-- Among the files that are shown, the scripts are told by the name at the end of their path. -/
theorem isScript_below_iff (plain : s.Plain) (folder : s.here.isFolder = true) {names : List Text} {bytes : List UInt8}
    (shown : s.here.Shows names bytes) :
    options.isScript (path.below names).fileName = true ↔ s.here.HasScript options names bytes := by
  have some : names ≠ [] := by
    rintro rfl
    obtain ⟨holds, -⟩ := shown
    generalize s.here = t at holds folder
    cases holds
    cases folder
  obtain ⟨folders, name, rfl⟩ : ∃ folders name, names = folders ++ [name] :=
    ⟨_, _, (List.dropLast_append_getLast some).symm⟩
  have last : IsName name := shown.1.proper plain.here.named name (by simp)
  rw [Path.fileName_below path folders last, IndexOptions.isScript_iff last]
  constructor
  · rintro ⟨stem, ending, nonempty, rfl, plainEnding, same⟩
    exact ⟨shown, folders, stem, ending, rfl, nonempty, plainEnding, same⟩
  · rintro ⟨-, folders', stem, ending, spelled, nonempty, plainEnding, same⟩
    obtain ⟨-, names⟩ := List.append_inj' spelled rfl
    exact ⟨stem, ending, nonempty, List.head_eq_of_cons_eq names, plainEnding, same⟩

theorem mem_visitedScripts_iff (plain : s.Plain) (folder : s.here.isFolder = true) {file : Path} {bytes : List UInt8} :
    (file, bytes) ∈ visitedScripts options s path ↔
      ∃ names, s.here.HasScript options names bytes ∧ file = path.below names := by
  rw [visitedScripts, visited_of_plain plain, List.mem_filter, List.mem_map]
  constructor
  · rintro ⟨⟨⟨names, bytes⟩, seen, spelled⟩, chosen⟩
    cases spelled
    exact ⟨names, (isScript_below_iff plain folder (FileTree.mem_seen_iff.mp seen)).mp chosen, rfl⟩
  · rintro ⟨names, script, rfl⟩
    exact ⟨⟨(names, bytes), FileTree.mem_seen_iff.mpr script.1, rfl⟩,
      (isScript_below_iff plain folder script.1).mpr script⟩

/-- Two visited scripts are not the same file. -/
theorem pairwise_visitedScripts (plain : s.Plain) :
    (visitedScripts options s path).Pairwise fun e f => e.1.same f.1 = false := by
  rw [visitedScripts, visited_of_plain plain]
  refine List.Pairwise.filter _ (List.pairwise_map.mpr ?_)
  refine (FileTree.pairwise_seen plain.here.named).imp_of_mem fun {e f} first second apart => ?_
  have proper {e : List Text × List UInt8} (seen : e ∈ s.here.seen) : ∀ name ∈ e.1, IsName name :=
    (FileTree.mem_seen_iff.mp seen).1.proper plain.here.named
  rw [Bool.eq_false_iff]
  exact fun same => apart (Path.eq_of_same_below (proper first) (proper second) same)

/-- Other bytes in files that are no scripts are never read. -/
theorem visitedScripts_mapFiles (plain : s.Plain) (folder : s.here.isFolder = true)
    {change : List Text → List UInt8 → List UInt8}
    (kept : ∀ names bytes, s.here.HasScript options names bytes → change names bytes = bytes) {s' : FileTree.Spot}
    (plain' : s'.Plain) (changed : s'.here = s.here.mapFiles change) :
    visitedScripts options s' path = visitedScripts options s path := by
  rw [visitedScripts, visitedScripts, visited_of_plain plain', visited_of_plain plain, changed,
    FileTree.seen_mapFiles, List.map_map, List.filter_map, List.filter_map]
  refine List.map_congr_left fun e member => ?_
  obtain ⟨seen, chosen⟩ := List.mem_filter.mp member
  have script := (isScript_below_iff plain folder (FileTree.mem_seen_iff.mp seen)).mp chosen
  simp [kept e.1 e.2 script]

/-- The visited scripts that can be read, with their texts. -/
def readableScripts (options : IndexOptions) (s : FileTree.Spot) (path : Path) : List (Path × Text) :=
  (visitedScripts options s path).filterMap fun f => (Text.ofBytes f.2).map (f.1, ·)

theorem scriptsAre_readable (plain : s.Plain) (folder : s.here.isFolder = true) :
    s.here.ScriptsAre options path (readableScripts options s path) := by
  intro file text
  rw [readableScripts, List.mem_filterMap]
  constructor
  · rintro ⟨⟨file, bytes⟩, visited, read⟩
    obtain ⟨text, decoded, equal⟩ := Option.map_eq_some_iff.mp read
    cases equal
    exact (Text.ofBytes_eq_some_iff.mp decoded) ▸ (mem_visitedScripts_iff plain folder).mp visited
  · intro script
    have decoded : Text.ofBytes text.utf8 = some text := Text.ofBytes_eq_some_iff.mpr rfl
    exact ⟨(file, text.utf8), (mem_visitedScripts_iff plain folder).mpr script, by simp [decoded]⟩

theorem pairwise_readableScripts (plain : s.Plain) :
    (readableScripts options s path).Pairwise fun e f => e.1.same f.1 = false := by
  have files : (visitedScripts options s path).Pairwise fun e f => e.1.same f.1 = false := pairwise_visitedScripts plain
  refine files.filterMap _ fun e f apart e' read f' read' => ?_
  obtain ⟨text, -, rfl⟩ := Option.map_eq_some_iff.mp read
  obtain ⟨text', -, rfl⟩ := Option.map_eq_some_iff.mp read'
  exact apart

/-- Each file is given with one text only. -/
theorem FileTree.ScriptsAre.single (plain : s.Plain) {scripts : List (Path × Text)}
    (are : s.here.ScriptsAre options path scripts) :
    ∀ e ∈ scripts, ∀ f ∈ scripts, e.1.same f.1 = true → e = f := by
  rintro ⟨file, text⟩ first ⟨file', text'⟩ second same
  obtain ⟨names, script, rfl⟩ := (are file text).mp first
  obtain ⟨names', script', rfl⟩ := (are file' text').mp second
  have holds := script.1.1
  have holds' := script'.1.1
  obtain rfl := Path.eq_of_same_below (holds.proper plain.here.named) (holds'.proper plain.here.named) same
  rw [Text.utf8_inj.mp (holds.unique plain.here.named holds')]

end

/-! ### The index of a folder -/

theorem mapM_scriptText {files : List (Path × List UInt8)} (readable : ∀ f ∈ files, ∃ text, Text.ofBytes f.2 = some text) :
    files.mapM (fun f => scriptText f.1 f.2) = .ok (files.filterMap fun f => (Text.ofBytes f.2).map (f.1, ·)) := by
  induction files with
  | nil => rfl
  | cons f files ih =>
    obtain ⟨⟨text, decoded⟩, others⟩ := List.forall_mem_cons.mp readable
    have first : scriptText f.1 f.2 = .ok (f.1, text) := by simp [scriptText, decoded]
    rw [List.mapM_cons, first, ih others, List.filterMap_cons, decoded]
    rfl

/-- One file that cannot be read leaves no result. -/
theorem mapM_scriptText_of_unreadable {files : List (Path × List UInt8)} {f : Path × List UInt8} (member : f ∈ files)
    (unreadable : Text.ofBytes f.2 = none) : ∃ fault, files.mapM (fun f => scriptText f.1 f.2) = .error fault := by
  induction files with
  | nil => cases member
  | cons g files ih =>
    rw [List.mapM_cons]
    rcases List.mem_cons.mp member with rfl | later
    · have first : scriptText f.1 f.2 = .error (.unreadable f.1) := by simp [scriptText, unreadable]
      exact ⟨.unreadable f.1, by rw [first]; rfl⟩
    · obtain ⟨fault, rest⟩ := ih later
      cases first : scriptText g.1 g.2 with
      | error fault' => exact ⟨fault', rfl⟩
      | ok e => exact ⟨fault, by rw [rest]; rfl⟩

namespace SymbolIndex

section
variable {options : IndexOptions} {s : FileTree.Spot} {path : Path}

theorem ofSpot_eq :
    ofSpot options s path =
      ((visitedScripts options s path).mapM fun f => scriptText f.1 f.2).map (build options.parse) := by
  show ((visitedScripts options s path).mapM fun f => scriptText f.1 f.2) >>= (fun scripts => pure _) = _
  cases (visitedScripts options s path).mapM fun f => scriptText f.1 f.2 <;> rfl

theorem ofSpot_of_readable (readable : ∀ f ∈ visitedScripts options s path, ∃ text, Text.ofBytes f.2 = some text) :
    ofSpot options s path = .ok (build options.parse (readableScripts options s path)) := by
  rw [ofSpot_eq, mapM_scriptText readable]
  rfl

theorem ofSpot_eq_ok_iff {x : SymbolIndex} :
    ofSpot options s path = .ok x ↔
      (∀ f ∈ visitedScripts options s path, ∃ text, Text.ofBytes f.2 = some text) ∧
        x = build options.parse (readableScripts options s path) := by
  constructor
  · intro built
    have readable : ∀ f ∈ visitedScripts options s path, ∃ text, Text.ofBytes f.2 = some text := by
      intro f member
      cases decoded : Text.ofBytes f.2 with
      | some text => exact ⟨text, rfl⟩
      | none =>
        obtain ⟨fault, failed⟩ := mapM_scriptText_of_unreadable member decoded
        rw [ofSpot_eq, failed] at built
        cases built
    rw [ofSpot_of_readable readable] at built
    cases built
    exact ⟨readable, rfl⟩
  · rintro ⟨readable, rfl⟩
    exact ofSpot_of_readable readable

end

theorem ofFolder_of_reach {options : IndexOptions} {t : FileTree} {top : Path} {way : Option Text}
    {s : FileTree.Spot} (leads : t.reach way = .ok s) :
    ofFolder options t top way = ofSpot options s (way.elim top top.child) := by
  cases way with
  | none =>
    cases leads
    rfl
  | some way =>
    have found : t.find way = .ok s := leads
    simp [ofFolder, found]

/-- The index of a folder without ignore files is the index of its scripts. There
    is one exactly if the bytes of all of them encode texts; then it is the one
    built from those texts, in any order. No other file counts, neither below the
    folder nor elsewhere in the tree: trees that have the folder with other bytes
    in files that are no scripts have the same result, be it an index or an error. -/
theorem ofFolder_of_plain {options : IndexOptions} {t : FileTree} {top : Path} {way : Option Text}
    {s : FileTree.Spot} (plain : t.Plain) (leads : t.reach way = .ok s) (folder : s.here.isFolder = true) :
    ((∃ x, ofFolder options t top way = .ok x) ↔
      ∀ names bytes, s.here.HasScript options names bytes → ∃ text, bytes = Text.utf8 text) ∧
    (∃ scripts, s.here.ScriptsAre options (way.elim top top.child) scripts ∧
      scripts.Pairwise fun e f => e.1.same f.1 = false) ∧
    (∀ x scripts, ofFolder options t top way = .ok x → s.here.ScriptsAre options (way.elim top top.child) scripts →
      x = build options.parse scripts) ∧
    (∀ t' s' change, t'.Plain → t'.reach way = .ok s' → s'.here = s.here.mapFiles change →
      (∀ names bytes, s.here.HasScript options names bytes → change names bytes = bytes) →
      ofFolder options t' top way = ofFolder options t top way) := by
  have around : s.Plain := .of_reach plain leads
  rw [ofFolder_of_reach leads]
  generalize directory : way.elim top top.child = path
  have all : s.here.ScriptsAre options path (readableScripts options s path) := scriptsAre_readable around folder
  refine ⟨?_, ⟨_, all, pairwise_readableScripts around⟩, ?_, ?_⟩
  · simp only [ofSpot_eq_ok_iff, exists_and_left, exists_eq, and_true, Text.ofBytes_eq_some_iff]
    constructor
    · intro readable names bytes script
      exact readable (path.below names, bytes) ((mem_visitedScripts_iff around folder).mpr ⟨names, script, rfl⟩)
    · rintro readable ⟨file, bytes⟩ visited
      obtain ⟨names, script, -⟩ := (mem_visitedScripts_iff around folder).mp visited
      exact readable names bytes script
  · intro x scripts built are
    obtain ⟨-, rfl⟩ := ofSpot_eq_ok_iff.mp built
    exact build_eq_of_mem_iff (all.single around) fun ⟨file, text⟩ => (all file text).trans (are file text).symm
  · intro t' s' change plain' leads' changed kept
    rw [ofFolder_of_reach leads', directory, ofSpot_eq, ofSpot_eq,
      visitedScripts_mapFiles around folder kept (.of_reach plain' leads') changed]

/-- A folder with two scripts, one of them in a folder that is named like a
    script; all other files hold the same bytes. -/
def scriptFolder (others : List UInt8) : FileTree :=
  .folder [
    ("lib.sk".toList, .folder [("A.SK".toList, .file [111, 110, 58]), (".x.sk".toList, .file others)]),
    (".old".toList, .folder [("main.sk".toList, .file others)]),
    ("b.sk".toList, .file [115, 116, 111, 112]),
    ("b.sk.txt".toList, .file others)]

/-- That folder in a tree with another file. -/
def project (others : List UInt8) : FileTree :=
  .folder [("code".toList, scriptFolder others), ("main.sk".toList, .file others)]

/-- Bytes that encode no text are of no account in files that are no visited scripts. -/
theorem ofFolder_of_plain_hidden :
    let way := some "code".toList
    let s : FileTree.Spot := ⟨scriptFolder [0xFF], [(project [0xFF], "code".toList)]⟩
    (project [0xFF]).Plain ∧ (project [0xFF]).reach way = .ok s ∧ s.here.isFolder = true ∧
      ofFolder {} (project [0xFF]) ⟨"$DIR".toList⟩ way = .ok (build {}
        [(⟨"$DIR/code/b.sk".toList⟩, "stop".toList), (⟨"$DIR/code/lib.sk/A.SK".toList⟩, "on:".toList)]) ∧
      ofFolder {} (project []) ⟨"$DIR".toList⟩ way = ofFolder {} (project [0xFF]) ⟨"$DIR".toList⟩ way := by
  intro way s
  have plain : (project [0xFF]).Plain := by decide
  have leads : (project [0xFF]).reach way = .ok s := rfl
  have folder : s.here.isFolder = true := rfl
  have around : s.Plain := .of_reach plain leads
  have path : way.elim ⟨"$DIR".toList⟩ (Path.child ⟨"$DIR".toList⟩) = ⟨"$DIR/code".toList⟩ := by decide +kernel
  have visited : visitedScripts {} s ⟨"$DIR/code".toList⟩ =
      [(⟨"$DIR/code/lib.sk/A.SK".toList⟩, [111, 110, 58]), (⟨"$DIR/code/b.sk".toList⟩, [115, 116, 111, 112])] := by
    decide +kernel
  have readable : readableScripts {} s ⟨"$DIR/code".toList⟩ =
      [(⟨"$DIR/code/lib.sk/A.SK".toList⟩, "on:".toList), (⟨"$DIR/code/b.sk".toList⟩, "stop".toList)] := by
    decide +kernel
  have written (names : List Text) (bytes : List UInt8) (script : s.here.HasScript {} names bytes) :
      bytes = [111, 110, 58] ∨ bytes = [115, 116, 111, 112] := by
    have member : (Path.below ⟨"$DIR/code".toList⟩ names, bytes) ∈ visitedScripts {} s ⟨"$DIR/code".toList⟩ :=
      (mem_visitedScripts_iff around folder).mpr ⟨names, script, rfl⟩
    rw [visited] at member
    rcases List.mem_cons.mp member with first | last
    · exact .inl (congrArg Prod.snd first)
    · exact .inr (congrArg Prod.snd (List.mem_singleton.mp last))
  have are : s.here.ScriptsAre {} ⟨"$DIR/code".toList⟩
      [(⟨"$DIR/code/b.sk".toList⟩, "stop".toList), (⟨"$DIR/code/lib.sk/A.SK".toList⟩, "on:".toList)] := by
    intro file text
    rw [← scriptsAre_readable around folder file text, readable, List.mem_pair, List.mem_pair, or_comm]
  have facts := @ofFolder_of_plain {} (project [0xFF]) ⟨"$DIR".toList⟩ way s plain leads folder
  rw [path] at facts
  obtain ⟨success, -, exact, others⟩ := facts
  refine ⟨plain, leads, folder, ?_, ?_⟩
  · obtain ⟨x, built⟩ := success.mpr fun names bytes script => by
      rcases written names bytes script with rfl | rfl
      · exact ⟨"on:".toList, by decide⟩
      · exact ⟨"stop".toList, by decide⟩
    rw [built, exact x _ built are]
  · refine others (project []) ⟨scriptFolder [], [(project [], "code".toList)]⟩
      (fun _ bytes => if bytes = [0xFF] then [] else bytes) (by decide) rfl rfl fun names bytes script => ?_
    rcases written names bytes script with rfl | rfl
    · decide
    · decide

end SymbolIndex
end ScriptAtlas
