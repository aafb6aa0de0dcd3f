import ScriptAtlas.Json.Options
import ScriptAtlas.Proofs.Json.Printed

/-!
Options overlay their defaults. From an object with pairwise different keys whose
known keys have values of their types, options are read that have the given values
and otherwise the defaults; an object that repeats a known key is rejected
(`options_overlay_defaults`).
-/
namespace ScriptAtlas.Json

/-! ### Values of options -/

/-- A number of 64 bits in plain decimal digits. -/
def WritesNat (v : Text) (n : Nat) : Prop := v = Text.ofNat n ∧ n < UInt64.size

def WritesBool (v : Text) (b : Bool) : Prop := v = if b then "true".toList else "false".toList

def WritesText (v s : Text) : Prop := ∃ content, Means content s ∧ v = '"' :: (content ++ ['"'])

theorem WritesNat.accepts {v : Text} {n : Nat} (written : WritesNat v n) : Accepts readNat v n := by
  obtain ⟨rfl, small⟩ := written
  have limit : significandLimit + 1 = UInt64.size := rfl
  exact accepts_ofNat (by omega)

theorem WritesBool.accepts {v : Text} {b : Bool} (written : WritesBool v b) : Accepts readBool v b := by
  subst written
  cases b with
  | true => exact accepts_true
  | false => exact accepts_false

theorem WritesText.accepts {v s : Text} (written : WritesText v s) : Accepts readString v s := by
  obtain ⟨content, means, rfl⟩ := written
  exact means.accepts

/-! ### Parse options -/

def parseKeys : List Text := ["tab_width".toList, "classify_options".toList]

/-- The known keys have values of their types. -/
def TypedParse (members : List (Text × Text)) : Prop :=
  Typed members "tab_width".toList WritesNat ∧ Typed members "classify_options".toList WritesBool

/-- Parse options are given by members, with the defaults for absent keys. -/
def GivesParse (members : List (Text × Text)) (o : ParseOptions) : Prop :=
  Gives members "tab_width".toList WritesNat 4 o.tabWidth ∧
    Gives members "classify_options".toList WritesBool false o.classifyOptions

/-- An object with different keys is written for parse options. -/
def WritesParse (v : Text) (o : ParseOptions) : Prop :=
  ∃ members, IsObject v members ∧ (members.map (·.1)).Nodup ∧ GivesParse members o

theorem confined_parseFields : ∀ f ∈ parseRecord.fields, ∀ d, Confined (f.read d) := by
  intro f member
  rcases List.mem_pair.mp member with rfl | rfl
  · exact confined_readNat.field
  · exact confined_readBool.field

theorem independent_parse : Independent parseRecord where
  own f member d k d' k' found := by
    rcases List.mem_pair.mp member with rfl | rfl
    all_goals
      obtain ⟨b, -, rfl⟩ := Field.exists_of_read found
      rfl
  apart f member g member' other d k d' k' found := by
    rcases List.mem_pair.mp member with rfl | rfl <;> rcases List.mem_pair.mp member' with rfl | rfl
    all_goals first
      | obtain ⟨b, -, rfl⟩ := Field.exists_of_read found
        rfl
      | exact (other rfl).elim

theorem exists_parse {s : Text} {members : List (Text × Text)} (object : IsObject s members)
    (distinct : (members.map (·.1)).Nodup) (typed : TypedParse members) :
    ∃ o, Accepts parseRecord.read s o ∧ GivesParse members o := by
  obtain ⟨width, classify⟩ := typed
  have values : ∀ key v f, (key, v) ∈ members → parseRecord.fields.find? (·.name == key) = some f →
      ∀ d, ∃ d', Accepts (f.read d) v d' := by
    intro key v f member found d
    obtain ⟨inside, rfl⟩ := eq_of_find?_name found
    rcases List.mem_pair.mp inside with rfl | rfl
    · obtain ⟨n, written⟩ := width v member
      exact ⟨_, written.accepts.field d⟩
    · obtain ⟨b, written⟩ := classify v member
      exact ⟨_, written.accepts.field d⟩
  have fresh : ∀ key v f, (key, v) ∈ members → parseRecord.fields.find? (·.name == key) = some f →
      f.isGiven parseRecord.draft = false := by
    intro key v f _ found
    rcases List.mem_pair.mp (eq_of_find?_name found).1 with rfl | rfl <;> rfl
  obtain ⟨d, overlays⟩ := exists_overlays independent_parse distinct values parseRecord.draft fresh
  have knownWidth : parseRecord.fields.find? (·.name == "tab_width".toList) =
      some (.of "tab_width".toList (·.tabWidth) (fun d n => { d with tabWidth := some n }) readNat) := rfl
  have knownClassify : parseRecord.fields.find? (·.name == "classify_options".toList) =
      some (.of "classify_options".toList (·.classifyOptions) (fun d b => { d with classifyOptions := some b })
        readBool) := rfl
  refine ⟨d.complete, object.accepts overlays rfl, ?_, ?_⟩
  · refine overlays.gives distinct knownWidth ?_ (fun _ _ => rfl) rfl (fun _ _ => WritesNat.accepts) width 4
    intro f member other d v d' accepts
    rcases List.mem_pair.mp member with rfl | rfl
    · exact (other rfl).elim
    · obtain ⟨b, rfl⟩ := accepts.exists_of_field
      rfl
  · refine overlays.gives distinct knownClassify ?_ (fun _ _ => rfl) rfl (fun _ _ => WritesBool.accepts) classify false
    intro f member other d v d' accepts
    rcases List.mem_pair.mp member with rfl | rfl
    · obtain ⟨b, rfl⟩ := accepts.exists_of_field
      rfl
    · exact (other rfl).elim

theorem GivesParse.unique {members : List (Text × Text)} {o o' : ParseOptions} (first : GivesParse members o)
    (second : GivesParse members o') : o = o' := by
  have width : o.tabWidth = o'.tabWidth := first.1.unique (fun _ _ _ n m => n.accepts.unique m.accepts) second.1
  have classify : o.classifyOptions = o'.classifyOptions :=
    first.2.unique (fun _ _ _ b b' => b.accepts.unique b'.accepts) second.2
  cases o
  cases o'
  cases width
  cases classify
  rfl

theorem WritesParse.accepts {v : Text} {o : ParseOptions} (written : WritesParse v o) :
    Accepts parseRecord.read v o := by
  obtain ⟨members, object, distinct, gives⟩ := written
  obtain ⟨o', accepts, gives'⟩ := exists_parse object distinct ⟨gives.1.typed, gives.2.typed⟩
  rwa [gives.unique gives']

/-! ### Index options -/

def indexKeys : List Text := ["parse".toList, "extension".toList, "cross_auto_complete".toList]

/-- The known keys have values of their types. -/
def TypedIndex (members : List (Text × Text)) : Prop :=
  Typed members "parse".toList WritesParse ∧ Typed members "extension".toList WritesText ∧
    Typed members "cross_auto_complete".toList WritesBool

/-- Index options are given by members, with the defaults for absent keys. -/
def GivesIndex (members : List (Text × Text)) (o : IndexOptions) : Prop :=
  Gives members "parse".toList WritesParse ⟨4, false⟩ o.parse ∧
    Gives members "extension".toList WritesText "sk".toList o.extension ∧
    Gives members "cross_auto_complete".toList WritesBool true o.crossAutoComplete

/-- A known key is repeated, in the object itself or in the one given for parse options. -/
def RepeatsIndex (members : List (Text × Text)) : Prop :=
  Repeats indexKeys members ∨
    ∃ v inner, ("parse".toList, v) ∈ members ∧ IsObject v inner ∧ Repeats parseKeys inner

theorem GivesIndex.unique {members : List (Text × Text)} {o o' : IndexOptions} (first : GivesIndex members o)
    (second : GivesIndex members o') : o = o' := by
  have parse : o.parse = o'.parse := first.1.unique (fun _ _ _ p p' => p.accepts.unique p'.accepts) second.1
  have extension : o.extension = o'.extension :=
    first.2.1.unique (fun _ _ _ s s' => s.accepts.unique s'.accepts) second.2.1
  have cross : o.crossAutoComplete = o'.crossAutoComplete :=
    first.2.2.unique (fun _ _ _ b b' => b.accepts.unique b'.accepts) second.2.2
  cases o
  cases o'
  cases parse
  cases extension
  cases cross
  rfl

theorem mem_indexFields {f : Field IndexDraft} (member : f ∈ indexRecord.fields) :
    f = .of "parse".toList (·.parse) (fun d p => { d with parse := some p }) parseRecord.read ∨
    f = .of "extension".toList (·.extension) (fun d s => { d with extension := some s }) readString ∨
    f = .of "cross_auto_complete".toList (·.crossAutoComplete) (fun d b => { d with crossAutoComplete := some b })
      readBool := by
  rcases List.mem_cons.mp member with first | later
  · exact .inl first
  · exact .inr (List.mem_pair.mp later)

theorem confined_indexFields : ∀ f ∈ indexRecord.fields, ∀ d, Confined (f.read d) := by
  intro f member
  rcases mem_indexFields member with rfl | rfl | rfl
  · exact (Record.confined confined_parseFields).field
  · exact confined_readString.field
  · exact confined_readBool.field

theorem independent_index : Independent indexRecord where
  own f member d k d' k' found := by
    rcases mem_indexFields member with rfl | rfl | rfl
    all_goals
      obtain ⟨b, -, rfl⟩ := Field.exists_of_read found
      rfl
  apart f member g member' other d k d' k' found := by
    rcases mem_indexFields member with rfl | rfl | rfl <;> rcases mem_indexFields member' with rfl | rfl | rfl
    all_goals first
      | obtain ⟨b, -, rfl⟩ := Field.exists_of_read found
        rfl
      | exact (other rfl).elim

theorem exists_index {s : Text} {members : List (Text × Text)} (object : IsObject s members)
    (distinct : (members.map (·.1)).Nodup) (typed : TypedIndex members) :
    ∃ o, Accepts indexRecord.read s o ∧ GivesIndex members o := by
  obtain ⟨parse, extension, cross⟩ := typed
  have values : ∀ key v f, (key, v) ∈ members → indexRecord.fields.find? (·.name == key) = some f →
      ∀ d, ∃ d', Accepts (f.read d) v d' := by
    intro key v f member found d
    obtain ⟨inside, rfl⟩ := eq_of_find?_name found
    rcases mem_indexFields inside with rfl | rfl | rfl
    · obtain ⟨o, written⟩ := parse v member
      exact ⟨_, written.accepts.field d⟩
    · obtain ⟨t, written⟩ := extension v member
      exact ⟨_, written.accepts.field d⟩
    · obtain ⟨b, written⟩ := cross v member
      exact ⟨_, written.accepts.field d⟩
  have fresh : ∀ key v f, (key, v) ∈ members → indexRecord.fields.find? (·.name == key) = some f →
      f.isGiven indexRecord.draft = false := by
    intro key v f _ found
    rcases mem_indexFields (eq_of_find?_name found).1 with rfl | rfl | rfl <;> rfl
  obtain ⟨d, overlays⟩ := exists_overlays independent_index distinct values indexRecord.draft fresh
  have knownParse : indexRecord.fields.find? (·.name == "parse".toList) =
      some (.of "parse".toList (·.parse) (fun d p => { d with parse := some p }) parseRecord.read) := rfl
  have knownExtension : indexRecord.fields.find? (·.name == "extension".toList) =
      some (.of "extension".toList (·.extension) (fun d s => { d with extension := some s }) readString) := rfl
  have knownCross : indexRecord.fields.find? (·.name == "cross_auto_complete".toList) =
      some (.of "cross_auto_complete".toList (·.crossAutoComplete)
        (fun d b => { d with crossAutoComplete := some b }) readBool) := rfl
  refine ⟨d.complete, object.accepts overlays rfl, ?_, ?_, ?_⟩
  · refine overlays.gives distinct knownParse ?_ (fun _ _ => rfl) rfl (fun _ _ => WritesParse.accepts) parse ⟨4, false⟩
    intro f member other d v d' accepts
    rcases mem_indexFields member with rfl | rfl | rfl
    · exact (other rfl).elim
    all_goals
      obtain ⟨b, rfl⟩ := accepts.exists_of_field
      rfl
  · refine overlays.gives distinct knownExtension ?_ (fun _ _ => rfl) rfl (fun _ _ => WritesText.accepts) extension
      "sk".toList
    intro f member other d v d' accepts
    rcases mem_indexFields member with rfl | rfl | rfl
    · obtain ⟨b, rfl⟩ := accepts.exists_of_field
      rfl
    · exact (other rfl).elim
    · obtain ⟨b, rfl⟩ := accepts.exists_of_field
      rfl
  · refine overlays.gives distinct knownCross ?_ (fun _ _ => rfl) rfl (fun _ _ => WritesBool.accepts) cross true
    intro f member other d v d' accepts
    rcases mem_indexFields member with rfl | rfl | rfl
    · obtain ⟨b, rfl⟩ := accepts.exists_of_field
      rfl
    · obtain ⟨b, rfl⟩ := accepts.exists_of_field
      rfl
    · exact (other rfl).elim

/-- Index options that repeat a known key are not read. -/
theorem RepeatsIndex.not_read {members : List (Text × Text)} (repeats : RepeatsIndex members) {s : Text}
    (object : IsObject s members) {gap rest : Text} (blank : isGap gap = true) {place : Place} {o : IndexOptions}
    {k : Cursor} : indexRecord.read ⟨gap ++ (s ++ rest), place⟩ ≠ .ok (o, k) := by
  rcases repeats with here | ⟨v, inner, member, object', inside⟩
  · exact object.not_read confined_indexFields independent_index here blank
  · intro found
    obtain ⟨d, overlays⟩ := object.overlays_of_read confined_indexFields blank found
    have known : indexRecord.fields.find? (·.name == "parse".toList) =
        some (.of "parse".toList (·.parse) (fun d p => { d with parse := some p }) parseRecord.read) := rfl
    obtain ⟨d₁, d₂, gap', rest', place', k', blank', -, read⟩ := overlays.exists_readsSomewhere member known
    obtain ⟨p, read, -⟩ := Field.exists_of_read read
    exact object'.not_read confined_parseFields independent_parse inside blank' read

/-! ### Written objects -/

/-- An object with a value given for parse options only. -/
theorem isObject_parse {v : Text} (value : IsValue v) :
    IsObject ("\x7b\"parse\":".toList ++ (v ++ ['\x7d'])) [("parse".toList, v)] :=
  ⟨_, _, rfl, @IsMembers.member true [] "parse".toList [] [] v ['\x7d'] [] (.first isGap_nil)
    (means_printed "parse".toList).isContent isGap_nil isGap_nil value (.close isGap_nil),
    .cons ⟨means_printed "parse".toList, rfl⟩ .nil⟩

/-- The second key is the first one with an escape in it. -/
theorem isObject_repeated :
    IsObject "\x7b\"tab_width\":1,\"tab\\u005fwidth\":\"x\"\x7d".toList
      [("tab_width".toList, "1".toList), ("tab_width".toList, "\"x\"".toList)] := by
  have one : IsNumber "1".toList := isNumber_ofNat 1
  have width : Means "tab_width".toList "tab_width".toList := means_printed "tab_width".toList
  have escaped : Means "tab\\u005fwidth".toList "tab_width".toList :=
    (means_printed "tab".toList).append
      (.unit (by decide : hexValue? '0' '0' '5' 'f' = some 95) ⟨rfl, rfl⟩ (means_printed "width".toList))
  exact ⟨_, _, rfl, @IsMembers.member true [] "tab_width".toList [] [] "1".toList
    ",\"tab\\u005fwidth\":\"x\"\x7d".toList _ (.first isGap_nil) width.isContent isGap_nil isGap_nil (.number one)
    (@IsMembers.member false [','] "tab\\u005fwidth".toList [] [] "\"x\"".toList ['\x7d'] []
      (.comma isGap_nil isGap_nil) escaped.isContent isGap_nil isGap_nil (.text (means_printed "x".toList).isContent)
      (.close isGap_nil)), .cons ⟨width, rfl⟩ (.cons ⟨escaped, rfl⟩ .nil)⟩

/-- An unknown key in front of a known one. -/
theorem isObject_mixed :
    IsObject "\x7b\"x\":[ ], \"tab_width\" : 8\x7d".toList
      [("x".toList, "[ ]".toList), ("tab_width".toList, "8".toList)] := by
  have eight : IsNumber "8".toList := isNumber_ofNat 8
  have x : Means "x".toList "x".toList := means_printed "x".toList
  have width : Means "tab_width".toList "tab_width".toList := means_printed "tab_width".toList
  exact ⟨_, _, rfl, @IsMembers.member true [] "x".toList [] [] "[ ]".toList ", \"tab_width\" : 8\x7d".toList _
    (.first isGap_nil) x.isContent isGap_nil isGap_nil (.array (.close isGap_blank))
    (@IsMembers.member false ", ".toList "tab_width".toList [' '] [' '] "8".toList ['\x7d'] []
      (.comma isGap_nil isGap_blank) width.isContent isGap_blank isGap_blank (.number eight) (.close isGap_nil)),
    .cons ⟨x, rfl⟩ (.cons ⟨width, rfl⟩ .nil)⟩

/-- A known key inside an ignored value, with half a character as its value. -/
theorem isValue_note : IsValue "[-2e-3 ,\x7b\"parse\":\"\\uD800\"\x7d]".toList := by
  have number : IsNumber "-2e-3".toList :=
    @IsNumber.of ['-'] ['2'] [] ['e', '-', '3'] (.inr rfl) ⟨by decide, rfl⟩ (by decide) .none
      (@IsExponent.some 'e' ['-'] ['3'] (.inl rfl) (.inr (.inr rfl)) ⟨by decide, rfl⟩)
  have half : IsContent "\\uD800".toList := .unit (by decide : hexValue? 'D' '8' '0' '0' = some 0xD800) .nil
  have object : IsValue "\x7b\"parse\":\"\\uD800\"\x7d".toList := (isObject_parse (.text half)).isValue
  have others := @IsItems.item false " ,".toList _ [']'] (.comma isGap_blank isGap_nil) object (.close isGap_nil)
  have items := @IsItems.item true [] "-2e-3".toList _ (.first isGap_nil) (.number number) others
  exact .array items

theorem means_face : Means "\\uD83D\\uDE00".toList ['😀'] := by
  have face : pairChar 0xD83D 0xDE00 = '😀' := by decide
  rw [← face]
  exact .pair (by decide : hexValue? 'D' '8' '3' 'D' = some 0xD83D) (by decide)
    (by decide : hexValue? 'D' 'E' '0' '0' = some 0xDE00) (by decide) .nil

/-- Objects in objects; the last key has an escape in it, the last value is one. -/
theorem isObject_nested :
    IsObject ("\x7b\"note\" :[-2e-3 ,\x7b\"parse\":\"\\uD800\"\x7d],\n\"parse\":\x7b\"x\":[ ], ".toList ++
        "\"tab_width\" : 8\x7d,\"extensi\\u006fn\":\"\\uD83D\\uDE00\"\x7d".toList)
      [("note".toList, "[-2e-3 ,\x7b\"parse\":\"\\uD800\"\x7d]".toList),
        ("parse".toList, "\x7b\"x\":[ ], \"tab_width\" : 8\x7d".toList),
        ("extension".toList, "\"\\uD83D\\uDE00\"".toList)] := by
  have note : Means "note".toList "note".toList := means_printed "note".toList
  have parse : Means "parse".toList "parse".toList := means_printed "parse".toList
  have extension : Means "extensi\\u006fn".toList "extension".toList :=
    (means_printed "extensi".toList).append
      (.unit (by decide : hexValue? '0' '0' '6' 'f' = some 111) ⟨rfl, rfl⟩ (means_printed "n".toList))
  have third := @IsMembers.member false [','] _ [] [] _ ['\x7d'] [] (.comma isGap_nil isGap_nil) extension.isContent
    isGap_nil isGap_nil (.text means_face.isContent) (.close isGap_nil)
  have newline : isGap ['\n'] = true := rfl
  have second := @IsMembers.member false ",\n".toList "parse".toList [] [] _ _ _ (.comma isGap_nil newline)
    parse.isContent isGap_nil isGap_nil isObject_mixed.isValue third
  have first := @IsMembers.member true [] "note".toList [' '] [] _ _ _ (.first isGap_nil) note.isContent isGap_blank
    isGap_nil isValue_note second
  exact ⟨_, _, rfl, first, .cons ⟨note, rfl⟩ (.cons ⟨parse, rfl⟩ (.cons ⟨extension, rfl⟩ .nil))⟩

/-! ### Documents -/

/-- Options overlay their defaults: from a document with pairwise different keys
    whose known keys have values of their types, the options are read that have
    the given values and otherwise the defaults, whatever unknown keys hold. A
    document that repeats a known key is rejected. -/
theorem options_overlay_defaults (text : Text) (members : List (Text × Text)) (document : IsDocument text members) :
    ((members.map (·.1)).Nodup → TypedParse members →
      ∃ o, ParseOptions.ofJson? text = .ok o ∧ GivesParse members o) ∧
    ((members.map (·.1)).Nodup → TypedIndex members →
      ∃ o, IndexOptions.ofJson? text = .ok o ∧ GivesIndex members o) ∧
    (Repeats parseKeys members → ∃ fault, ParseOptions.ofJson? text = .error fault) ∧
    (RepeatsIndex members → ∃ fault, IndexOptions.ofJson? text = .error fault) := by
  have whole := document
  obtain ⟨before, s, behind, blank, blank', object, rfl⟩ := whole
  refine ⟨fun distinct typed => ?parse, fun distinct typed => ?index, fun repeats => ?repeatedParse,
    fun repeats => ?repeatedIndex⟩
  case parse =>
    obtain ⟨o, accepts, gives⟩ := exists_parse object distinct typed
    exact ⟨o, accepts.readWhole_between blank blank', gives⟩
  case index =>
    obtain ⟨o, accepts, gives⟩ := exists_index object distinct typed
    exact ⟨o, accepts.readWhole_between blank blank', gives⟩
  case repeatedParse =>
    exact document.readWhole_eq_error fun s object gap rest place o k blank =>
      object.not_read confined_parseFields independent_parse repeats blank
  case repeatedIndex =>
    exact document.readWhole_eq_error fun s object gap rest place o k blank => repeats.not_read object blank

theorem options_overlay_defaults_nested :
    IndexOptions.ofJson? ("\n".toList ++
        (("\x7b\"note\" :[-2e-3 ,\x7b\"parse\":\"\\uD800\"\x7d],\n\"parse\":\x7b\"x\":[ ], ".toList ++
          "\"tab_width\" : 8\x7d,\"extensi\\u006fn\":\"\\uD83D\\uDE00\"\x7d".toList) ++ " \t".toList)) =
      .ok ⟨⟨8, false⟩, ['😀'], true⟩ ∧
    ParseOptions.ofJson? "\x7b\"x\":[ ], \"tab_width\" : 8\x7d".toList = .ok ⟨8, false⟩ ∧
    (∃ fault, ParseOptions.ofJson? "\x7b\"tab_width\":1,\"tab\\u005fwidth\":\"x\"\x7d".toList = .error fault) ∧
    ∃ fault, IndexOptions.ofJson? "\x7b\"parse\":\x7b\"tab_width\":1,\"tab\\u005fwidth\":\"x\"\x7d\x7d".toList =
      .error fault := by
  have eight : WritesNat "8".toList 8 := ⟨rfl, by decide⟩
  have parse : GivesParse [("x".toList, "[ ]".toList), ("tab_width".toList, "8".toList)] ⟨8, false⟩ :=
    ⟨gives_of_mem (by decide) (List.mem_cons_of_mem _ List.mem_cons_self) eight 4, gives_of_absent (by decide) _ false⟩
  have written : WritesParse "\x7b\"x\":[ ], \"tab_width\" : 8\x7d".toList ⟨8, false⟩ :=
    ⟨_, isObject_mixed, by decide, parse⟩
  have face : WritesText "\"\\uD83D\\uDE00\"".toList ['😀'] := ⟨_, means_face, rfl⟩
  have index : GivesIndex [("note".toList, "[-2e-3 ,\x7b\"parse\":\"\\uD800\"\x7d]".toList),
      ("parse".toList, "\x7b\"x\":[ ], \"tab_width\" : 8\x7d".toList),
      ("extension".toList, "\"\\uD83D\\uDE00\"".toList)] ⟨⟨8, false⟩, ['😀'], true⟩ :=
    ⟨gives_of_mem (by decide) (List.mem_cons_of_mem _ List.mem_cons_self) written ⟨4, false⟩,
      gives_of_mem (by decide) (List.mem_cons_of_mem _ (List.mem_cons_of_mem _ List.mem_cons_self)) face "sk".toList,
      gives_of_absent (by decide) _ true⟩
  refine ⟨?nested, ?mixed, ?repeated, ?within⟩
  case nested =>
    have document : IsDocument _ _ := ⟨"\n".toList, _, " \t".toList, rfl, rfl, isObject_nested, rfl⟩
    obtain ⟨o, found, gives⟩ := (options_overlay_defaults _ _ document).2.1 (by decide)
      ⟨index.1.typed, index.2.1.typed, index.2.2.typed⟩
    rw [index.unique gives]
    exact found
  case mixed =>
    have document : IsDocument _ _ := ⟨[], _, [], rfl, rfl, isObject_mixed, rfl⟩
    obtain ⟨o, found, gives⟩ := (options_overlay_defaults _ _ document).1 (by decide)
      ⟨parse.1.typed, parse.2.typed⟩
    rw [parse.unique gives]
    exact found
  case repeated =>
    have document : IsDocument _ _ := ⟨[], _, [], rfl, rfl, isObject_repeated, rfl⟩
    exact (options_overlay_defaults _ _ document).2.2.1 ⟨"tab_width".toList, by decide, by decide⟩
  case within =>
    have document : IsDocument _ _ := ⟨[], _, [], rfl, rfl, isObject_parse isObject_repeated.isValue, rfl⟩
    exact (options_overlay_defaults _ _ document).2.2.2
      (.inr ⟨_, _, List.mem_cons_self, isObject_repeated, "tab_width".toList, by decide, by decide⟩)

end ScriptAtlas.Json
