import ScriptAtlas.Listing.Reader
import ScriptAtlas.Proofs.Json.Printed

/-!
Printed listings read back. The members of a printed entry fill the draft of an
entry in the order of its fields, and what was left out stays open
(`fills_entry`), so every listing whose numbers can be read is read from its
printed form as itself (`ofJson?_print_toJson`).
-/
namespace ScriptAtlas

namespace Json

variable {α β δ : Type}

theorem find?_name_of_getElem? {fields : List (Field δ)} (distinct : (fields.map (·.name)).Nodup) {i : Nat} {f : Field δ}
    (place : fields[i]? = some f) : fields.find? (·.name == f.name) = some f := by
  induction fields generalizing i with
  | nil => cases place
  | cons g fields ih =>
    rw [List.map_cons, List.nodup_cons] at distinct
    rw [List.find?_cons]
    cases i with
    | zero =>
      cases place
      rw [beq_self_eq_true]
    | succ i =>
      have later : f ∈ fields := List.mem_of_getElem? place
      have apart : (g.name == f.name) = false := beq_eq_false_iff_ne.mpr fun same =>
        distinct.1 (same ▸ List.mem_map_of_mem later)
      rw [apart]
      exact ih distinct.2 place

section
variable {r : Record δ α} {start d : δ} {members : List (Text × Value)} {name : Text} {read : Cursor → Outcome β}

theorem Fills.given (fills : Fills r start members d) (distinct : (r.fields.map (·.name)).Nodup) (i : Nat)
    {get : δ → Option β} {set : δ → β → δ} (place : r.fields[i]? = some (.of name get set read))
    (fresh : get d = none) {v : Value} {b : β} (shows : Shows read v b) :
    Fills r start (members ++ [(name, v)]) (set d b) := by
  refine fills.append (.cons (find?_name_of_getElem? distinct place) ?_ (shows.field name get set d) (.nil _))
  show (get d).isSome = false
  rw [fresh]
  rfl

/-- One more member, left out if it has no value, fills its field or leaves it open. -/
theorem Fills.optional (fills : Fills r start members d) (distinct : (r.fields.map (·.name)).Nodup) (i : Nat)
    (put : δ → Option β → δ) {get : δ → Option (Option β)} {set : δ → Option β → δ}
    (place : r.fields[i]? = some (.of name get set (readOptional read))) (fresh : get d = none)
    (kept : put d none = d) (added : ∀ b, put d (some b) = set d (some b)) {toJson : β → Value} (b : Option β)
    (shows : ∀ x, b = some x → Shows read (toJson x) x) :
    Fills r start (members ++ optionalMember name toJson b) (put d b) := by
  cases b with
  | none =>
    rw [kept]
    exact fills.append (.nil d)
  | some x =>
    rw [added]
    exact fills.given distinct i place fresh (shows x rfl).readOptional

end

end Json

open Json

/-! ### Parameters and visibilities -/

theorem distinct_parameterRecord : (parameterRecord.fields.map (·.name)).Nodup := by decide +kernel

theorem shows_parameter (p : Parameter) : Shows parameterRecord.read p.toJson p := by
  have distinct := distinct_parameterRecord
  have fills := (Fills.nil (r := parameterRecord) {})
    |>.given distinct 0 rfl rfl (shows_text p.name)
    |>.given distinct 1 rfl rfl (shows_text p.type)
    |>.given distinct 2 rfl rfl (shows_text p.default)
  exact fills.shows rfl

theorem shows_visibility (v : Visibility) : Shows readVisibility (.text v.word) v := by
  intro level
  rw [Value.printAt]
  refine .of_passed ⟨_, _, rfl, rfl⟩ fun k rest place _ passed => ?_
  have body : printedText v.word ++ rest = '"' :: (v.word.flatMap printedChar ++ '"' :: rest) := by
    rw [printedText, List.cons_append, List.append_assoc, List.singleton_append]
  rw [readVisibility, passed, body]
  refine (yields_readText v.word rest _).bind fun reached => ?_
  cases v with
  | «local» => exact yields_ok _ _ _
  | global => exact yields_ok _ _ _

/-! ### Entries -/

/-- An entry whose numbers have 64 bits. -/
structure Entry.Fits (e : Entry) : Prop where
  line : e.line < Nat.pow 2 64
  depth : e.depth < Nat.pow 2 64
  parent : ∀ p, e.parent = some p → p < Nat.pow 2 64

/-- The draft that a printed entry fills. What the entry does not have stays open. -/
def Entry.draft (e : Entry) : EntryDraft where
  line := some e.line
  depth := some e.depth
  parent := e.parent.map some
  tag := some e.tag
  content := some e.content
  comment := e.comment.map some
  name := e.name.map some
  parameters := e.parameters.map some
  returns := e.returns.map some
  ready := e.ready.map some
  visibility := e.visibility.map some
  fromOption := e.fromOption.map some
  value := e.value.map some
  path := e.path.map some
  invalid := e.invalid.map some

theorem distinct_entryRecord : (entryRecord.fields.map (·.name)).Nodup := by decide +kernel

theorem complete_draft (e : Entry) : e.draft.complete = .ok e := by
  have joined : ∀ {β : Type} (b : Option β), (b.map some).join = b := fun b => by cases b <;> rfl
  simp only [EntryDraft.complete, Entry.draft, given, joined]
  rfl

theorem shows_entry {e : Entry} (fits : e.Fits) : Shows entryRecord.read e.toJson e := by
  have distinct := distinct_entryRecord
  have fills := (Fills.nil (r := entryRecord) {})
    |>.given distinct 0 rfl rfl (shows_number (Nat.le_of_lt_succ fits.line))
    |>.given distinct 1 rfl rfl (shows_number (Nat.le_of_lt_succ fits.depth))
    |>.optional distinct 2 (fun d p => { d with parent := p.map some }) rfl rfl rfl (fun _ => rfl) e.parent
      (fun p same => shows_number (Nat.le_of_lt_succ (fits.parent p same)))
    |>.given distinct 3 rfl rfl (shows_text e.tag)
    |>.given distinct 4 rfl rfl (shows_text e.content)
    |>.optional distinct 5 (fun d s => { d with comment := s.map some }) rfl rfl rfl (fun _ => rfl) e.comment
      (fun s _ => shows_text s)
    |>.optional distinct 6 (fun d s => { d with name := s.map some }) rfl rfl rfl (fun _ => rfl) e.name
      (fun s _ => shows_text s)
    |>.optional distinct 7 (fun d ps => { d with parameters := ps.map some }) rfl rfl rfl (fun _ => rfl) e.parameters
      (fun ps _ => shows_array ps fun p _ => shows_parameter p)
    |>.optional distinct 8 (fun d s => { d with returns := s.map some }) rfl rfl rfl (fun _ => rfl) e.returns
      (fun s _ => shows_text s)
    |>.optional distinct 9 (fun d b => { d with ready := b.map some }) rfl rfl rfl (fun _ => rfl) e.ready
      (fun b _ => shows_bool b)
    |>.optional distinct 10 (fun d v => { d with visibility := v.map some }) rfl rfl rfl (fun _ => rfl) e.visibility
      (fun v _ => shows_visibility v)
    |>.optional distinct 11 (fun d b => { d with fromOption := b.map some }) rfl rfl rfl (fun _ => rfl) e.fromOption
      (fun b _ => shows_bool b)
    |>.optional distinct 12 (fun d s => { d with value := s.map some }) rfl rfl rfl (fun _ => rfl) e.value
      (fun s _ => shows_text s)
    |>.optional distinct 13 (fun d p => { d with path := p.map some }) rfl rfl rfl (fun _ => rfl) e.path
      (fun p _ => shows_array p fun s _ => shows_text s)
    |>.optional distinct 14 (fun d b => { d with invalid := b.map some }) rfl rfl rfl (fun _ => rfl) e.invalid
      (fun b _ => shows_bool b)
  refine Fills.shows (d := e.draft) ?_ (complete_draft e)
  simp only [List.append_assoc, List.nil_append, List.cons_append] at fills ⊢
  exact fills

/-! ### Listings -/

theorem distinct_listingRecord : (listingRecord.fields.map (·.name)).Nodup :=
  List.nodup_cons.mpr ⟨List.not_mem_nil, List.nodup_nil⟩

/-- A listing whose numbers have 64 bits is read from its printed form as itself. -/
theorem ofJson?_print_toJson (l : Listing) (fits : ∀ e ∈ l.entries, e.Fits) :
    Listing.ofJson? l.toJson.print = .ok l := by
  have entries : Shows (readList entryRecord.read) (.array (l.entries.map Entry.toJson)) l.entries :=
    shows_array l.entries fun e member => shows_entry (fits e member)
  have fills := (Fills.nil (r := listingRecord) none).given distinct_listingRecord 0 rfl rfl entries
  have listing : Shows listingRecord.read l.toJson l := fills.shows rfl
  exact (listing 0).readWhole

/-- An entry with all its fields, the largest numbers, escaped characters and empty lists. -/
def crowdedEntry : Entry where
  line := Nat.pow 2 64 - 1
  depth := 0
  parent := some (Nat.pow 2 64 - 1)
  tag := "SET_VAR".toList
  content := "\"\\/\x00\x1f\x7f\n\t\u2028é😀".toList
  comment := some []
  name := some "null".toList
  parameters := some [⟨"a".toList, [], "]\x7d,".toList⟩]
  returns := some "void".toList
  ready := some false
  visibility := some .local
  fromOption := some false
  value := some [' ']
  path := some []
  invalid := some true

theorem ofJson?_print_toJson_crowdedEntry :
    (∀ e ∈ [crowdedEntry], e.Fits) ∧ Listing.ofJson? (Listing.toJson ⟨[crowdedEntry]⟩).print = .ok ⟨[crowdedEntry]⟩ := by
  have fits : ∀ e ∈ [crowdedEntry], e.Fits := by
    intro e member
    rw [List.mem_singleton] at member
    subst member
    exact ⟨by decide, by decide, fun p same => by cases same; decide⟩
  exact ⟨fits, ofJson?_print_toJson ⟨[crowdedEntry]⟩ fits⟩

end ScriptAtlas
