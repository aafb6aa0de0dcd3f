import Mathlib.Data.List.Nodup
import ScriptAtlas.Proofs.Json.Members

/-!
Records that overlay a draft. An object is told by its members, that is by what
its keys mean and by the texts of their values (`IsObject`). If its keys are
pairwise different and the known ones have values that their fields accept, it
leads on from the empty draft, and each part of the result comes from the value
given for its key alone (`Overlays.gives`), whatever else stands in the object.
If it repeats a known key, it is not read (`IsObject.not_read`).
-/
namespace ScriptAtlas.Json

variable {α β δ : Type}

/-! ### Objects -/

/-- A text is an object with the given members: what its keys mean, and the texts
    of their values. -/
def IsObject (s : Text) (members : List (Text × Text)) : Prop :=
  ∃ inside written, s = '\x7b' :: inside ∧ IsMembers true inside written ∧
    List.Forall₂ (fun w m => Means w.1 m.1 ∧ w.2 = m.2) written members

theorem IsObject.isValue {s : Text} {members : List (Text × Text)} (object : IsObject s members) : IsValue s := by
  obtain ⟨inside, written, rfl, list, -⟩ := object
  exact .object list

/-- A text is such an object, with any white space around it. -/
def IsDocument (text : Text) (members : List (Text × Text)) : Prop :=
  ∃ before s behind, isGap before = true ∧ isGap behind = true ∧ IsObject s members ∧ text = before ++ (s ++ behind)

/-- An object whose members lead from the empty draft to the one of a result is read as that. -/
theorem IsObject.accepts {r : Record δ α} {s : Text} {members : List (Text × Text)} (object : IsObject s members)
    {d : δ} {a : α} (overlays : Overlays Accepts r r.draft members d) (whole : r.finish d = .ok a) :
    Accepts r.read s a := by
  obtain ⟨inside, written, rfl, list, means⟩ := object
  refine .of_passed ⟨_, _, rfl, rfl⟩ fun k rest place _ passed => ?_
  rw [Record.read, passed]
  refine (overlays.reads list means _ rest (place.past '\x7b') ?_).bind fun place => ?_
  · simp only [List.length_cons, List.length_append]
    omega
  · rw [whole]
    exact ⟨_, rfl⟩

/-- If an object is read, its members have been read one by one. -/
theorem IsObject.overlays_of_read {r : Record δ α} (fields : ∀ f ∈ r.fields, ∀ d, Confined (f.read d)) {s : Text}
    {members : List (Text × Text)} (object : IsObject s members) {gap rest : Text} (blank : isGap gap = true)
    {place : Place} {a : α} {k : Cursor} (found : r.read ⟨gap ++ (s ++ rest), place⟩ = .ok (a, k)) :
    ∃ d, Overlays ReadsSomewhere r r.draft members d := by
  obtain ⟨inside, written, rfl, list, means⟩ := object
  obtain ⟨reached, passed⟩ := exists_passSpace blank (rfl : isSpace '\x7b' = false) (inside ++ rest) place
  obtain ⟨-, members', d, read, overlays⟩ := Record.overlays_of_read fields list passed found
  have same : members' = members := by
    clear overlays list passed found
    induction means generalizing members' with
    | nil => cases read; rfl
    | cons meant _ ih =>
      cases read with
      | cons seen others =>
        rw [ih _ others]
        congr 1
        exact Prod.ext (meant.1.eq_of_readsKey seen.1) (seen.2.symm.trans meant.2)
  exact ⟨d, same ▸ overlays⟩

/-- White space around a text that is read whole does not matter. -/
theorem Accepts.readWhole_between {read : Cursor → Outcome α} {s : Text} {a : α} (accepts : Accepts read s a)
    {before behind : Text} (blank : isGap before = true) (blank' : isGap behind = true) :
    Json.readWhole read (before ++ (s ++ behind)) = .ok a := by
  have ends : Ends behind := by
    intro c first
    have space : isSpace c = true := List.all_eq_true.mp blank' c (List.mem_of_mem_head? first)
    simp only [isSpace, Bool.or_eq_true, beq_iff_eq] at space
    rcases space with ((rfl | rfl) | rfl) | rfl <;> rfl
  obtain ⟨place, found⟩ := accepts.reads before behind {} blank ends
  obtain ⟨reached, passed⟩ := exists_pass isSpace blank' (s := []) (by simp) place
  rw [List.append_nil] at passed
  rw [Json.readWhole, found]
  simp only [bind, Except.bind, Cursor.passSpace, passed]
  rfl

/-! ### Fields that do not meddle with each other -/

/-- Reading a field gives this field to a draft and leaves the others as they are. -/
structure Independent (r : Record δ α) : Prop where
  own : ∀ f ∈ r.fields, ∀ d k d' k', f.read d k = .ok (d', k') → f.isGiven d' = true
  apart : ∀ f ∈ r.fields, ∀ g ∈ r.fields, f.name ≠ g.name →
    ∀ d k d' k', f.read d k = .ok (d', k') → g.isGiven d' = g.isGiven d

theorem eq_of_find?_name {fields : List (Field δ)} {key : Text} {f : Field δ}
    (found : fields.find? (·.name == key) = some f) : f ∈ fields ∧ f.name = key :=
  ⟨List.mem_of_find?_eq_some found, by simpa using List.find?_some found⟩

/-- A draft has every field at most once. -/
theorem Overlays.count_le {r : Record δ α} (independent : Independent r) {members : List (Text × Text)} {d d' : δ}
    (overlays : Overlays ReadsSomewhere r d members d') {key : Text} {f : Field δ}
    (known : r.fields.find? (·.name == key) = some f) :
    (members.map (·.1)).count key + (if f.isGiven d then 1 else 0) ≤ 1 := by
  obtain ⟨inside, named⟩ := eq_of_find?_name known
  induction overlays with
  | nil d =>
    simp only [List.map_nil, List.count_nil]
    split <;> omega
  | cons takes _ ih =>
    cases takes with
    | @unknown key' v none =>
      have other : key' ≠ key := by
        rintro rfl
        rw [none] at known
        cases known
      rwa [List.map_cons, List.count_cons_of_ne other]
    | @field _ key' v g found fresh read =>
      obtain ⟨inside', named'⟩ := eq_of_find?_name found
      obtain ⟨gap, rest, place, k, -, -, read⟩ := read
      by_cases same : key' = key
      · subst same
        rw [known] at found
        cases found
        have given := independent.own f inside _ _ _ _ read
        simp only [given, if_true] at ih
        simp only [List.map_cons, List.count_cons_self, fresh, Bool.false_eq_true, if_false]
        omega
      · have kept := independent.apart g inside' f inside (by rwa [named, named']) _ _ _ _ read
        rw [List.map_cons, List.count_cons_of_ne same, ← kept]
        exact ih

theorem Accepts.exists_read {read : Cursor → Outcome α} {v : Text} {a : α} (accepts : Accepts read v a) :
    ∃ k k', read k = .ok (a, k') := by
  obtain ⟨place, found⟩ := accepts.reads_here ends_nil {}
  exact ⟨_, _, found⟩

theorem Accepts.unique {read : Cursor → Outcome α} {v : Text} {a b : α} (first : Accepts read v a)
    (second : Accepts read v b) : a = b := by
  obtain ⟨place, found⟩ := first.reads_here ends_nil {}
  obtain ⟨place', found'⟩ := second.reads_here ends_nil {}
  rw [found] at found'
  cases found'
  rfl

/-- Different keys with values that their fields accept lead on from every draft
    that has none of them. -/
theorem exists_overlays {r : Record δ α} (independent : Independent r) {members : List (Text × Text)}
    (distinct : (members.map (·.1)).Nodup)
    (typed : ∀ key v f, (key, v) ∈ members → r.fields.find? (·.name == key) = some f →
      ∀ d, ∃ d', Accepts (f.read d) v d') (d : δ)
    (fresh : ∀ key v f, (key, v) ∈ members → r.fields.find? (·.name == key) = some f → f.isGiven d = false) :
    ∃ d', Overlays Accepts r d members d' := by
  induction members generalizing d with
  | nil => exact ⟨d, .nil d⟩
  | cons m members ih =>
    obtain ⟨key, v⟩ := m
    obtain ⟨absent, distinct⟩ := List.nodup_cons.mp distinct
    have typedOthers := fun name w f member => typed name w f (List.mem_cons_of_mem (key, v) member)
    have freshOthers := fun name w f member => fresh name w f (List.mem_cons_of_mem (key, v) member)
    cases known : r.fields.find? (·.name == key) with
    | none =>
      obtain ⟨d', onwards⟩ := ih distinct typedOthers d freshOthers
      exact ⟨d', .cons (.unknown known) onwards⟩
    | some f =>
      obtain ⟨inside, named⟩ := eq_of_find?_name known
      obtain ⟨d₁, accepts⟩ := typed key v f List.mem_cons_self known d
      have takes : Takes Accepts r d (key, v) d₁ := .field known (fresh key v f List.mem_cons_self known) accepts
      have others : ∀ name w g, (name, w) ∈ members → r.fields.find? (·.name == name) = some g →
          g.isGiven d₁ = false := by
        intro name w g member found
        obtain ⟨inside', named'⟩ := eq_of_find?_name found
        obtain ⟨k, k', read⟩ := accepts.exists_read
        have other : f.name ≠ g.name := by
          rw [named, named']
          rintro rfl
          exact absent (List.mem_map.mpr ⟨_, member, rfl⟩)
        rw [independent.apart f inside g inside' other d k d₁ k' read]
        exact freshOthers name w g member found
      obtain ⟨d', onwards⟩ := ih distinct typedOthers d₁ others
      exact ⟨d', .cons takes onwards⟩

section
variable {r : Record δ α} {get : δ → Option β} {key : Text}

/-- A part of a draft that only the field of one key changes is left alone by
    members without that key. -/
theorem Overlays.get_of_absent {members : List (Text × Text)} {d d' : δ} (overlays : Overlays Accepts r d members d')
    (others : ∀ f ∈ r.fields, f.name ≠ key → ∀ d v d', Accepts (f.read d) v d' → get d' = get d)
    (absent : ∀ v, (key, v) ∉ members) : get d' = get d := by
  induction overlays with
  | nil => rfl
  | cons takes _ ih =>
    rw [ih fun v member => absent v (List.mem_cons_of_mem _ member)]
    cases takes with
    | unknown none => rfl
    | @field _ key' v f found fresh accepts =>
      obtain ⟨inside, named⟩ := eq_of_find?_name found
      refine others f inside ?_ _ _ _ accepts
      rw [named]
      rintro rfl
      exact absent v List.mem_cons_self

/-- Such a part is what the field of the key makes of the value given for it. -/
theorem Overlays.get_of_mem {members : List (Text × Text)} {d d' : δ} (overlays : Overlays Accepts r d members d')
    (others : ∀ f ∈ r.fields, f.name ≠ key → ∀ d v d', Accepts (f.read d) v d' → get d' = get d)
    (distinct : (members.map (·.1)).Nodup) {v : Text} {b : β} (member : (key, v) ∈ members) {f : Field δ}
    (known : r.fields.find? (·.name == key) = some f) (gives : ∀ d d', Accepts (f.read d) v d' → get d' = some b) :
    get d' = some b := by
  induction overlays with
  | nil => cases member
  | @cons d₁ d₂ d₃ m members takes onwards ih =>
    obtain ⟨absent, distinct⟩ := List.nodup_cons.mp distinct
    rcases List.mem_cons.mp member with rfl | later
    · have none : ∀ w, (key, w) ∉ members := fun w inside => absent (List.mem_map.mpr ⟨_, inside, rfl⟩)
      rw [onwards.get_of_absent others none]
      cases takes with
      | unknown none =>
        rw [none] at known
        cases known
      | field found fresh accepts =>
        rw [known] at found
        cases found
        exact gives _ _ accepts
    · exact ih distinct later

end

/-! ### Given values and defaults -/

/-- Every value given for a key is written as one of its type. -/
def Typed (members : List (Text × Text)) (key : Text) (writes : Text → β → Prop) : Prop :=
  ∀ v, (key, v) ∈ members → ∃ b, writes v b

/-- A result is what is written for a key, or its default if the key is absent. -/
def Gives (members : List (Text × Text)) (key : Text) (writes : Text → β → Prop) (default b : β) : Prop :=
  (∀ v, (key, v) ∈ members → writes v b) ∧ ((∀ v, (key, v) ∉ members) → b = default)

theorem Gives.typed {members : List (Text × Text)} {key : Text} {writes : Text → β → Prop} {default b : β}
    (gives : Gives members key writes default b) : Typed members key writes :=
  fun v member => ⟨b, gives.1 v member⟩

theorem gives_of_mem {members : List (Text × Text)} (distinct : (members.map (·.1)).Nodup) {key v : Text}
    (member : (key, v) ∈ members) {writes : Text → β → Prop} {b : β} (written : writes v b) (default : β) :
    Gives members key writes default b := by
  constructor
  · intro w member'
    have same := List.inj_on_of_nodup_map distinct member' member rfl
    cases same
    exact written
  · intro absent
    exact absurd member (absent v)

theorem gives_of_absent {members : List (Text × Text)} {key : Text} (absent : key ∉ members.map (·.1))
    (writes : Text → β → Prop) (default : β) : Gives members key writes default default :=
  ⟨fun _ member => absurd (List.mem_map.mpr ⟨_, member, rfl⟩) absent, fun _ => rfl⟩

/-- There is only one such result if a value is written for one only. -/
theorem Gives.unique {members : List (Text × Text)} {key : Text} {writes : Text → β → Prop} {default b b' : β}
    (functional : ∀ v b b', writes v b → writes v b' → b = b') (first : Gives members key writes default b)
    (second : Gives members key writes default b') : b = b' := by
  by_cases given : ∃ v, (key, v) ∈ members
  · obtain ⟨v, member⟩ := given
    exact functional v b b' (first.1 v member) (second.1 v member)
  · have absent : ∀ v, (key, v) ∉ members := fun v member => given ⟨v, member⟩
    rw [first.2 absent, second.2 absent]

section
variable {name : Text} {get : δ → Option β} {set : δ → β → δ} {read : Cursor → Outcome β}

theorem Field.exists_of_read {d d' : δ} {k k' : Cursor} (found : (Field.of name get set read).read d k = .ok (d', k')) :
    ∃ b, read k = .ok (b, k') ∧ d' = set d b := by
  simp only [Field.of] at found
  cases result : read k with
  | error fault =>
    rw [result] at found
    cases found
  | ok r =>
    rw [result] at found
    cases found
    exact ⟨r.1, rfl, rfl⟩

theorem Confined.field (confined : Confined read) (d : δ) : Confined ((Field.of name get set read).read d) := by
  intro v value gap rest place d' k blank ends found
  obtain ⟨b, result, -⟩ := Field.exists_of_read found
  exact confined v value gap rest place b k blank ends result

theorem Accepts.exists_of_field {v : Text} {d d' : δ} (accepts : Accepts ((Field.of name get set read).read d) v d') :
    ∃ b, d' = set d b := by
  obtain ⟨k, k', found⟩ := accepts.exists_read
  obtain ⟨b, -, same⟩ := Field.exists_of_read found
  exact ⟨b, same⟩

/-- A field of a record gives what is written for its key, or its default. -/
theorem Overlays.gives {r : Record δ α} {writes : Text → β → Prop} {members : List (Text × Text)} {d : δ}
    (overlays : Overlays Accepts r r.draft members d) (distinct : (members.map (·.1)).Nodup)
    (known : r.fields.find? (·.name == name) = some (.of name get set read))
    (others : ∀ f ∈ r.fields, f.name ≠ name → ∀ d v d', Accepts (f.read d) v d' → get d' = get d)
    (kept : ∀ d b, get (set d b) = some b) (empty : get r.draft = none)
    (accepted : ∀ v b, writes v b → Accepts read v b) (typed : Typed members name writes) (default : β) :
    Gives members name writes default ((get d).getD default) := by
  constructor
  · intro v member
    obtain ⟨b, written⟩ := typed v member
    have result : get d = some b := by
      refine overlays.get_of_mem others distinct member known fun d₁ d₂ accepts => ?_
      rw [accepts.unique ((accepted v b written).field d₁), kept]
    rwa [result]
  · intro absent
    rw [overlays.get_of_absent others absent, empty]
    rfl

end

/-! ### Repeated keys -/

/-- One of the keys stands in an object more than once. -/
def Repeats (keys : List Text) (members : List (Text × Text)) : Prop :=
  ∃ key ∈ keys, 2 ≤ (members.map (·.1)).count key

/-- An object that repeats the key of a field is not read. -/
theorem IsObject.not_read {r : Record δ α} (fields : ∀ f ∈ r.fields, ∀ d, Confined (f.read d))
    (independent : Independent r) {s : Text} {members : List (Text × Text)} (object : IsObject s members)
    (repeats : Repeats (r.fields.map (·.name)) members) {gap rest : Text} (blank : isGap gap = true) {place : Place}
    {a : α} {k : Cursor} : r.read ⟨gap ++ (s ++ rest), place⟩ ≠ .ok (a, k) := by
  intro found
  obtain ⟨d, overlays⟩ := object.overlays_of_read fields blank found
  obtain ⟨key, inside, twice⟩ := repeats
  obtain ⟨f, member, named⟩ := List.mem_map.mp inside
  have known : (r.fields.find? (·.name == key)).isSome := List.find?_isSome.mpr ⟨f, member, by simpa using named⟩
  obtain ⟨g, found⟩ := Option.isSome_iff_exists.mp known
  have once := overlays.count_le independent found
  omega

/-- A value of a known key has been read where the members have been. -/
theorem Overlays.exists_readsSomewhere {r : Record δ α} {members : List (Text × Text)} {d d' : δ}
    (overlays : Overlays ReadsSomewhere r d members d') {key v : Text} (member : (key, v) ∈ members) {f : Field δ}
    (known : r.fields.find? (·.name == key) = some f) : ∃ d₁ d₂, ReadsSomewhere (f.read d₁) v d₂ := by
  induction overlays with
  | nil => cases member
  | cons takes _ ih =>
    rcases List.mem_cons.mp member with rfl | later
    · cases takes with
      | unknown none =>
        rw [none] at known
        cases known
      | field found _ read =>
        rw [known] at found
        cases found
        exact ⟨_, _, read⟩
    · exact ih later

/-- A document is rejected if there is no way to read its object. -/
theorem IsDocument.readWhole_eq_error {read : Cursor → Outcome α} {text : Text} {members : List (Text × Text)}
    (document : IsDocument text members)
    (unread : ∀ s, IsObject s members → ∀ gap rest place a k, isGap gap = true →
      read ⟨gap ++ (s ++ rest), place⟩ ≠ .ok (a, k)) : ∃ fault, Json.readWhole read text = .error fault := by
  obtain ⟨before, s, behind, blank, -, object, rfl⟩ := document
  rw [Json.readWhole]
  cases found : read ⟨before ++ (s ++ behind), {}⟩ with
  | error fault => exact ⟨fault, rfl⟩
  | ok result => exact absurd found (unread s object before behind {} result.1 result.2 blank)

end ScriptAtlas.Json
