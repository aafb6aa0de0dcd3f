import Mathlib.Data.List.Forall2
import ScriptAtlas.Proofs.Json.Confinement

/-!
Records against the members of objects. Whatever values an object holds, its
members are read one by one, each exactly as it is written: if there is a result,
the members lead from the empty draft to the one of the result
(`Record.overlays_of_read`), and the reader has stopped exactly behind the object
(`Record.confined`).
-/
namespace ScriptAtlas.Json

variable {α β δ : Type}

/-! ### Members -/

/-- What a member of an object, given by its key and the text of its value, makes
    of a draft: one of an unknown key changes nothing, and a field is read into a
    draft that does not have it yet. -/
inductive Takes (reads : (Cursor → Outcome δ) → Text → δ → Prop) (r : Record δ α) (d : δ) : Text × Text → δ → Prop
  | unknown {key v : Text} (none : r.fields.find? (·.name == key) = none) : Takes reads r d (key, v) d
  | field {d' : δ} {key v : Text} {f : Field δ} (found : r.fields.find? (·.name == key) = some f)
      (fresh : f.isGiven d = false) (read : reads (f.read d) v d') : Takes reads r d (key, v) d'

/-- The members of an object lead from one draft to another. -/
inductive Overlays (reads : (Cursor → Outcome δ) → Text → δ → Prop) (r : Record δ α) :
    δ → List (Text × Text) → δ → Prop
  | nil (d : δ) : Overlays reads r d [] d
  | cons {d₁ d₂ d₃ : δ} {m : Text × Text} {members : List (Text × Text)} (takes : Takes reads r d₁ m d₂)
      (others : Overlays reads r d₂ members d₃) : Overlays reads r d₁ (m :: members) d₃

/-- A reader reads a value from a text at some place. -/
def ReadsSomewhere (read : Cursor → Outcome β) (v : Text) (b : β) : Prop :=
  ∃ gap rest place k, isGap gap = true ∧ Ends rest ∧ read ⟨gap ++ (v ++ rest), place⟩ = .ok (b, k)

/-- What is written between quotes is read as a key at some place. -/
def ReadsKey (written key : Text) : Prop := ∃ rest place k, readText ⟨written ++ '"' :: rest, place⟩ = .ok (key, k)

theorem Means.eq_of_readsKey {s t name : Text} (means : Means s t) (reads : ReadsKey s name) : name = t := by
  obtain ⟨rest, place, k, found⟩ := reads
  obtain ⟨reached, read⟩ := means.yields_readText rest place
  rw [read] at found
  cases found
  rfl

/-! ### Members that are read -/

theorem Takes.reads {r : Record δ α} {d d' : δ} {m : Text × Text} (takes : Takes Accepts r d m d') {first : Bool}
    {lead written before behind rest : Text} (leads : Leads first lead) (means : Means written m.1)
    (blank : isGap before = true) (blank' : isGap behind = true) (value : IsValue m.2) (ends : Ends rest)
    {fuel : Nat} {inside : Except Cause α} {left : Text}
    (onwards : ∀ place, Yields (r.readMembersIn fuel false d' ⟨rest, place⟩) inside left) (place : Place) :
    Yields (r.readMembersIn (fuel + 1) first d
      ⟨lead ++ '"' :: (written ++ '"' :: (before ++ ':' :: (behind ++ (m.2 ++ rest)))), place⟩) inside left := by
  rw [Record.readMembersIn]
  refine (yields_nextKey leads _ place).bind fun place => ?_
  refine (means.yields_readText _ (place.past '"')).bind fun place => ?_
  cases takes with
  | unknown none =>
    simp only [none]
    refine (yields_readColon blank _ place).bind fun place => ?_
    exact (value.yields_skipValue blank' ends place).bind onwards
  | field found fresh accepts =>
    simp only [found, fresh, Bool.false_eq_true, if_false]
    refine (yields_readColon blank _ place).bind fun place => ?_
    exact (accepts.reads behind rest place blank' ends).bind onwards

theorem Overlays.reads {r : Record δ α} {first : Bool} {s : Text} {written members : List (Text × Text)} {d d' : δ}
    (list : IsMembers first s written) (means : List.Forall₂ (fun w m => Means w.1 m.1 ∧ w.2 = m.2) written members)
    (overlays : Overlays Accepts r d members d') (fuel : Nat) (rest : Text) (place : Place) (enough : s.length ≤ fuel) :
    Yields (r.readMembersIn fuel first d ⟨s ++ rest, place⟩) (r.finish d') ('\x7d' :: rest) := by
  induction means generalizing first s d fuel place with
  | nil =>
    cases overlays
    cases list with
    | close blank =>
      obtain ⟨fuel, rfl⟩ : ∃ n, fuel = n + 1 :=
        ⟨fuel - 1, by simp only [List.length_append, List.length_singleton] at enough; omega⟩
      rw [Record.readMembersIn, List.append_assoc]
      exact (yields_nextKey_end _ blank rest place).bind fun place => yields_ok _ _ _
  | @cons w m written members meant _ ih =>
    obtain ⟨means, same⟩ := meant
    obtain ⟨key, v⟩ := m
    cases same
    cases overlays with
    | cons takes onwards =>
      cases list with
      | member leads content blank blank' value others =>
        obtain ⟨fuel, rfl⟩ : ∃ n, fuel = n + 1 :=
          ⟨fuel - 1, by simp only [List.length_append, List.length_cons] at enough; omega⟩
        simp only [List.length_append, List.length_cons] at enough
        simp only [List.append_assoc, List.cons_append]
        exact takes.reads leads means blank blank' value (others.ends rest)
          (fun place => ih others onwards fuel place (by omega)) place

/-! ### Members that have been read -/

section
variable {r : Record δ α} (confined : ∀ f ∈ r.fields, ∀ d, Confined (f.read d))
include confined

/-- If members are read to their end, the first of them is read exactly as it is
    written, and reading goes on behind it. -/
theorem Record.takes_of_readMembersIn {first : Bool} {lead key before behind v rest : Text} (leads : Leads first lead)
    (content : IsContent key) (blank : isGap before = true) (blank' : isGap behind = true) (value : IsValue v)
    (ends : Ends rest) {fuel : Nat} {d : δ} {place : Place} {a : α} {k : Cursor}
    (found : r.readMembersIn (fuel + 1) first d
      ⟨lead ++ '"' :: (key ++ '"' :: (before ++ ':' :: (behind ++ (v ++ rest)))), place⟩ = .ok (.ok a, k)) :
    ∃ name d' reached, ReadsKey key name ∧ Takes ReadsSomewhere r d (name, v) d' ∧
      r.readMembersIn fuel false d' ⟨rest, reached⟩ = .ok (.ok a, k) := by
  obtain ⟨reached, next⟩ := yields_nextKey leads (key ++ '"' :: (before ++ ':' :: (behind ++ (v ++ rest)))) place
  rw [readMembersIn, next] at found
  simp only [bind, Except.bind, Bool.not_true, Bool.false_eq_true, if_false, Cursor.skip] at found
  split at found
  · cases found
  · rename_i result spelled
    obtain ⟨name, k₁⟩ := result
    have reads : ReadsKey key name := ⟨_, _, _, spelled⟩
    have atColon := content.rest_of_readText spelled
    obtain ⟨left, place₁⟩ := k₁
    subst atColon
    obtain ⟨place₂, colon⟩ := yields_readColon blank (behind ++ (v ++ rest)) place₁
    split at found
    · rename_i none
      obtain ⟨place₃, skipped⟩ := value.yields_skipValue blank' ends place₂
      simp only [colon, skipped] at found
      exact ⟨name, d, place₃, reads, .unknown none, found⟩
    · rename_i f known
      split at found
      · cases found
      · rename_i fresh
        simp only [colon] at found
        split at found
        · cases found
        · rename_i result read
          obtain ⟨d', k₂⟩ := result
          have atEnd := confined f (List.mem_of_find?_eq_some known) d v value behind _ _ _ _ blank' ends read
          have somewhere : ReadsSomewhere (f.read d) v d' := ⟨behind, _, _, k₂, blank', ends, read⟩
          obtain ⟨left, place₃⟩ := k₂
          subst atEnd
          exact ⟨name, d', place₃, reads, .field known (Bool.eq_false_iff.mpr fresh) somewhere, found⟩

/-- Members that are read to their end are read one by one as they are written. -/
theorem Record.overlays_of_readMembersIn {first : Bool} {s : Text} {written : List (Text × Text)}
    (list : IsMembers first s written) (fuel : Nat) (d : δ) (rest : Text) (place : Place) {a : α} {k : Cursor}
    (found : r.readMembersIn fuel first d ⟨s ++ rest, place⟩ = .ok (.ok a, k)) :
    k.rest = '\x7d' :: rest ∧ ∃ members d',
      List.Forall₂ (fun w m => ReadsKey w.1 m.1 ∧ w.2 = m.2) written members ∧
        Overlays ReadsSomewhere r d members d' := by
  induction written generalizing first s fuel d place with
  | nil =>
    cases list with
    | close blank =>
      cases fuel with
      | zero => cases found
      | succ fuel =>
        obtain ⟨reached, next⟩ := yields_nextKey_end first blank rest place
        rw [List.append_assoc, List.singleton_append, readMembersIn, next] at found
        simp only [bind, Except.bind, Bool.not_false, if_true, pure, Except.pure, Except.ok.injEq, Prod.mk.injEq]
          at found
        obtain ⟨-, rfl⟩ := found
        exact ⟨rfl, [], d, .nil, .nil d⟩
  | cons w written ih =>
    cases list with
    | @member _ lead key before behind v s _ leads content blank blank' value others =>
      cases fuel with
      | zero => cases found
      | succ fuel =>
        simp only [List.append_assoc, List.cons_append] at found
        obtain ⟨name, d₁, reached, reads, takes, onwards⟩ :=
          takes_of_readMembersIn confined leads content blank blank' value (others.ends rest) found
        obtain ⟨stop, members, d', spelled, overlays⟩ := ih others fuel d₁ reached onwards
        exact ⟨stop, (name, v) :: members, d', .cons ⟨reads, rfl⟩ spelled, .cons takes overlays⟩

end

/-! ### Arrays of fields -/

theorem Closing.settle_eq_ok {c : Closing} {inside : Except Cause α} {a : α} {k : Cursor}
    (settled : c.settle inside = .ok (a, k)) : inside = .ok a ∧ c.fault = none ∧ k = c.cursor := by
  unfold settle at settled
  split at settled
  · cases settled
  · split at settled
    · cases settled
    · rename_i whole
      cases settled
      exact ⟨rfl, whole, rfl⟩

theorem closeArray_end {gap : Text} (blank : isGap gap = true) (rest : Text) (place : Place) :
    (closeArray ⟨gap ++ ']' :: rest, place⟩).cursor.rest = rest := by
  obtain ⟨reached, passed⟩ := exists_passSpace blank (rfl : isSpace ']' = false) rest place
  rw [closeArray, passed]
  rfl

/-- An array does not end before another element. -/
theorem closeArray_item {first : Bool} {lead v : Text} (leads : Leads first lead) (value : IsValue v) (rest : Text)
    (place : Place) : (closeArray ⟨lead ++ (v ++ rest), place⟩).fault ≠ none := by
  obtain ⟨c, tail, rfl, starts⟩ := value.exists_cons
  cases leads with
  | first blank =>
    obtain ⟨reached, passed⟩ := exists_passSpace blank (isSpace_of_startsValue starts) (tail ++ rest) place
    simp only [closeArray, List.cons_append, passed]
    split
    · rename_i same
      cases same
      exact absurd rfl (ne_bracket_of_startsValue starts)
    · simp
    · simp
    · simp
  | @comma before behind blank blank' =>
    obtain ⟨reached, passed⟩ := exists_passSpace blank (rfl : isSpace ',' = false) (behind ++ (c :: tail ++ rest)) place
    simp only [closeArray, List.append_assoc, List.cons_append] at passed ⊢
    rw [passed]
    simp

/-- An array of fields ends behind its closing bracket, or it is too long and not read. -/
theorem Record.rest_of_readFields {r : Record δ α} {first : Bool} {s : Text} (items : IsItems first s)
    (fields : List (Field δ)) (confined : ∀ f ∈ fields, ∀ d, Confined (f.read d)) {count : Nat}
    (begins : (count == 0) = first) {d : δ} {rest : Text} {place : Place} {inside : Except Cause α} {a : α}
    {k k' : Cursor} (found : r.readFields fields count d ⟨s ++ rest, place⟩ = .ok (inside, k))
    (settled : (closeArray k).settle inside = .ok (a, k')) : k'.rest = rest := by
  obtain ⟨-, whole, rfl⟩ := Closing.settle_eq_ok settled
  clear settled
  induction fields generalizing first s count d place with
  | nil =>
    cases found
    cases items with
    | close blank =>
      rw [List.append_assoc]
      exact closeArray_end blank rest place
    | item leads value others =>
      simp only [List.append_assoc] at whole
      exact absurd whole (closeArray_item leads value _ place)
  | cons f fields ih =>
    rw [readFields, begins] at found
    cases items with
    | close blank =>
      obtain ⟨reached, next⟩ := yields_nextItem_end first blank rest place
      rw [List.append_assoc, List.singleton_append, next] at found
      simp only [bind, Except.bind, Bool.not_false, if_true, pure, Except.pure, Except.ok.injEq, Prod.mk.injEq] at found
      obtain ⟨-, rfl⟩ := found
      exact closeArray_end isGap_nil rest reached
    | @item _ lead v s leads value others =>
      obtain ⟨c, tail, rfl, starts⟩ := value.exists_cons
      obtain ⟨reached, next⟩ := yields_nextItem leads (isSpace_of_startsValue starts)
        (ne_bracket_of_startsValue starts) (tail ++ (s ++ rest)) place
      simp only [List.append_assoc, List.cons_append] at found
      rw [next] at found
      simp only [bind, Except.bind, Bool.not_true, Bool.false_eq_true, if_false] at found
      split at found
      · cases found
      · rename_i result read
        obtain ⟨d', k₁⟩ := result
        have atEnd := confined f List.mem_cons_self d _ value [] _ _ _ _ isGap_nil (others.ends rest) read
        obtain ⟨left, place₁⟩ := k₁
        subst atEnd
        exact ih others (fun g member => confined g (List.mem_cons_of_mem f member)) rfl found

/-! ### Records -/

/-- A record that is read from an object takes its members one by one. -/
theorem Record.overlays_of_read {r : Record δ α} (fields : ∀ f ∈ r.fields, ∀ d, Confined (f.read d)) {s rest : Text}
    {written : List (Text × Text)} (list : IsMembers true s written) {k k' : Cursor} {place : Place} {a : α}
    (passed : k.passSpace = ⟨'\x7b' :: (s ++ rest), place⟩) (found : r.read k = .ok (a, k')) :
    k'.rest = rest ∧ ∃ members d', List.Forall₂ (fun w m => ReadsKey w.1 m.1 ∧ w.2 = m.2) written members ∧
      Overlays ReadsSomewhere r r.draft members d' := by
  rw [Record.read, passed] at found
  simp only [bind, Except.bind, Cursor.skip] at found
  split at found
  · cases found
  · rename_i result read
    obtain ⟨inside, k₁⟩ := result
    obtain ⟨rfl, -, rfl⟩ := Closing.settle_eq_ok found
    obtain ⟨atEnd, taken⟩ := overlays_of_readMembersIn fields list _ r.draft rest _ read
    obtain ⟨left, place₁⟩ := k₁
    subst atEnd
    exact ⟨rfl, taken⟩

/-- A record whose fields are read by confined readers is so itself. -/
theorem Record.confined {r : Record δ α} (fields : ∀ f ∈ r.fields, ∀ d, Confined (f.read d)) : Confined r.read := by
  refine .of_passed fun v value k rest place a k' ends passed found => ?_
  have whole := found
  rw [Record.read, passed] at found
  cases value with
  | null => cases found
  | bool b => cases b <;> cases found
  | number number =>
    split at found
    · rename_i same
      exact absurd same (number.append_ne (by decide) rest _)
    · rename_i same
      exact absurd same (number.append_ne (by decide) rest _)
    · cases found
  | text content => cases found
  | array items =>
    simp only [List.cons_append, bind, Except.bind, Cursor.skip] at found
    split at found
    · cases found
    · rename_i read
      exact rest_of_readFields items r.fields fields rfl read found
  | object list => exact (overlays_of_read fields list passed whole).1

end ScriptAtlas.Json
