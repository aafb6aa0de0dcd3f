import ScriptAtlas.Json.Cursor

/-!
Texts between quotes. A backslash begins an escape, and a control character
below the space may not stand for itself. A character outside the basic plane
can be written as two escapes, a leading and a trailing surrogate; a surrogate
by itself is no character. Where a text is passed over and not kept, surrogates
are not looked at.
-/
namespace ScriptAtlas.Json

def hexDigit? (c : Char) : Option Nat :=
  if '0' ≤ c ∧ c ≤ '9' then some (c.toNat - '0'.toNat)
  else if 'a' ≤ c ∧ c ≤ 'f' then some (c.toNat - 'a'.toNat + 10)
  else if 'A' ≤ c ∧ c ≤ 'F' then some (c.toNat - 'A'.toNat + 10)
  else none

def hexValue? (a b c d : Char) : Option Nat := do
  some (((← hexDigit? a) * 16 + (← hexDigit? b)) * 256 + (← hexDigit? c) * 16 + (← hexDigit? d))

/-- Four characters that are not four hexadecimal digits are a fault behind
    their first four bytes; a text too short for them has ended. -/
def hexFault (k : Cursor) : Fault :=
  if Text.byteLength k.rest < 4 then ⟨.endOf .text, k.place.pastBytes 4 k.rest⟩
  else ⟨.badEscape, k.place.pastBytes 4 k.rest⟩

def readHex (k : Cursor) : Outcome Nat :=
  match k.rest with
  | a :: b :: c :: d :: _ =>
    match hexValue? a b c d with
    | some n => .ok (n, k.skip.skip.skip.skip)
    | none => .error (hexFault k)
  | _ => .error (hexFault k)

/-- What an escape stands for. -/
inductive Escaped
  | char (c : Char)
  /-- A code unit, written with four hexadecimal digits. -/
  | unit (n : Nat)

def shortEscape? (c : Char) : Option Char :=
  match c with
  | '"' => some '"'
  | '\\' => some '\\'
  | '/' => some '/'
  | 'b' => some '\x08'
  | 'f' => some '\x0c'
  | 'n' => some '\n'
  | 'r' => some '\r'
  | 't' => some '\t'
  | _ => none

/-- Reads an escape behind its backslash. -/
def readEscaped (k : Cursor) : Outcome Escaped :=
  match k.rest with
  | [] => .error (k.here (.endOf .text))
  | c :: _ =>
    if c = 'u' then (readHex k.skip).map fun (n, k) => (.unit n, k)
    else match shortEscape? c with
      | some d => .ok (.char d, k.skip)
      | none => .error (k.ahead .badEscape)

/-- Whether a code unit is the first half of a pair. -/
def isLeading (n : Nat) : Bool := 0xD800 ≤ n && n ≤ 0xDBFF

/-- Whether a code unit is the second half of a pair. -/
def isTrailing (n : Nat) : Bool := 0xDC00 ≤ n && n ≤ 0xDFFF

/-- The character that a pair of code units stands for. -/
def pairChar (lead trail : Nat) : Char :=
  Char.ofNat (0x10000 + (lead - 0xD800) * 0x400 + (trail - 0xDC00))

/-- Reads one character that must follow the first half of a pair. -/
def readPairMark (mark : Char) (k : Cursor) : Outcome Unit :=
  match k.rest with
  | [] => .error (k.here (.endOf .text))
  | c :: _ => if c = mark then .ok ((), k.skip) else .error (k.ahead .brokenPair)

/-- Reads the second half of a pair. -/
def readTrailing (lead : Nat) (k : Cursor) : Except Fault (Char × Cursor) := do
  let ((), k) ← readPairMark '\\' k
  let ((), k) ← readPairMark 'u' k
  let (n, k) ← readHex k
  if isTrailing n then return (pairChar lead n, k) else throw (k.here .unpairedSurrogate)

/-- Reads an escaped character behind its backslash. -/
def readEscape (k : Cursor) : Except Fault (Char × Cursor) := do
  match ← readEscaped k with
  | (.char c, k) => return (c, k)
  | (.unit n, k) =>
    if isTrailing n then throw (k.here .unpairedSurrogate)
    else if isLeading n then readTrailing n k
    else return (Char.ofNat n, k)

/-! ### Reading goes forward -/

theorem length_skip (k : Cursor) : k.skip.rest.length = k.rest.length - 1 := by
  rcases k with ⟨_ | ⟨c, s⟩, p⟩ <;> simp [Cursor.skip]

theorem length_of_readHex {k k' : Cursor} {n : Nat} (read : readHex k = .ok (n, k')) :
    k'.rest.length + 4 = k.rest.length := by
  unfold readHex at read
  split at read
  · rename_i rest
    split at read
    · cases read
      simp only [length_skip, rest, List.length_cons]
      omega
    · cases read
  · cases read

theorem length_of_readEscaped {k k' : Cursor} {e : Escaped} (read : readEscaped k = .ok (e, k')) :
    k'.rest.length < k.rest.length := by
  unfold readEscaped at read
  split at read
  · cases read
  · rename_i rest
    have here := length_skip k
    have size : k.rest.length = _ := congrArg List.length rest
    simp only [List.length_cons] at size
    split at read
    · cases hex : readHex k.skip with
      | error f => rw [hex] at read; cases read
      | ok r =>
        rw [hex] at read
        cases read
        have := length_of_readHex hex
        omega
    · split at read
      · cases read; omega
      · cases read

theorem length_of_readPairMark {mark : Char} {k k' : Cursor}
    (read : readPairMark mark k = .ok ((), k')) : k'.rest.length ≤ k.rest.length := by
  unfold readPairMark at read
  split at read
  · cases read
  · split at read
    · cases read; rw [length_skip]; omega
    · cases read

theorem length_of_readTrailing {lead : Nat} {c : Char} {k k' : Cursor}
    (read : readTrailing lead k = .ok (c, k')) : k'.rest.length ≤ k.rest.length := by
  simp only [readTrailing, bind, Except.bind] at read
  split at read
  · cases read
  · rename_i first
    split at read
    · cases read
    · rename_i second
      split at read
      · cases read
      · rename_i hex
        have h1 := length_of_readPairMark first
        have h2 := length_of_readPairMark second
        have h3 := length_of_readHex hex
        split at read
        · simp only [pure, Except.pure, Except.ok.injEq, Prod.mk.injEq] at read
          obtain ⟨-, rfl⟩ := read
          omega
        · cases read

theorem length_of_readEscape {k k' : Cursor} {c : Char} (read : readEscape k = .ok (c, k')) :
    k'.rest.length < k.rest.length := by
  simp only [readEscape, bind, Except.bind] at read
  split at read
  · cases read
  · rename_i escaped
    have shorter := length_of_readEscaped escaped
    split at read
    · cases read; exact shorter
    · split at read
      · cases read
      · split at read
        · exact Nat.lt_of_le_of_lt (length_of_readTrailing read) shorter
        · cases read; exact shorter

/-! ### Whole texts -/

/-- Reads a text behind its opening quotation mark. -/
def readText (k : Cursor) : Outcome Text :=
  match _rest : k.rest with
  | [] => .error (k.here (.endOf .text))
  | c :: _ =>
    if c = '"' then .ok ([], k.skip)
    else if c = '\\' then
      match _escape : readEscape k.skip with
      | .error f => .error f
      | .ok (d, k') => (readText k').map fun (s, k'') => (d :: s, k'')
    else if c.toNat < 32 then .error (k.ahead .controlCharacter)
    else (readText k.skip).map fun (s, k') => (c :: s, k')
termination_by k.rest.length
decreasing_by
  · have := length_of_readEscape _escape
    rw [length_skip] at this
    omega
  · have := congrArg List.length _rest
    rw [length_skip]
    simp only [List.length_cons] at this
    omega

def skipText (k : Cursor) : Outcome Unit :=
  match _rest : k.rest with
  | [] => .error (k.here (.endOf .text))
  | c :: _ =>
    if c = '"' then .ok ((), k.skip)
    else if c = '\\' then
      match _escape : readEscaped k.skip with
      | .error f => .error f
      | .ok (_, k') => skipText k'
    else if c.toNat < 32 then .error (k.here .controlCharacter)
    else skipText k.skip
termination_by k.rest.length
decreasing_by
  · have := length_of_readEscaped _escape
    rw [length_skip] at this
    omega
  · have := congrArg List.length _rest
    rw [length_skip]
    simp only [List.length_cons] at this
    omega

end ScriptAtlas.Json
