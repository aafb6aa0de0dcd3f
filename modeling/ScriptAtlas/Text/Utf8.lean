import ScriptAtlas.Text.Cut

/-!
The encoding of texts in bytes. A position counted in bytes is a place between
two characters only when the characters before it fill those bytes exactly.
-/
namespace ScriptAtlas.Text

/-- The text after its first `n` bytes, if they end where a character ends. -/
def dropBytes : Nat → Text → Option Text
  | 0, s => some s
  | _ + 1, [] => none
  | n + 1, c :: s => if c.utf8Size ≤ n + 1 then dropBytes (n + 1 - c.utf8Size) s else none

/-- Characters of ASCII take one byte each. -/
theorem dropBytes_of_narrow {n : Nat} {s : Text} (within : n ≤ s.length) (narrow : ∀ c ∈ s.take n, c.toNat < 128) :
    dropBytes n s = some (s.drop n) := by
  induction n generalizing s with
  | zero => rw [dropBytes, List.drop_zero]
  | succ n ih =>
    cases s with
    | nil => exact absurd within (Nat.not_succ_le_zero n)
    | cons c s =>
      have small : c.toNat < 128 := narrow c List.mem_cons_self
      have size : c.utf8Size = 1 := Char.utf8Size_eq_one_iff.mpr (Nat.le_of_lt_succ small)
      have rest : dropBytes n s = some (s.drop n) :=
        ih (Nat.le_of_succ_le_succ within) fun d member => narrow d (List.mem_cons_of_mem c member)
      rw [dropBytes, size, if_pos (Nat.le_add_left 1 n), Nat.add_sub_cancel, rest, List.drop_succ_cons]

def byteLength (s : Text) : Nat := s.foldr (fun c bytes => c.utf8Size + bytes) 0

/-- The text that bytes encode, if they are well-formed UTF-8. -/
def ofBytes (bytes : List UInt8) : Option Text :=
  (String.fromUTF8? ⟨bytes.toArray⟩).map String.toList

/-- The lines that bytes encode, up to the first that is not well-formed UTF-8. -/
def linesOfBytes (bytes : List UInt8) : List Text :=
  (((pieces 10 bytes).map ofBytes).takeWhile Option.isSome).filterMap id

def toBytes (s : Text) : List UInt8 := (String.ofList s).toUTF8.toList

end ScriptAtlas.Text
