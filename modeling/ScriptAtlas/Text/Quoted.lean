import ScriptAtlas.Text.Visible

/-!
Quoted texts: between double quotes, with every character that could not be
seen or would end the quotation written as an escape.
-/
namespace ScriptAtlas.Text

/-- A character inside quotes. Hidden and combining characters are written by
    their code point. -/
def quotedChar (c : Char) : Text :=
  match c with
  | '\x00' => ['\\', '0']
  | '\t' => ['\\', 't']
  | '\r' => ['\\', 'r']
  | '\n' => ['\\', 'n']
  | '\\' => ['\\', '\\']
  | '"' => ['\\', '"']
  | c => if isShown c then [c] else ['\\', 'u', '\x7b'] ++ Nat.toDigits 16 c.toNat ++ ['\x7d']

def quoted (s : Text) : Text := '"' :: (s.flatMap quotedChar ++ ['"'])

end ScriptAtlas.Text
