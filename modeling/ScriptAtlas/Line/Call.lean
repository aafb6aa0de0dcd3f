import ScriptAtlas.Text.Cut

/-!
A line is a call when it consists of a callee, an opening parenthesis, the
arguments and a closing parenthesis at its very end. The callee is not empty
and holds no white space; the arguments hold no line terminator.
-/
namespace ScriptAtlas.Call

/-- White space that ends a callee: the ASCII white space characters. -/
def isSpace (c : Char) : Bool :=
  c == ' ' || c == '\t' || c == '\n' || c == '\x0b' || c == '\x0c' || c == '\r'

/-- The characters that end a line of text. -/
def endsLine (c : Char) : Bool :=
  c == '\n' || c == '\r' || c == '\u0085' || c == '\u2028' || c == '\u2029'

/-- Whether a text is the arguments of a call with the closing parenthesis. -/
def closes (s : Text) : Bool := s.getLast? == some ')' && s.dropLast.all (!endsLine ·)

/-- Whether the rest of a line completes a call, where `started` tells whether
    the callee has begun. -/
def completes (started : Bool) : Text → Bool
  | [] => false
  | c :: s =>
    if isSpace c then false
    else (c == '(' && started && closes s) || completes true s

/-- Whether a line has the shape of a call. -/
def hasShape (s : Text) : Bool := s.getLast? == some ')' && completes false s

/-- The name of the called function: what stands before the first parenthesis. -/
def name (s : Text) : Text := Text.before '(' s

end ScriptAtlas.Call
