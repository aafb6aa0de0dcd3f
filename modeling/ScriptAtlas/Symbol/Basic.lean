import ScriptAtlas.Script.Parse

/-!
The symbols that a script declares: its functions, commands, events, global
variables and option keys, in source order.
-/
namespace ScriptAtlas

/-- The kinds of symbols. -/
inductive SymbolKind
  | function
  | command
  | event
  | «variable»
  | option
deriving DecidableEq, Repr

/-- The word for a kind of symbols. -/
def SymbolKind.word : SymbolKind → Text
  | function => "function".toList
  | command => "command".toList
  | event => "event".toList
  | «variable» => "variable".toList
  | option => "option".toList

/-- A name that a line of a script declares. Variables are global. -/
inductive Symbol
  | function (signature : Signature) (line : Nat)
  | command (name : Text) (line : Nat)
  | event (name : Text) (line : Nat)
  | «variable» (name : Text) (fromOption : Bool) (line : Nat)
  | option (name : Text) (line : Nat)
deriving DecidableEq, Repr

namespace Symbol

def name : Symbol → Text
  | function signature _ => signature.name
  | command name _ | event name _ | «variable» name _ _ | option name _ => name

def line : Symbol → Nat
  | function _ line | command _ line | event _ line | «variable» _ _ line | option _ line => line

def kind : Symbol → SymbolKind
  | function .. => .function
  | command .. => .command
  | event .. => .event
  | «variable» .. => .variable
  | option .. => .option

/-- The option key that a line directly under an options block declares: what
    stands before the first colon of its code, unless that is blank. -/
def optionOf? (n : Node) : Option Symbol :=
  if n.isBlank || n.kind = .comment then none
  else match Text.cutAt ':' (Comment.code n.content) with
    | none => none
    | some (key, _) =>
      if (Text.trim key).isEmpty then none else some (.option (Text.trim key) n.number)

/-- The symbol that a line declares by what it is. -/
def declaredBy? (n : Node) : Option Symbol :=
  match n.construct with
  | .function (some signature) => some (.function signature n.number)
  | .command name => some (.command name n.number)
  | .event name => some (.event name n.number)
  | .setVar (some a) =>
    if a.visibility = .global ∧ a.name ≠ [] then some (.variable a.name a.fromOption n.number)
    else none
  | _ => none

/-- The symbol that a line declares, where `inOptions` tells whether it stands
    directly under an options block. -/
def ofNode? (inOptions : Bool) (n : Node) : Option Symbol :=
  (declaredBy? n).or (if inOptions then optionOf? n else none)

end Symbol

/-- Whether a node stands directly under an options block. -/
def Tree.isInOptions (t : Tree) (n : Node) : Bool := t.parentKind n = some .options

theorem Tree.isInOptions_iff {t : Tree} {n : Node} :
    t.isInOptions n = true ↔ t.parentKind n = some .options := decide_eq_true_iff

def Tree.symbols (t : Tree) : List Symbol :=
  t.nodes.filterMap fun n => Symbol.ofNode? (t.isInOptions n) n

end ScriptAtlas
