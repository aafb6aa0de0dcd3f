import ScriptAtlas.Line.Signature
import ScriptAtlas.Line.Assignment

/-!
What a line of a script is. A construct carries the parts that were taken out
of the line; its kind is the construct without them. Each kind has a tag, and
different kinds have different tags.
-/
namespace ScriptAtlas

/-- The kinds of lines. -/
inductive Kind
  | undefined
  | option
  | options
  | functionCall
  | function
  | command
  | comment
  | event
  | ifStatement
  | elseStatement
  | loop
  | trigger
  | «class»
  | stop
  | setVar
  | statement
deriving DecidableEq, Repr

namespace Kind

def all : List Kind :=
  [undefined, option, options, functionCall, function, command, comment, event, ifStatement,
   elseStatement, loop, trigger, «class», stop, setVar, statement]

/-- The tag of a kind in listings. -/
def tag : Kind → Text
  | undefined => "UNDEFINED".toList
  | option => "OPTION".toList
  | options => "OPTIONS".toList
  | functionCall => "FUNCTION_CALL".toList
  | function => "FUNCTION".toList
  | command => "COMMAND".toList
  | comment => "COMMENT".toList
  | event => "EVENT".toList
  | ifStatement => "IF_STATEMENT".toList
  | elseStatement => "ELSE_STATEMENT".toList
  | loop => "LOOP".toList
  | trigger => "TRIGGER".toList
  | «class» => "CLASS".toList
  | stop => "STOP".toList
  | setVar => "SET_VAR".toList
  | statement => "STATEMENT".toList

def ofTag? (tag : Text) : Option Kind := all.find? (·.tag == tag)

theorem ofTag?_tag (k : Kind) : ofTag? k.tag = some k := by cases k <;> rfl

end Kind

/-- What a line is, with the parts taken out of it. -/
inductive Construct
  | undefined
  | option
  | options
  | functionCall (name : Text)
  /-- A function declaration; without parentheses it has no signature. -/
  | function (signature : Option Signature)
  | command (name : Text)
  | comment
  | event (name : Text)
  | ifStatement
  | elseStatement
  | loop
  | trigger
  | «class» (name : Text)
  | stop
  /-- An assignment; one that cannot be taken apart is `none`. -/
  | setVar (assignment : Option Assignment)
  | statement
deriving DecidableEq, Repr

namespace Construct

def kind : Construct → Kind
  | undefined => .undefined
  | option => .option
  | options => .options
  | functionCall _ => .functionCall
  | function _ => .function
  | command _ => .command
  | comment => .comment
  | event _ => .event
  | ifStatement => .ifStatement
  | elseStatement => .elseStatement
  | loop => .loop
  | trigger => .trigger
  | «class» _ => .class
  | stop => .stop
  | setVar _ => .setVar
  | statement => .statement

/-- The name that a construct gives. An assignment that cannot be taken apart
    has the empty name. -/
def name? : Construct → Option Text
  | functionCall name | command name | event name | «class» name => some name
  | function signature => signature.map (·.name)
  | setVar none => some []
  | setVar (some a) => some a.name
  | _ => none

/-- Whether a construct is a function declaration with a signature. -/
def isReady : Construct → Bool
  | function (some _) => true
  | _ => false

/-- Whether a construct is an assignment that cannot be taken apart. -/
def isInvalid : Construct → Bool
  | setVar none => true
  | _ => false

end Construct
end ScriptAtlas
