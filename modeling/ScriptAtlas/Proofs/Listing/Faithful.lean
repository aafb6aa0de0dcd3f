import Mathlib.Data.List.Basic
import Mathlib.Data.Option.Basic
import ScriptAtlas.Proofs.Json.Printing
import ScriptAtlas.Proofs.Listing.RoundTrip
import ScriptAtlas.Proofs.Script.Forest

/-!
A listing hides nothing of a script but its raw lines. Entries that are printed
alike are the same (`Entry.toJson_injective`), the construct of a line comes back
from the fields of its entry (`Entry.node?_ofNode`), and the links to the
children follow from the parents (`Tree.withoutRaw_ofNodes`). So two scripts have
the same listing exactly if they are the same tree apart from the raw lines
(`listingText_eq_iff`).
-/
namespace ScriptAtlas

open Json

/-! ### Nodes from their entries -/

namespace Entry

def signature? (e : Entry) : Option Signature := do
  some ⟨← e.name, ← e.parameters, ← e.returns⟩

def assignment? (e : Entry) : Option Assignment := do
  some ⟨← e.name, ← e.visibility, e.fromOption.isSome, ← e.value, e.path⟩

/-- The construct that an entry shows. -/
def construct? (e : Entry) : Option Construct :=
  e.kind?.bind fun
    | .undefined => some .undefined
    | .option => some .option
    | .options => some .options
    | .functionCall => e.name.map .functionCall
    | .function => some (.function e.signature?)
    | .command => e.name.map .command
    | .comment => some .comment
    | .event => e.name.map .event
    | .ifStatement => some .ifStatement
    | .elseStatement => some .elseStatement
    | .loop => some .loop
    | .trigger => some .trigger
    | .class => e.name.map .class
    | .stop => some .stop
    | .setVar => some (.setVar e.assignment?)
    | .statement => some .statement

/-- The node that an entry shows, without its children and its raw line. -/
def node? (e : Entry) : Option Node :=
  e.construct?.map fun construct =>
    { content := e.content, construct, comment := e.comment, raw := [], number := e.line, depth := e.depth
      parent := e.parent, children := [] }

private theorem plain_ofNode (n : Node) : (ofNode n).line = n.number ∧ (ofNode n).depth = n.depth ∧
    (ofNode n).parent = n.parent ∧ (ofNode n).tag = n.kind.tag ∧ (ofNode n).content = n.content ∧
    (ofNode n).comment = n.comment := by
  unfold ofNode
  split <;> exact ⟨rfl, rfl, rfl, rfl, rfl, rfl⟩

theorem kind?_ofNode (n : Node) : (ofNode n).kind? = some n.kind := by
  obtain ⟨-, -, -, tag, -, -⟩ := plain_ofNode n
  rw [kind?, tag, Kind.ofTag?_tag]

theorem construct?_ofNode (n : Node) : (ofNode n).construct? = some n.construct := by
  rw [construct?, kind?_ofNode, Option.bind_some]
  obtain ⟨⟨content, construct, comment⟩, raw, number, depth, parent, children⟩ := n
  cases construct with
  | function signature => cases signature <;> rfl
  | setVar assignment =>
    cases assignment with
    | none => rfl
    | some a =>
      -- Only an origin that is true is written.
      obtain ⟨name, visibility, fromOption, value, path⟩ := a
      cases fromOption <;> rfl
  | _ => rfl

/-- An entry shows all of its node but the children and the raw line. -/
theorem node?_ofNode (n : Node) : (ofNode n).node? = some n.bare.withoutRaw := by
  obtain ⟨line, depth, parent, -, content, comment⟩ := plain_ofNode n
  rw [node?, construct?_ofNode, line, depth, parent, content, comment]
  rfl

end Entry

/-! ### Entries from their printed forms -/

namespace Json

/-- The members of an object, of which those without a value are left out. -/
def shown (parts : List (Text × Option Value)) : List (Text × Value) :=
  parts.flatMap fun (key, v) => optionalMember key id v

theorem mem_keys_of_mem_shown {key : Text} {v : Value} {parts : List (Text × Option Value)}
    (member : (key, v) ∈ shown parts) : key ∈ parts.map (·.1) := by
  obtain ⟨part, inside, written⟩ := List.mem_flatMap.mp member
  simp only [optionalMember, Option.mem_toList, Option.map_eq_some_iff] at written
  obtain ⟨_, -, same⟩ := written
  cases same
  exact List.mem_map_of_mem inside

/-- Where no two members have the same key, it shows which of them were left out. -/
theorem eq_of_shown {parts others : List (Text × Option Value)} (keys : parts.map (·.1) = others.map (·.1))
    (distinct : (parts.map (·.1)).Nodup) (same : shown parts = shown others) : parts = others := by
  induction parts generalizing others with
  | nil => exact (List.map_eq_nil_iff.mp keys.symm).symm
  | cons part parts ih =>
    obtain ⟨key, v⟩ := part
    cases others with
    | nil => cases keys
    | cons other others =>
      obtain ⟨key', w⟩ := other
      simp only [List.map_cons, List.cons.injEq] at keys
      obtain ⟨rfl, keys⟩ := keys
      rw [List.map_cons, List.nodup_cons] at distinct
      cases v with
      | none =>
        cases w with
        | none => rw [ih keys distinct.2 same]
        | some w =>
          have member : (key, w) ∈ shown parts := same ▸ List.mem_cons_self
          exact absurd (mem_keys_of_mem_shown member) distinct.1
      | some v =>
        cases w with
        | none =>
          have member : (key, v) ∈ shown others := same ▸ List.mem_cons_self
          exact absurd (keys ▸ mem_keys_of_mem_shown member) distinct.1
        | some w =>
          obtain ⟨first, rest⟩ := List.cons.inj same
          cases first
          rw [ih keys distinct.2 rest]

end Json

theorem Parameter.toJson_injective : Function.Injective Parameter.toJson := by
  intro p q same
  cases p
  cases q
  simpa [Parameter.toJson] using same

theorem Visibility.word_injective : Function.Injective Visibility.word := by
  intro v w same
  cases v <;> cases w <;> first | rfl | cases same

namespace Entry

/-- The members of a printed entry, in order. -/
def parts (e : Entry) : List (Text × Option Value) :=
  [("line_no".toList, some (.number e.line)),
   ("depth".toList, some (.number e.depth)),
   ("parent".toList, e.parent.map .number),
   ("node_type".toList, some (.text e.tag)),
   ("content".toList, some (.text e.content)),
   ("comment".toList, e.comment.map .text),
   ("name".toList, e.name.map .text),
   ("params".toList, e.parameters.map fun ps => .array (ps.map Parameter.toJson)),
   ("return".toList, e.returns.map .text),
   ("ready".toList, e.ready.map .bool),
   ("visibility".toList, e.visibility.map fun v => .text v.word),
   ("from_option".toList, e.fromOption.map .bool),
   ("set_value".toList, e.value.map .text),
   ("path".toList, e.path.map fun segments => .array (segments.map .text)),
   ("invalid".toList, e.invalid.map .bool)]

private theorem toJson_eq (e : Entry) : e.toJson = .object (shown e.parts) := by
  simp [toJson, shown, parts, optionalMember, Function.comp_def]

private theorem keys_parts (e : Entry) : e.parts.map (·.1) = entryRecord.fields.map (·.name) := rfl

theorem toJson_injective : Function.Injective toJson := by
  intro e e' same
  rw [toJson_eq, toJson_eq, Value.object.injEq] at same
  have distinct : (e.parts.map (·.1)).Nodup := keys_parts e ▸ distinct_entryRecord
  have alike := eq_of_shown ((keys_parts e).trans (keys_parts e').symm) distinct same
  have texts : Function.Injective Value.text := fun _ _ => Value.text.inj
  have arrays : Function.Injective Value.array := fun _ _ => Value.array.inj
  have bools : Function.Injective (Option.map Value.bool) := Option.map_injective fun _ _ => Value.bool.inj
  have numbers : Function.Injective (Option.map Value.number) := Option.map_injective fun _ _ => Value.number.inj
  have strings : Function.Injective (Option.map Value.text) := Option.map_injective texts
  have words : Function.Injective (Option.map fun v : Visibility => Value.text v.word) :=
    Option.map_injective (texts.comp Visibility.word_injective)
  have lists : Function.Injective (Option.map fun ps : List Parameter => Value.array (ps.map Parameter.toJson)) :=
    Option.map_injective (arrays.comp (List.map_injective_iff.mpr Parameter.toJson_injective))
  have paths : Function.Injective (Option.map fun segments : List Text => Value.array (segments.map .text)) :=
    Option.map_injective (arrays.comp (List.map_injective_iff.mpr texts))
  cases e
  cases e'
  simpa [parts, bools.eq_iff, numbers.eq_iff, strings.eq_iff, words.eq_iff, lists.eq_iff, paths.eq_iff] using alike

end Entry

/-! ### Listings -/

theorem Listing.toJson_injective : Function.Injective Listing.toJson := by
  rintro ⟨entries⟩ ⟨entries'⟩ same
  simp only [toJson, Value.object.injEq, List.cons.injEq, Prod.mk.injEq, Value.array.injEq, true_and, and_true] at same
  rw [List.map_injective_iff.mpr Entry.toJson_injective same]

theorem filterMap_node?_ofTree (t : Tree) :
    (Listing.ofTree t).entries.filterMap Entry.node? = (t.nodes.map Node.bare).map Node.withoutRaw := by
  have nodes : Entry.node? ∘ Entry.ofNode = some ∘ (Node.withoutRaw ∘ Node.bare) := funext Entry.node?_ofNode
  rw [Listing.ofTree, List.filterMap_map, nodes, List.filterMap_eq_map, List.map_map]

theorem withoutRaw_parse (options : ParseOptions) (text : Text) :
    (parse options text).withoutRaw =
      .ofNodes ((Listing.ofTree (parse options text)).entries.filterMap Entry.node?) := by
  rw [filterMap_node?_ofTree, map_bare_parse, ← Tree.withoutRaw_ofNodes, parse]

theorem ofTree_withoutRaw (t : Tree) : Listing.ofTree t.withoutRaw = Listing.ofTree t := by
  have entries : Entry.ofNode ∘ Node.withoutRaw = Entry.ofNode := rfl
  rw [Listing.ofTree, Tree.withoutRaw, List.map_map, entries, Listing.ofTree]

/-- Two scripts have the same listing exactly if they are the same tree apart from their raw lines. -/
theorem listingText_eq_iff {options options' : ParseOptions} {text text' : Text} :
    listingText options text = listingText options' text' ↔
      (parse options text).withoutRaw = (parse options' text').withoutRaw := by
  constructor
  · intro same
    have listings : Listing.ofTree (parse options text) = Listing.ofTree (parse options' text') :=
      Listing.toJson_injective (print_injective same)
    rw [withoutRaw_parse, withoutRaw_parse, listings]
  · intro same
    have listings : Listing.ofTree (parse options text) = Listing.ofTree (parse options' text') := by
      rw [← ofTree_withoutRaw, same, ofTree_withoutRaw]
    rw [listingText, listings, ← listingText]

example : listingText {} "on join:\n\tstop".toList = listingText {} "on join: \r\n    stop\n".toList := by
  decide +kernel

end ScriptAtlas
