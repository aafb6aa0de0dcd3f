import ScriptAtlas.Text.Cut

/-!
Paths of files. A path is read as a list of components, and two spellings with
the same components name the same file: repeated and trailing slashes count for
nothing, and so does a dot, except at the beginning of a relative path. Paths
are ordered component by component.
-/
namespace ScriptAtlas

/-- A step of a path. -/
inductive Component
  | root
  | here
  | up
  | name (text : Text)
deriving DecidableEq, Repr

/-- The place of a component in the order: the root, then a dot, then two dots,
    then the names by their code points. -/
def Component.key : Component → List Nat
  | root => [0]
  | here => [1]
  | up => [2]
  | name s => 3 :: s.map Char.toNat

theorem Component.key_inj {c d : Component} : c.key = d.key ↔ c = d := by
  cases c <;> cases d <;> simp [key, List.map_inj_right fun _ _ => Char.toNat_inj.mp]

/-- A path as it is spelled. -/
structure Path where
  spelling : Text
deriving DecidableEq, Repr

namespace Path

/-- The component that a part between slashes names, if it counts. -/
def component? (part : Text) : Option Component :=
  if part.isEmpty || part = ['.'] then none
  else if part = ['.', '.'] then some .up
  else some (.name part)

def components (p : Path) : List Component :=
  let parts := Text.pieces '/' p.spelling
  let start :=
    if p.spelling.head? = some '/' then [.root]
    else if parts.head? = some ['.'] then [.here]
    else []
  start ++ parts.filterMap component?

/-- The place of a path in the order of paths. Paths are the same when their keys are. -/
def key (p : Path) : List (List Nat) := p.components.map Component.key

def order (p q : Path) : Ordering := compare p.key q.key

/-- Whether two spellings name the same path. -/
def same (p q : Path) : Bool := p.key == q.key

/-- Paths are the same when they are equal component by component. -/
theorem same_iff {p q : Path} : p.same q = true ↔ p.components = q.components := by
  rw [same, beq_iff_eq, key, key, List.map_inj_right fun _ _ => Component.key_inj.mp]

theorem order_eq_iff {p q : Path} : p.order q = .eq ↔ p.same q = true := by
  rw [order, Std.LawfulEqOrd.compare_eq_iff_eq, same, beq_iff_eq]

instance : Std.TransCmp order := inferInstanceAs (Std.TransCmp (compareOn key))

@[simp] theorem same_refl (p : Path) : p.same p = true := same_iff.mpr rfl

/-- Paths that are the same are the same as the same paths. -/
theorem same_congr {p q : Path} (same : p.same q = true) (r : Path) : p.same r = q.same r := by
  rw [Bool.eq_iff_iff, same_iff, same_iff, same_iff.mp same]

theorem same_comm (p q : Path) : p.same q = q.same p := by
  rw [Bool.eq_iff_iff, same_iff, same_iff, eq_comm]

/-- A path below another one. -/
def child (p : Path) (name : Text) : Path :=
  ⟨if p.spelling.isEmpty || p.spelling.getLast? = some '/' then p.spelling ++ name
    else p.spelling ++ '/' :: name⟩

/-- The extension of a file name: what follows its last dot, unless the name
    has no dot or only begins with it. -/
def extension? (fileName : Text) : Option Text :=
  if fileName = ['.', '.'] then none
  else
    match Text.cutAt '.' fileName.reverse with
    | none => none
    | some (_, []) => none
    | some (after, _) => some after.reverse

end Path
end ScriptAtlas
