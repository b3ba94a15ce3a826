/-!
# Indented lines

Source text as a list of lines of which some open a level of indentation and some close one.
`Layout.lines` gives each line its indentation: four spaces for each open level, nothing for an
empty line. Closing a level that is not open has no effect.
-/

namespace SchemaCompiler

/-- A line of source text. It keeps the indentation, or the indentation is one level deeper after it
(`enter`), or a level ends before it (`leave`). -/
inductive LayoutItem where
  | line (text : String)
  | enter (text : String)
  | leave (text : String)
deriving DecidableEq, Repr

namespace Layout

/-- A line at the given depth. An empty line has no indentation. -/
def indented (depth : Nat) (text : String) : String :=
  if text = "" then "" else String.ofList (List.replicate (4 * depth) ' ') ++ text

/-- The lines of a layout that starts at the given depth. -/
def lines : Nat → List LayoutItem → List String
  | _, [] => []
  | depth, .line text :: rest => indented depth text :: lines depth rest
  | depth, .enter text :: rest => indented depth text :: lines (depth + 1) rest
  | depth, .leave text :: rest => indented (depth - 1) text :: lines (depth - 1) rest

/-- The text of a layout, in which every line ends in a line feed. -/
def render (items : List LayoutItem) : String :=
  String.join ((lines 0 items).map (· ++ "\n"))

/-- Lines one level deeper between a first and a last line. -/
def block (head : String) (body : List LayoutItem) (tail : String) : List LayoutItem :=
  .enter head :: (body ++ [.leave tail])

/-- Lines that are there only under a condition. -/
def when (condition : Bool) (items : List LayoutItem) : List LayoutItem :=
  if condition then items else []

/-- The depth after a layout that starts at the given depth. -/
def depthAfter : Nat → List LayoutItem → Nat
  | depth, [] => depth
  | depth, .line _ :: rest => depthAfter depth rest
  | depth, .enter _ :: rest => depthAfter (depth + 1) rest
  | depth, .leave _ :: rest => depthAfter (depth - 1) rest

/-- The depth after two layouts is that of the second one, started where the first one ends. -/
theorem depthAfter_append (depth : Nat) (first second : List LayoutItem) :
    depthAfter depth (first ++ second) = depthAfter (depthAfter depth first) second := by
  induction first generalizing depth with
  | nil => rfl
  | cons item rest ih => cases item <;> exact ih _

/-- The lines of two layouts are those of the first one and then those of the second one, started at
the depth where the first one ends. -/
theorem lines_append (depth : Nat) (first second : List LayoutItem) :
    lines depth (first ++ second) = lines depth first ++ lines (depthAfter depth first) second := by
  induction first generalizing depth with
  | nil => rfl
  | cons item rest ih => cases item <;> exact congrArg (_ :: ·) (ih _)

/-- A block ends at the depth where it starts if its body keeps the depth. -/
theorem depthAfter_block {depth : Nat} {head tail : String} {body : List LayoutItem}
    (h : depthAfter (depth + 1) body = depth + 1) :
    depthAfter depth (block head body tail) = depth := by
  simp only [block, depthAfter, depthAfter_append, h, Nat.add_sub_cancel]

end Layout

end SchemaCompiler
