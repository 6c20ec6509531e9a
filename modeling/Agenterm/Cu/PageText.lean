import Mathlib
import Agenterm.Control.Options
import Agenterm.Text
import Mathlib.Data.List.Lex
import Mathlib.Order.Lattice

/-!
# The text of a page

`page_text.rs`: the visible text of an accessibility tree in reading order. A node that shows words of
its own is a candidate; one whose words the nearest row above it already carries is merged into it.
`char::is_alphanumeric` is a parameter.
-/

namespace Agenterm.Cu.PageText

/-- `A11yBounds`; the fields are `i32`. -/
structure A11yBounds where
  x : Int
  y : Int
  width : Int
  height : Int
deriving DecidableEq

/-- `A11yNode`, as far as `read` looks at it. -/
structure A11yNode where
  id : String
  role : String
  name : String
  states : List String
  bounds : A11yBounds
  actions : List String
  text : Option String
deriving DecidableEq

/-- `i32::saturating_add`. -/
def saturatingAddI32 (a b : Int) : Int := max (-2 ^ 31) (min (2 ^ 31 - 1) (a + b))

def isShowing (node : A11yNode) : Bool :=
  node.states.any fun state => eqIgnoreAsciiCase state "showing" || eqIgnoreAsciiCase state "visible"

def intersects (node : A11yNode) (within : Option (Int × Int × Int × Int)) : Bool :=
  let b := node.bounds
  if b.width ≤ 0 || b.height ≤ 0 then
    false
  else
    match within with
    | none => true
    | some (x, y, w, h) =>
      b.x < saturatingAddI32 x w && x < saturatingAddI32 b.x b.width &&
        b.y < saturatingAddI32 y h && y < saturatingAddI32 b.y b.height

/-- `str::strip_prefix` of `AX`, or the text itself. -/
def stripAX : List Char → List Char
  | 'A' :: 'X' :: rest => rest
  | text => text

def CONTAINER_ROLES : List String :=
  ["", "application", "cell", "column", "document", "generic", "group", "layout-area", "list",
    "outline", "region", "row", "scroll-area", "section", "splitter", "tab-group", "table", "toolbar",
    "unknown", "web-area", "window"]

/-- The roles whose value is a number or a state. -/
def VALUE_IS_NOT_TEXT_ROLES : List String :=
  ["heading", "progress-indicator", "slider", "stepper"]

/-- The words of a text, with one blank between two. -/
def collapseWs (raw : String) : String :=
  " ".intercalate (((raw.toList.splitOnP isWhitespace).filter (!·.isEmpty)).map String.ofList)

section
variable (isAlphanumeric : Char → Bool)

/-- `observe::normalize_role`. -/
def normalizeRole (raw : String) : String :=
  let compact := String.ofList
    (((stripAX (trim raw.toList)).filter isAlphanumeric).map Char.toLower)
  if compact = "pushbutton" then "button" else compact

def isContainer (role : String) : Bool :=
  CONTAINER_ROLES.any fun container =>
    normalizeRole isAlphanumeric container == normalizeRole isAlphanumeric role

/-- The string that a node shows: its value first, else its accessible name. -/
def label (node : A11yNode) : Option String :=
  if isContainer isAlphanumeric node.role then
    none
  else
    let normalized := normalizeRole isAlphanumeric node.role
    let valueIsText := !VALUE_IS_NOT_TEXT_ROLES.any fun role =>
      normalizeRole isAlphanumeric role == normalized
    let text := if valueIsText then collapseWs (node.text.getD "") else ""
    if !text.isEmpty then
      some text
    else
      let name := collapseWs node.name
      if !name.isEmpty then some name else none

end

/-- The child indices that an id spells; what is no `usize` counts as the largest one. -/
def path (id : String) : List Nat :=
  ((id.toList.splitOn '/').filter (!·.isEmpty)).map fun part =>
    (parseUnsigned u64Max part).getD u64Max

structure TextRow where
  id : String
  role : String
  text : String
  /-- The accessible name when it differs from `text`. -/
  name : Option String
  bounds : A11yBounds
  focused : Bool
  actionable : Bool
deriving DecidableEq

/-- The row that `read` pushes for a node and its text. -/
def TextRow.of (node : A11yNode) (text : String) : TextRow where
  id := node.id
  role := node.role
  text := text
  name :=
    let name := collapseWs node.name
    if !name.isEmpty && name ≠ text then some name else none
  bounds := node.bounds
  focused := node.states.any fun state => eqIgnoreAsciiCase state "focused"
  actionable := node.actions.any fun action => eqIgnoreAsciiCase action "click"

structure Reading where
  rows : List TextRow
  bytes : Nat
  truncated : Bool
  candidates : Nat
  merged : Nat
deriving DecidableEq

/-- The local variables of `read`; `emitted` has the innermost row first. -/
structure Progress where
  rows : List TextRow
  emitted : List (String × String)
  bytes : Nat
  candidates : Nat
  merged : Nat

def Progress.start : Progress := ⟨[], [], 0, 0, 0⟩

def Progress.reading (progress : Progress) (truncated : Bool) : Reading :=
  ⟨progress.rows, progress.bytes, truncated, progress.candidates, progress.merged⟩

/-- `id.starts_with(&format!("{ancestor}/"))`. -/
def isBelow (id ancestor : String) : Bool := (ancestor.toList ++ ['/']).isPrefixOf id.toList

/-- `str::contains`. -/
def containsText (text part : String) : Bool := decide (part.toList <:+: text.toList)

/-- A candidate is counted, and the rows that it is not below are popped. -/
def Progress.count (progress : Progress) (id : String) : Progress :=
  { progress with
    candidates := progress.candidates + 1
    emitted := progress.emitted.dropWhile fun row => !isBelow id row.1 }

/-- The innermost row has the words of a candidate. -/
def Progress.carries (progress : Progress) (text : String) : Bool :=
  progress.emitted.head?.any fun row => containsText row.2 text

def Progress.push (progress : Progress) (row : TextRow) : Progress :=
  { progress with
    rows := progress.rows ++ [row]
    emitted := (row.id, row.text) :: progress.emitted
    bytes := progress.bytes + row.text.utf8ByteSize }

section
variable (isAlphanumeric : Char → Bool) (within : Option (Int × Int × Int × Int)) (maxBytes : Nat)

/-- The loop of `read`. -/
def readNodes : List A11yNode → Progress → Reading
  | [], progress => progress.reading false
  | node :: rest, progress =>
    if !isShowing node || !intersects node within then
      readNodes rest progress
    else
      match label isAlphanumeric node with
      | none => readNodes rest progress
      | some text =>
        let counted := progress.count node.id
        if counted.carries text then
          readNodes rest { counted with merged := counted.merged + 1 }
        else if maxBytes < counted.bytes + text.utf8ByteSize then
          counted.reading true
        else
          readNodes rest (counted.push (TextRow.of node text))

/-- `sort_by_cached_key(|node| path(&node.id))`. -/
def inReadingOrder (nodes : List A11yNode) : List A11yNode :=
  nodes.mergeSort fun a b => decide (path a.id ≤ path b.id)

def read (nodes : List A11yNode) : Reading :=
  readNodes isAlphanumeric within maxBytes (inReadingOrder nodes) Progress.start

end

end Agenterm.Cu.PageText
