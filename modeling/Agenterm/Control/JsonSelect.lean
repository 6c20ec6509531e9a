import Agenterm.Text
import Mathlib.Data.List.Sort

/-!
# Field selection

`json_select.rs`: a selector is a list of paths in a small grammar, parsed into a trie, and the
projection of a document keeps what the trie selects. Scalars are of any type here: nothing looks
into them. The order in which a map of the trie or a document is stored carries no meaning for the
lookups, and the names in an object are distinct.
-/

namespace Agenterm.JsonSelect

def SELECTOR_MAX_BYTES : Nat := 4096
def SELECTOR_MAX_PATHS : Nat := 64
def SELECTOR_MAX_DEPTH : Nat := 8

inductive SelectorError where
  | empty
  | tooLong (bytes limit : Nat)
  | tooManyPaths (paths limit : Nat)
  | tooDeep (path : String) (limit : Nat)
  | emptySegment (path : String)
  | unsupportedCharacter (path : String) (character : Char)
deriving DecidableEq

inductive Segment where
  /-- A member, kept whole. -/
  | key (name : String)
  /-- A member holding an array; the rest of the path applies to each element. -/
  | elements (name : String)
  /-- The document itself is the array. -/
  | rootElements
deriving DecidableEq

/-! ## The grammar -/

def isKeyCharacter (c : Char) : Bool := c.isAlphanum || c = '_' || c = '-'

/-- `strip_suffix("[]")`. -/
def stripBrackets (part : List Char) : Option (List Char) :=
  if ['[', ']'].isSuffixOf part then some (part.take (part.length - 2)) else none

/-- The loop body of `parse_path`. -/
def parsePart (path part : List Char) : Except SelectorError Segment :=
  if part.isEmpty then
    .error (.emptySegment (String.ofList path))
  else
    let (key, elements) := match stripBrackets part with
      | some head => (head, true)
      | none => (part, false)
    if key.isEmpty then
      if !elements then .error (.emptySegment (String.ofList path)) else .ok .rootElements
    else
      match key.find? fun c => !isKeyCharacter c with
      | some character => .error (.unsupportedCharacter (String.ofList path) character)
      | none =>
        .ok (if elements then .elements (String.ofList key) else .key (String.ofList key))

def parsePath (path : List Char) : Except SelectorError (List Segment) :=
  (path.splitOn '.').mapM (parsePart path)

/-- The loop body of `Selector::parse` for what is between two commas. -/
def parseRaw (raw : List Char) : Except SelectorError (List Segment) :=
  let path := trim raw
  if path.isEmpty then
    .error (.emptySegment (String.ofList raw))
  else
    match parsePath path with
    | .error error => .error error
    | .ok segments =>
      if segments.length > SELECTOR_MAX_DEPTH then
        .error (.tooDeep (String.ofList path) SELECTOR_MAX_DEPTH)
      else
        .ok segments

/-- `if !parsed.contains(&segments) { parsed.push(segments) }`. -/
def pushNew (parsed : List (List Segment)) (segments : List Segment) : List (List Segment) :=
  if parsed.contains segments then parsed else parsed ++ [segments]

/-- The paths of a text, each once. -/
def parsePaths (text : String) : Except SelectorError (List (List Segment)) :=
  if text.utf8ByteSize > SELECTOR_MAX_BYTES then
    .error (.tooLong text.utf8ByteSize SELECTOR_MAX_BYTES)
  else if (trim text.toList).isEmpty then
    .error .empty
  else
    match (text.toList.splitOn ',').mapM parseRaw with
    | .error error => .error error
    | .ok raws =>
      let parsed := raws.foldl pushNew []
      if parsed.isEmpty then
        .error .empty
      else if parsed.length > SELECTOR_MAX_PATHS then
        .error (.tooManyPaths parsed.length SELECTOR_MAX_PATHS)
      else
        .ok parsed

/-! ## The trie -/

/-- What a parsed selector keeps at one point of the document. A leaf keeps the value there
whole. -/
inductive Node where
  | mk (leaf : Bool) (members : List (String × Node)) (elements : Option Node)

namespace Node

def leaf : Node → Bool
  | mk leaf _ _ => leaf

def members : Node → List (String × Node)
  | mk _ members _ => members

def elements : Node → Option Node
  | mk _ _ elements => elements

/-- `Node::default`. -/
def default : Node := .mk false [] none

/-- `Node::leaf`. -/
def whole : Node := .mk true [] none

/-- `members.get`. -/
def member (node : Node) (name : String) : Option Node := node.members.lookup name

/-- `members.insert`. -/
def insertMember (node : Node) (name : String) (inner : Node) : Node :=
  .mk node.leaf ((name, inner) :: node.members.filter fun field => field.1 ≠ name) node.elements

def setElements (node inner : Node) : Node := .mk node.leaf node.members (some inner)

end Node

/-- `insert`. A member or element walk that is not there yet begins as `Node::default`. -/
def insert (node : Node) : List Segment → Node
  | [] => node
  | .key name :: rest =>
    if rest.isEmpty then
      node.insertMember name .whole
    else
      node.insertMember name (insert ((node.member name).getD .default) rest)
  | .elements name :: rest =>
    let entry := (node.member name).getD .default
    if rest.isEmpty then
      node.insertMember name (entry.setElements .whole)
    else
      node.insertMember name (entry.setElements (insert (entry.elements.getD .default) rest))
  | .rootElements :: rest =>
    if rest.isEmpty then
      node.setElements .whole
    else
      node.setElements (insert (node.elements.getD .default) rest)

structure Selector where
  root : Node

/-- `Selector::parse`; the paths are inserted by length. -/
def Selector.parse (text : String) : Except SelectorError Selector :=
  (parsePaths text).map fun parsed =>
    ⟨(parsed.insertionSort fun a b => a.length ≤ b.length).foldl insert .default⟩

/-! ## The projection -/

/-- A JSON document with scalars in `σ`. -/
inductive Document (σ : Type) where
  | scalar (s : σ)
  | array (items : List (Document σ))
  | object (fields : List (String × Document σ))

mutual

/-- `project_node`. -/
def project {σ : Type} (node : Node) : Document σ → Document σ
  | .scalar s => .scalar s
  | .array items =>
    if node.leaf then .array items
    else
      match node.elements with
      | some inner => .array (projectItems inner items)
      | none => .array items
  | .object fields =>
    if node.leaf || node.members.isEmpty then .object fields
    else .object (projectFields node fields)

def projectItems {σ : Type} (inner : Node) : List (Document σ) → List (Document σ)
  | [] => []
  | item :: items => project inner item :: projectItems inner items

def projectFields {σ : Type} (node : Node) : List (String × Document σ) →
    List (String × Document σ)
  | [] => []
  | field :: fields => (projectField node field).toList ++ projectFields node fields

def projectField {σ : Type} (node : Node) : String × Document σ → Option (String × Document σ)
  | (name, value) => (node.member name).map fun inner => (name, project inner value)

end

def Selector.project {σ : Type} (selector : Selector) (value : Document σ) : Document σ :=
  JsonSelect.project selector.root value

end Agenterm.JsonSelect
