import NpuBroker.Yaml.Token

/-!
# Nodes

What a YAML text holds: one document, and in it scalars, sequences and mappings. An alias stands for
the node that its anchor is on, which may be one around it; so it stays a reference, and
`Document.resolve` looks it up.

A text with a fault still has a document, as far as it was read before: where something is missing
because of the fault stands a broken node. So who reads a document finds what does not suit them
before the fault, if that comes first.
-/
namespace NpuBroker.Yaml

inductive Node where
  | scalar (mark : Mark) (style : Style) (tag : Option TagText) (text : String)
  | sequence (mark : Mark) (items : List Node)
  | mapping (mark : Mark) (entries : List (Node × Node))
  /-- The node with this anchor. -/
  | reference (anchor : Nat)
  /-- Missing, because the text has a fault here. -/
  | broken
deriving Inhabited

/-- What is behind a document. -/
inductive Ending where
  | clean
  /-- Something that is not part of it. -/
  | more
  /-- A fault, in the document or right behind it. -/
  | fault (f : Fault)
deriving DecidableEq

structure Document where
  root : Node
  /-- The nodes that have anchors, the one to be found first. -/
  anchored : List (Nat × Node)
  ending : Ending

namespace Node

/-- Where a node begins, as far as it says. -/
def mark : Node → Mark
  | .scalar m _ _ _ | .sequence m _ | .mapping m _ => m
  | .reference _ | .broken => .origin

/-- What stands where nothing is written. -/
def empty (m : Mark) : Node := .scalar m .plain none ""

mutual

/-- Whether nothing is missing in a node. -/
def isWhole : Node → Bool
  | .broken => false
  | .sequence _ items => areWhole items
  | .mapping _ entries => entriesAreWhole entries
  | _ => true

def areWhole : List Node → Bool
  | [] => true
  | n :: ns => n.isWhole && areWhole ns

def entriesAreWhole : List (Node × Node) → Bool
  | [] => true
  | (key, value) :: more => key.isWhole && value.isWhole && entriesAreWhole more

end

/-! ## Reading -/

/-- The tokens to come, the handles of tags, and what is known of anchors. When no tokens are left,
it is for the fault. -/
structure Progress where
  lexemes : List Lexeme
  fault : Option Fault
  handles : List (List Char × TagText)
  names : List (List Char × Nat)
  anchored : List (Nat × Node)

abbrev Reader := StateM Progress

namespace Reader

def peek : Reader (Option Lexeme) := do return (← get).lexemes.head?

def drop : Reader Unit := modify fun s => { s with lexemes := s.lexemes.tail }

/-- Finds a fault; no more tokens are read. -/
def refuse (f : Fault) : Reader Unit := modify fun s => { s with lexemes := [], fault := some f }

/-- The number of an anchor, which is how many names there were before. A name that is given again
gets another number, but does not count again; so two anchors may have one number. -/
def anchorNumber (name : List Char) : Reader Nat := do
  let s ← get
  let n := s.names.length
  let names :=
    if (s.names.lookup name).isSome then
      s.names.map fun (other, m) => if other = name then (other, n) else (other, m)
    else s.names ++ [(name, n)]
  set { s with names := names }
  return n

/-- The bytes of a tag's text, which a zero ends. -/
def ended (t : TagText) : TagText := t.takeWhile (· != 0)

structure Properties where
  /-- Where the node begins. -/
  start : Mark
  anchor : Option (List Char)
  /-- The handle and the suffix of a tag, and where it is. -/
  tag : Option (List Char × TagText × Mark)

/-- The anchor and the tag before a node that begins at `t`, in either order, each at most once. -/
def properties (t : Lexeme) : Reader Properties := do
  match t.token with
  | .anchor name =>
    drop
    match ← peek with
    | some ⟨.tag handle suffix, mark, _⟩ =>
      drop
      return ⟨t.start, some name, some (handle, suffix, mark)⟩
    | _ => return ⟨t.start, some name, none⟩
  | .tag handle suffix =>
    drop
    match ← peek with
    | some ⟨.anchor name, _, _⟩ =>
      drop
      return ⟨t.start, some name, some (handle, suffix, t.start)⟩
    | _ => return ⟨t.start, none, some (handle, suffix, t.start)⟩
  | _ => return ⟨t.start, none, none⟩

/-- The full text of the tag; `none` is a handle that stands for nothing. -/
def Properties.fullTag (p : Properties) (handles : List (List Char × TagText)) :
    Option (Option TagText) :=
  match p.tag with
  | none => some none
  | some ([], suffix, _) => some (some (ended suffix))
  | some (handle, suffix, _) =>
    (handles.lookup handle).map fun start => some (ended start ++ ended suffix)

def alias? (name : List Char) (mark : Mark) : Reader Node := do
  match (← get).names.lookup name with
  | some n => return .reference n
  | none =>
    refuse ⟨.unknownAnchor, mark, none⟩
    return .broken

/-- Gives a node its anchor; `before` is how many nodes had one when it began. Of nodes with one
number the one begun last is found, so one inside it stays. -/
def anchor (number : Nat) (before : Nat) (n : Node) : Reader Unit :=
  modify fun s =>
    let inside := s.anchored.take (s.anchored.length - before)
    if (inside.lookup number).isSome then s else { s with anchored := (number, n) :: s.anchored }

mutual

/-- A node. Block collections are read only where they may stand, and a sequence at the column of
the mapping around it only as a part of that. -/
def node (block inMapping : Bool) : Nat → Reader Node
  | 0 => return .broken
  | fuel + 1 => do
    match ← peek with
    | none => return .broken
    | some ⟨.alias name, mark, _⟩ =>
      drop
      alias? name mark
    | some t =>
      let p ← properties t
      match ← peek with
      | none => return .broken
      | some t =>
        match p.fullTag (← get).handles with
        | none =>
          refuse ⟨.unknownHandle, (p.tag.map (·.2.2)).getD p.start, some (.node, p.start)⟩
          return .broken
        | some tag =>
          match p.anchor with
          | none => content block inMapping p tag t fuel
          | some name =>
            let number ← anchorNumber name
            let before := (← get).anchored.length
            let found ← content block inMapping p tag t fuel
            anchor number before found
            return found

/-- A node that goes on with `t` behind its properties. -/
def content (block inMapping : Bool) (p : Properties) (tag : Option TagText) (t : Lexeme) :
    Nat → Reader Node
  | 0 => return .broken
  | fuel + 1 => do
    let start := p.start
    match t.token, block, inMapping with
    | .item, _, true => return .sequence start (← looseItems fuel)
    | .scalar style text, _, _ =>
      drop
      return .scalar start style tag (String.ofList text)
    | .flowSequence, _, _ =>
      drop
      return .sequence start (← flowItems true t.start fuel)
    | .flowMapping, _, _ =>
      drop
      return .mapping start (← flowEntries true t.start fuel)
    | .blockSequence, true, _ =>
      drop
      return .sequence start (← blockItems t.start fuel)
    | .blockMapping, true, _ =>
      drop
      return .mapping start (← blockEntries t.start fuel)
    | _, _, _ =>
      if p.anchor.isSome ∨ p.tag.isSome then return .scalar start .plain tag ""
      else
        refuse ⟨.noContent, t.start, some (if block then .blockNode else .flowNode, start)⟩
        return .broken

/-- A node, or an empty one at `mark` before one of the tokens `ends`. -/
def nodeBefore (ends : List Token) (mark : Mark) (block inMapping : Bool) : Nat → Reader Node
  | 0 => return .broken
  | fuel + 1 => do
    match ← peek with
    | none => return .broken
    | some t => if t.token ∈ ends then return empty mark else node block inMapping fuel

/-- The items of a block sequence that began at `start`. -/
def blockItems (start : Mark) : Nat → Reader (List Node)
  | 0 => return [.broken]
  | fuel + 1 => do
    match ← peek with
    | none => return [.broken]
    | some ⟨.item, _, stop⟩ =>
      drop
      let first ← nodeBefore [.item, .blockEnd] stop true false fuel
      return first :: (← blockItems start fuel)
    | some ⟨.blockEnd, _, _⟩ =>
      drop
      return []
    | some t =>
      refuse ⟨.noItem, t.start, some (.blockSequence, start)⟩
      return [.broken]

/-- The items of a sequence at the column of the mapping around it. -/
def looseItems : Nat → Reader (List Node)
  | 0 => return [.broken]
  | fuel + 1 => do
    match ← peek with
    | none => return [.broken]
    | some ⟨.item, _, stop⟩ =>
      drop
      let first ← nodeBefore [.item, .key, .value, .blockEnd] stop true false fuel
      return first :: (← looseItems fuel)
    | some _ => return []

/-- The entries of a block mapping that began at `start`. -/
def blockEntries (start : Mark) : Nat → Reader (List (Node × Node))
  | 0 => return [(.broken, .broken)]
  | fuel + 1 => do
    match ← peek with
    | none => return [(.broken, .broken)]
    | some ⟨.key, _, stop⟩ =>
      drop
      let key ← nodeBefore [.key, .value, .blockEnd] stop true true fuel
      let value ← blockValue fuel
      return (key, value) :: (← blockEntries start fuel)
    | some ⟨.blockEnd, _, _⟩ =>
      drop
      return []
    | some t =>
      refuse ⟨.noKey, t.start, some (.blockMapping, start)⟩
      return [(.broken, .broken)]

/-- The value of an entry of a block mapping. -/
def blockValue : Nat → Reader Node
  | 0 => return .broken
  | fuel + 1 => do
    match ← peek with
    | none => return .broken
    | some ⟨.value, _, stop⟩ =>
      drop
      nodeBefore [.key, .value, .blockEnd] stop true true fuel
    | some t => return empty t.start

/-- The value of an entry of a flow collection that ends with `last`. -/
def flowValue (last : Token) : Nat → Reader Node
  | 0 => return .broken
  | fuel + 1 => do
    match ← peek with
    | none => return .broken
    | some ⟨.value, _, _⟩ =>
      drop
      match ← peek with
      | none => return .broken
      | some t => nodeBefore [.separator, last] t.start false false fuel
    | some t => return empty t.start

/-- The only entry of a mapping that stands as an item of a flow sequence. Without a node for its
key, the indicator behind it is passed over. -/
def flowEntry : Nat → Reader (List (Node × Node))
  | 0 => return [(.broken, .broken)]
  | fuel + 1 => do
    let key ←
      match ← peek with
      | none => pure .broken
      | some t =>
        if t.token ∈ [.value, .separator, .flowSequenceEnd] then do
          drop
          pure (empty t.stop)
        else node false false fuel
    let value ← flowValue .flowSequenceEnd fuel
    match ← peek with
    | none => return [(key, value), (.broken, .broken)]
    | some _ => return [(key, value)]

/-- The items of a flow sequence that began at `start`. One that begins with a key is a mapping of
one entry. -/
def flowItems (first : Bool) (start : Mark) : Nat → Reader (List Node)
  | 0 => return [.broken]
  | fuel + 1 => do
    if let some t ← peek then
      if t.token = .separator ∧ !first then drop
      else if t.token ≠ .flowSequenceEnd ∧ !first then
        refuse ⟨.noSequenceEnd, t.start, some (.flowSequence, start)⟩
    match ← peek with
    | none => return [.broken]
    | some ⟨.flowSequenceEnd, _, _⟩ =>
      drop
      return []
    | some ⟨.key, mark, _⟩ =>
      drop
      let entry ← flowEntry fuel
      return .mapping mark entry :: (← flowItems false start fuel)
    | some _ =>
      let found ← node false false fuel
      return found :: (← flowItems false start fuel)

/-- The entries of a flow mapping that began at `start`. -/
def flowEntries (first : Bool) (start : Mark) : Nat → Reader (List (Node × Node))
  | 0 => return [(.broken, .broken)]
  | fuel + 1 => do
    if let some t ← peek then
      if t.token = .separator ∧ !first then drop
      else if t.token ≠ .flowMappingEnd ∧ !first then
        refuse ⟨.noMappingEnd, t.start, some (.flowMapping, start)⟩
    match ← peek with
    | none => return [(.broken, .broken)]
    | some ⟨.flowMappingEnd, _, _⟩ =>
      drop
      return []
    | some ⟨.key, _, _⟩ =>
      drop
      let key ←
        match ← peek with
        | none => pure .broken
        | some t => nodeBefore [.value, .separator, .flowMappingEnd] t.start false false fuel
      let value ← flowValue .flowMappingEnd fuel
      return (key, value) :: (← flowEntries false start fuel)
    | some _ =>
      let key ← node false false fuel
      let value ←
        match ← peek with
        | none => pure .broken
        | some t => pure (empty t.start)
      return (key, value) :: (← flowEntries false start fuel)

end

/-! ## Documents -/

/-- The directives before a document: a version of YAML 1, and handles of tags. -/
def directives (version : Bool) : Nat → Reader Unit
  | 0 => return
  | fuel + 1 => do
    match ← peek with
    | some ⟨.version major minor, mark, _⟩ =>
      if version then refuse ⟨.secondVersion, mark, none⟩
      else if major ≠ 1 ∨ minor ∉ [1, 2] then refuse ⟨.otherVersion, mark, none⟩
      else
        drop
        directives true fuel
    | some ⟨.tagHandle handle start, mark, _⟩ =>
      let s ← get
      if (s.handles.lookup handle).isSome then refuse ⟨.secondHandle, mark, none⟩
      else
        set { s with handles := s.handles ++ [(handle, start)] }
        drop
        directives version fuel
    | _ => return

/-- The handles that need no directive. -/
def standardHandles : List (List Char × TagText) :=
  [(['!'], Utf8.encode ['!']), (['!', '!'], Utf8.encode "tag:yaml.org,2002:".toList)]

def addStandardHandles : Reader Unit :=
  -- a handle may be given anew, so these come behind
  modify fun s => { s with handles := s.handles ++ standardHandles }

/-- The root of a document that begins with a mark of its own. -/
def markedRoot (fuel : Nat) : Reader Node := do
  directives false fuel
  addStandardHandles
  match ← peek with
  | none => return .broken
  | some ⟨.documentStart, _, _⟩ =>
    drop
    match ← peek with
    | none => return .broken
    | some t =>
      let ends : Bool := match t.token with
        | .version _ _ | .tagHandle _ _ | .documentStart | .documentEnd | .streamEnd => true
        | _ => false
      if ends then return empty t.start else node true false fuel
  | some t =>
    refuse ⟨.noDocument, t.start, none⟩
    return .broken

/-- The root of the first document. -/
def root (fuel : Nat) : Reader Node := do
  match ← peek with
  | none => return .broken
  | some t =>
    match t.token with
    | .streamEnd => return empty .origin
    | .version _ _ | .tagHandle _ _ | .documentStart => markedRoot fuel
    | _ =>
      addStandardHandles
      node true false fuel

end Reader
end Node

namespace Document

/-- What tokens say to be behind a document, if there are any. -/
def endingOf (lexemes : List Lexeme) (fault : Option Fault) : Ending :=
  match lexemes, fault with
  | [], some f => .fault f
  | _, _ =>
    match (lexemes.dropWhile (·.token = .documentEnd)).head? with
    | some ⟨.streamEnd, _, _⟩ => .clean
    | _ => .more

/-- The first document in a text; an empty text holds an empty node. -/
def ofText (s : String) : Document :=
  let lexed := Lexed.ofChars s.toList
  let (root, rest) := (Node.Reader.root (8 * lexed.lexemes.length + 8)).run
    ⟨lexed.lexemes, lexed.fault, [], [], []⟩
  ⟨root, rest.anchored, endingOf rest.lexemes rest.fault⟩

/-- The node that `n` stands for. -/
def resolve (d : Document) : Node → Node
  | .reference anchor => (d.anchored.lookup anchor).getD .broken
  | n => n

end Document
end NpuBroker.Yaml
