import ReactiveModel.Yaml.Meaning
import ReactiveModel.Yaml.Token

/-! Nodes of a YAML document. Each knows its line and its tag, where plain scalars without tag have
the tag of their meaning. -/

namespace ReactiveModel.Yaml

inductive Node
  | scalar (line : Nat) (tag text : String)
  | sequence (line : Nat) (tag : String) (items : List Node)
  | mapping (line : Nat) (tag : String) (entries : List (Node × Node))
  /-- A reference to an anchored node. A node that holds a reference to itself is there once more
  as the target; a reference to it inside that one has no target. -/
  | reference (line : Nat) (name : String) (target : Option Node)

namespace Node

instance : Inhabited Node := ⟨.scalar 0 "!!null" ""⟩

def line : Node → Nat
  | .scalar l _ _ | .sequence l _ _ | .mapping l _ _ | .reference l _ _ => l

mutual

/-- Completes the references to an anchored node that stand inside it. -/
def tie (name : String) (target : Node) : Node → Node
  | .scalar l t s => .scalar l t s
  | .sequence l t ns => .sequence l t (tieAll name target ns)
  | .mapping l t es => .mapping l t (tieEntries name target es)
  | .reference l n (some t) => .reference l n (some t)
  | .reference l n none => .reference l n (if n == name then some target else none)

def tieAll (name : String) (target : Node) : List Node → List Node
  | [] => []
  | n :: ns => tie name target n :: tieAll name target ns

def tieEntries (name : String) (target : Node) : List (Node × Node) → List (Node × Node)
  | [] => []
  | (k, v) :: es => (tie name target k, tie name target v) :: tieEntries name target es

end

end Node

/-! Reading nodes from tokens. -/

namespace Parse

structure State where
  index : Nat := 0
  /-- Anchored nodes; none for one that is not complete. -/
  anchors : List (String × Option Node) := []

/-- Tokens, how many of them may be looked at, and the handles of tags. -/
structure Source where
  tokens : Array Token
  limit : Nat
  handles : List (String × String)

end Parse

open Parse

abbrev Parse := ReaderT Source (StateT State Option)

namespace Parse

def fail {α : Type} : Parse α := fun _ _ => none

def peek : Parse Token := do
  let src ← read
  let s ← get
  if s.index < src.limit then
    match src.tokens[s.index]? with
    | some t => return t
    | none => fail
  else fail

def advance : Parse PUnit := modify fun s => { s with index := s.index + 1 }

def peekKind : Parse Token.Kind := do return (← peek).kind

def lineOf (t : Token) : Nat := t.line + 1

def empty (line : Nat) : Node := .scalar line "!!null" ""

def bindAnchor (name : String) (n : Option Node) : Parse PUnit :=
  modify fun s => { s with anchors := (name, n) :: s.anchors }

/-- Binds a name to a finished node, unless another node took the name meanwhile. -/
def finishAnchor (name : Option String) (n : Node) : Parse Node := do
  match name with
  | none => return n
  | some a =>
    let n := Node.tie a n n
    match (← get).anchors.lookup a with
    | some none => bindAnchor a (some n)
    | _ => pure ⟨⟩
    return n

def shortTag (tag : String) : String :=
  let lead := "tag:yaml.org,2002:".toList
  if lead.isPrefixOf tag.toList then "!!" ++ String.ofList (tag.toList.drop lead.length) else tag

/-- Anchor and tag in front of a node, with the line where it starts. -/
def properties : Parse (Option String × String × Nat) := do
  let first ← peek
  let tagOf (handle suffix : String) : Parse String := do
    if handle == "" then return suffix
    match (← read).handles.lookup handle with
    | some lead => return lead ++ suffix
    | none => fail
  match first.kind with
  | .anchor a =>
    advance
    match ← peekKind with
    | .tag h s =>
      advance
      return (some a, ← tagOf h s, lineOf first)
    | _ => return (some a, "", lineOf first)
  | .tag h s =>
    advance
    match ← peekKind with
    | .anchor a =>
      advance
      return (some a, ← tagOf h s, lineOf first)
    | _ => return (none, ← tagOf h s, lineOf first)
  | _ => return (none, "", lineOf first)

def tagOr (tag fallback : String) : String :=
  if tag == "" || tag == "!" then fallback else shortTag tag

def scalarTag (text : String) (plain : Bool) : String :=
  if !plain then "!!str"
  else if text == "<<" then "!!merge"
  else (Meaning.ofText true text).tag

/-- A node, or an empty one in front of some tokens. -/
def nodeBefore (stops : List Token.Kind) (line : Nat) (node : Parse Node) : Parse Node := do
  if stops.contains (← peekKind) then return empty line
  else node

/-- Items of a block; `indentless` for those at the indentation of a key, which nothing ends. -/
def blockItems (indentless : Bool) (node : Parse Node) : Nat → Parse (List Node)
  | 0 => fail
  | fuel + 1 => do
    let t ← peek
    match t.kind with
    | .entry =>
      advance
      let stops := if indentless then [.entry, .key, .value, .blockEnd] else [.entry, .blockEnd]
      let n ← nodeBefore stops (lineOf t) node
      return n :: (← blockItems indentless node fuel)
    | k =>
      if indentless then return []
      else if k == .blockEnd then
        advance
        return []
      else fail

def blockValue (node : Parse Node) : Parse Node := do
  let t ← peek
  if t.kind == .value then
    advance
    nodeBefore [.key, .value, .blockEnd] (lineOf t) node
  else return empty (lineOf t)

def blockEntries (node : Parse Node) : Nat → Parse (List (Node × Node))
  | 0 => fail
  | fuel + 1 => do
    let t ← peek
    match t.kind with
    | .key =>
      advance
      let k ← nodeBefore [.key, .value, .blockEnd] (lineOf t) node
      let v ← blockValue node
      return (k, v) :: (← blockEntries node fuel)
    | .blockEnd =>
      advance
      return []
    | _ => fail

/-- What stands between marks, with commas between the parts. -/
def flowParts {α : Type} (stop : Token.Kind) (part : Parse α) : Nat → Bool → Parse (List α)
  | 0, _ => fail
  | fuel + 1, first => do
    let k ← peekKind
    if k == stop then
      advance
      return []
    if !first then
      if k == .flowEntry then advance else fail
    if (← peekKind) == stop then
      advance
      return []
    return (← part) :: (← flowParts stop part fuel false)

def flowValue (stop : Token.Kind) (node : Parse Node) : Parse Node := do
  let t ← peek
  if t.kind == .value then
    advance
    nodeBefore [.flowEntry, stop] (lineOf (← peek)) node
  else return empty (lineOf t)

/-- An item of a sequence, which may be a mapping of one entry. A key that is left out takes the
next token along. -/
def flowItem (node : Parse Node) : Parse Node := do
  let start ← peek
  if start.kind == .key then
    advance
    let t ← peek
    let k ← if [.value, .flowEntry, .flowSequenceEnd].contains t.kind then do
        advance
        pure (empty (lineOf t))
      else node
    return .mapping (lineOf start) "!!map" [(k, ← flowValue .flowSequenceEnd node)]
  else node

def flowEntry (node : Parse Node) : Parse (Node × Node) := do
  if (← peekKind) == .key then
    advance
    let k ← nodeBefore [.value, .flowEntry, .flowMappingEnd] (lineOf (← peek)) node
    return (k, ← flowValue .flowMappingEnd node)
  else
    let k ← node
    return (k, empty (lineOf (← peek)))

/-- A node; `block` allows blocks, `indentless` a sequence at the indentation of its key. -/
def node : Nat → Bool → Bool → Parse Node
  | 0, _, _ => fail
  | fuel + 1, block, indentless => do
    let start ← peek
    match start.kind with
    | .reference name =>
      advance
      match (← get).anchors.lookup name with
      | some target => return .reference (lineOf start) name target
      | none => fail
    | _ =>
      let (anchor, tag, line) ← properties
      let t ← peek
      if let some a := anchor then bindAnchor a none
      let sequence (items : List Node) := Node.sequence line (tagOr tag "!!seq") items
      let mapping (entries : List (Node × Node)) := Node.mapping line (tagOr tag "!!map") entries
      match t.kind with
      | .scalar text plain =>
        advance
        finishAnchor anchor (.scalar line (tagOr tag (scalarTag text plain)) text)
      | .flowSequenceStart =>
        advance
        let part := flowItem (node fuel false false)
        finishAnchor anchor (sequence (← flowParts .flowSequenceEnd part fuel true))
      | .flowMappingStart =>
        advance
        let part := flowEntry (node fuel false false)
        finishAnchor anchor (mapping (← flowParts .flowMappingEnd part fuel true))
      | k =>
        if indentless && k == .entry then
          finishAnchor anchor (sequence (← blockItems true (node fuel true false) fuel))
        else if block && k == .sequenceStart then
          advance
          finishAnchor anchor (sequence (← blockItems false (node fuel true false) fuel))
        else if block && k == .mappingStart then
          advance
          finishAnchor anchor (mapping (← blockEntries (node fuel true true) fuel))
        else if anchor.isSome || tag != "" then
          finishAnchor anchor (.scalar line (tagOr tag "!!null") "")
        else fail

/-- Directives before a document: version 1.1 at most once, and handles of tags. -/
def directives : Nat → Bool → List (String × String) → Parse (List (String × String))
  | 0, _, _ => fail
  | fuel + 1, versioned, handles => do
    match ← peekKind with
    | .version major minor =>
      if versioned || major != 1 || minor != 1 then fail
      else
        advance
        directives fuel true handles
    | .tagDirective h lead =>
      if (handles.lookup h).isSome then fail
      else
        advance
        directives fuel versioned ((h, lead) :: handles)
    | _ => return handles

def document : Parse (Option Node) := do
  let fuel := 2 * (← read).tokens.size + 4
  let within (handles : List (String × String)) (n : Parse Node) : Parse Node := fun src =>
    n { src with handles := handles ++ [("!", "!"), ("!!", "tag:yaml.org,2002:")] }
  let finish (n : Node) : Parse (Option Node) := do
    let _ ← peek
    return some n
  match ← peekKind with
  | .streamEnd => return none
  | .version .. | .tagDirective .. | .documentStart =>
    let handles ← directives fuel false []
    let t ← peek
    if t.kind != .documentStart then fail
    advance
    let t ← peek
    match t.kind with
    | .version .. | .tagDirective .. | .documentStart | .documentEnd | .streamEnd =>
      finish (empty (lineOf t))
    | _ => finish (← within handles (node fuel true false))
  | _ => finish (← within [] (node fuel true false))

end Parse

/-- The first document of a text: nothing if it is malformed, and no node if it is empty. A
malformed rest counts when it comes too soon after the document. -/
def document (c : Cursor) : Option (Option Node) :=
  let (ts, complete) := tokens c
  let src : Parse.Source :=
    { tokens := ts.toArray, limit := if complete then ts.length else ts.length - 2, handles := [] }
  (Parse.document src {}).map Prod.fst

end ReactiveModel.Yaml
