import ReactiveModel.Source.DocComment
import ReactiveModel.Source.Literal
import ReactiveModel.Source.ReadFile

/-! The import section of a file while it is put in order. Imports and comments move, and lines are
joined, but the text stays as it is: places are offsets in it. -/

namespace ReactiveModel.Source

structure CommentGroup where
  /-- Where the group stands in the text, which tells it from other groups. -/
  id : Nat
  comments : List (Nat × String)
deriving Inhabited

namespace CommentGroup

def ofComments (cs : List Comment) : CommentGroup where
  id := (cs.head?.map (·.pos.offset)).getD 0
  comments := cs.map fun c => (c.pos.offset, c.text)

def start (g : CommentGroup) : Nat := (g.comments.head?.map (·.1)).getD 0

def stop (g : CommentGroup) : Nat :=
  (g.comments.getLast?.map fun (p, t) => p + t.utf8ByteSize).getD 0

def moveTo (g : CommentGroup) (p : Nat) : CommentGroup :=
  { g with comments := g.comments.map fun (_, t) => (p, t) }

/-- The lines of a comment without its marks; comments addressed to tools have none. -/
def linesOf (comment : String) : List String :=
  let body := dropFront 2 comment
  if comment.startsWith "//" then
    if body.startsWith " " then [dropFront 1 body]
    else if isDirective body then []
    else [body]
  else (String.ofList body.toList.dropLast.dropLast).splitOn "\n"

def trimLine (s : String) : String :=
  String.ofList (s.toList.reverse.dropWhile fun c =>
    c == ' ' || c == '\t' || c == '\n' || c == '\r').reverse

/-- Leaves out blank lines at the start, and of several in a row all but one. -/
def squeeze : Bool → List String → List String
  | _, [] => []
  | afterText, l :: ls =>
    if l.isEmpty && !afterText then squeeze false ls else l :: squeeze (!l.isEmpty) ls

def text (g : CommentGroup) : String :=
  let lines := squeeze false (g.comments.flatMap fun (_, t) => (linesOf t).map trimLine)
  match lines.getLast? with
  | none => ""
  | some l => "\n".intercalate (if l.isEmpty then lines else lines ++ [""])

end CommentGroup

/-- An import. Comments are told by the ids of their groups. -/
structure ImportEntry where
  name : Option (Nat × String) := none
  pathAt : Nat
  path : String
  /-- Where it ends, if that is not the end of the literal. -/
  stop? : Option Nat := none
  lead : Option Nat := none
  tail : Option Nat := none
deriving Inhabited

namespace ImportEntry

def start (e : ImportEntry) : Nat := (e.name.map (·.1)).getD e.pathAt

def stop (e : ImportEntry) : Nat := e.stop?.getD (e.pathAt + e.path.utf8ByteSize)

def value (e : ImportEntry) : Text := stringValue e.path

def localName (e : ImportEntry) : String := (e.name.map (·.2)).getD ""

def same (a b : ImportEntry) : Bool := a.value == b.value && a.localName == b.localName

def moveTo (e : ImportEntry) (start stop : Nat) : ImportEntry :=
  { e with name := e.name.map fun (_, n) => (start, n), pathAt := start, stop? := some stop }

end ImportEntry

structure ImportBlock where
  documented : Bool := false
  start : Nat
  lparen : Option Nat := none
  entries : List ImportEntry := []
  rparen : Option Nat := none
deriving Inhabited

def ImportBlock.stop (b : ImportBlock) : Nat :=
  match b.rparen, b.entries with
  | some p, _ => p + 1
  | none, e :: _ => e.stop
  | none, [] => b.start

structure ImportSection where
  lines : Lines
  package : Nat
  blocks : List ImportBlock
  comments : List CommentGroup
deriving Inhabited

namespace ImportSection

def offset? (p : Pos) : Option Nat := if p.isSome then some p.offset else none

def groupId (cs : List Comment) : Option Nat := cs.head?.map (·.pos.offset)

def entryOf : Spec → Option ImportEntry
  | .imported n (.literal span _ text) stop lead tail =>
    some
      { name := n.map fun n => (n.span.start.offset, n.text)
        pathAt := span.start.offset
        path := text
        stop? := offset? stop
        lead := groupId lead
        tail := groupId tail }
  | _ => none

def blockOf : Decl → Option ImportBlock
  | .group (.mk documented span "import" lparen specs rparen) =>
    some
      { documented
        start := span.start.offset
        lparen := offset? lparen
        entries := specs.filterMap entryOf
        rparen := offset? rparen }
  | _ => none

def ofFile (lines : Lines) (f : File) : ImportSection where
  lines := lines
  package := f.pos.offset
  blocks := f.decls.filterMap blockOf
  comments := f.comments.map .ofComments

def group? (s : ImportSection) (id : Option Nat) : Option CommentGroup :=
  id.bind fun id => s.comments.find? (·.id == id)

def tailText (s : ImportSection) (e : ImportEntry) : String :=
  ((s.group? e.tail).map CommentGroup.text).getD ""

/-! Back to a file. -/

def placeOf (l : Lines) (p : Option Nat) : Pos := (p.map l.place).getD Pos.none

def specOf (l : Lines) (e : ImportEntry) : Spec :=
  let pathSpan : Span := ⟨l.place e.pathAt, l.place (e.pathAt + e.path.utf8ByteSize)⟩
  .imported (e.name.map fun (p, n) => ⟨⟨l.place p, l.place (p + n.utf8ByteSize)⟩, n⟩)
    (.literal pathSpan .string e.path) (placeOf l e.stop?) [] []

def declOf (l : Lines) (b : ImportBlock) : Decl :=
  .group (.mk b.documented ⟨l.place b.start, l.place b.stop⟩ "import" (placeOf l b.lparen)
    (b.entries.map (specOf l)) (placeOf l b.rparen))

def commentsOf (l : Lines) (g : CommentGroup) : List Comment :=
  g.comments.map fun (p, t) => l.comment p t

def toFile (s : ImportSection) (f : File) : File :=
  { f with
    decls := s.blocks.map (declOf s.lines) ++ f.decls.filter fun d => (blockOf d).isNone
    comments := s.comments.map (commentsOf s.lines) }

end ImportSection

end ReactiveModel.Source
