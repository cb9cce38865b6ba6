import ReactiveModel.Source.ImportSection

/-! The order of imports. They are sorted within their paragraphs; optionally the paragraphs of a
declaration are made anew, one for each kind of path. Places in the text are handed out to sorted
imports in their order, and comments go with their imports. -/

namespace ReactiveModel.Source

namespace ImportSection

/-- The kinds of paths that stand together: the standard library and its like, paths that start
with a domain, and one platform. -/
def pathKind (path : Text) : Nat :=
  if path.startsWith "appengine" then 2
  else if (path.bytes.takeWhile (· != '/'.toUInt8)).contains '.'.toUInt8 then 1
  else 0

def before (s : ImportSection) (a b : ImportEntry) : Bool :=
  if a.value != b.value then a.value < b.value
  else if a.localName != b.localName then a.localName < b.localName
  else s.tailText a < s.tailText b

def kindBefore (s : ImportSection) (a b : ImportEntry) : Bool :=
  if pathKind a.value != pathKind b.value then pathKind a.value < pathKind b.value
  else s.before a b

def sortBy (before : ImportEntry → ImportEntry → Bool) (es : List ImportEntry) :
    List (Nat × ImportEntry) :=
  (es.zipIdx.map (·.swap)).mergeSort fun a b => !before b.2 a.2

/-- Leaves out an import where the next one is the same, unless it has a comment of its own; its
line is joined with the next one. -/
def dedupe (lineOf : Lines → Nat → Int) : Lines → List (Nat × ImportEntry) →
    Lines × List (Nat × ImportEntry)
  | lines, a :: b :: es =>
    if a.2.same b.2 && a.2.tail.isNone then
      dedupe lineOf (lines.join (lineOf lines a.2.start).toNat) (b :: es)
    else
      let (lines, es) := dedupe lineOf lines (b :: es)
      (lines, a :: es)
  | lines, es => (lines, es)

/-- The last of some places that is not behind another, from the `i`-th one on. -/
def advance (starts : List Nat) (p : Nat) : Nat → Nat → Nat
  | 0, i => i
  | fuel + 1, i => if (starts[i + 1]?).any (· ≤ p) then advance starts p fuel (i + 1) else i

/-- Splits the imports of a declaration where one is `far` from the one before, and sorts the parts.
The current part is given in reverse. -/
def sortParts (far : Lines → ImportEntry → ImportEntry → Bool)
    (sort : ImportSection → List ImportEntry → ImportSection × List ImportEntry) :
    ImportSection → List ImportEntry → List ImportEntry → ImportSection × List ImportEntry
  | s, part, [] => sort s part.reverse
  | s, part, e :: es =>
    match part with
    | last :: _ =>
      if far s.lines last e then
        let (s, sorted) := sort s part.reverse
        let (s, rest) := sortParts far sort s [e] es
        (s, sorted ++ rest)
      else sortParts far sort s (e :: part) es
    | [] => sortParts far sort s [e] es

/-! Imports in their paragraphs. -/

/-- Which import each comment belongs to, and whether it stands on its left. -/
def owners (lines : Lines) (starts : List Nat) : Nat → List CommentGroup → List (Nat × Bool)
  | _, [] => []
  | i, g :: gs =>
    let i := advance starts g.start starts.length i
    let at_ := (starts[i]?).getD 0
    if i == 0 && g.start < at_ then (i, true) :: owners lines starts i gs
    else if i + 1 < starts.length && lines.lineAt at_ + 1 == lines.lineAt g.start then
      (i + 1, true) :: owners lines starts (i + 1) gs
    else (i, false) :: owners lines starts i gs

/-- The groups between two places: those in front, those between, and the others. -/
def splitComments (start stop : Nat) (gs : List CommentGroup) :
    List CommentGroup × List CommentGroup × List CommentGroup :=
  let near := gs.takeWhile (·.stop < stop)
  let first := (near.takeWhile (·.start < start)).length
  let last := near.length - (near.reverse.takeWhile (·.start < start)).length
  if first < last then (gs.take first, (gs.take last).drop first, gs.drop last) else (gs, [], [])

def sortComments (gs : List CommentGroup) : List CommentGroup :=
  gs.mergeSort fun a b => a.start ≤ b.start

def sortParagraph (s : ImportSection) (entries : List ImportEntry) :
    ImportSection × List ImportEntry :=
  match entries, entries.getLast? with
  | first :: _ :: _, some final =>
    let spans := entries.map fun e => (e.start, e.stop)
    let start := s.lines.startOf (s.lines.lineAt first.start)
    let endLine := s.lines.lineAt final.stop
    let stop := if endLine == s.lines.count then final.stop else s.lines.startOf (endLine + 1)
    let (front, mine, others) := splitComments start stop s.comments
    let owned := mine.zip (owners s.lines (spans.map (·.1)) 0 mine)
    let (lines, kept) := dedupe (fun l p => l.lineAt p) s.lines (sortBy s.before entries)
    let placed := kept.zip spans
    let mine := owned.map fun (g, i, left) =>
      match placed.find? (·.1.1 == i) with
      | some (_, a, b) => g.moveTo (if left then a - 1 else b)
      | none => g
    ({ s with lines, comments := front ++ sortComments mine ++ others },
      placed.map fun ((_, e), a, b) => e.moveTo a b)
  | _, _ => (s, entries)

def close (lines : Lines) (a b : Nat) : Lines :=
  let first := lines.lineAt a + 1
  (List.range' first (lines.lineAt b - first)).foldr (fun n l => l.join n) lines

/-- Sorts the imports of a declaration in parentheses, part by part, and then closes up the
last one and the parenthesis. -/
def sortBlockBy (lineOf : Lines → Nat → Int)
    (sort : ImportSection → List ImportEntry → ImportSection × List ImportEntry)
    (close : Lines → Nat → Nat → Lines) (s : ImportSection) (b : ImportBlock) :
    ImportSection × ImportBlock :=
  if b.lparen.isNone then (s, b)
  else
    let far (l : Lines) (a b : ImportEntry) : Bool := lineOf l a.stop + 1 < lineOf l b.start
    let (s, entries) := sortParts far sort s [] b.entries
    let lines := match entries.getLast?, b.rparen with
      | some e, some p => close s.lines e.start p
      | _, _ => s.lines
    ({ s with lines }, { b with entries })

def sortBlock : ImportSection → ImportBlock → ImportSection × ImportBlock :=
  sortBlockBy (fun l p => l.lineAt p) sortParagraph close

def sortBlocks : ImportSection → List ImportBlock → ImportSection × List ImportBlock
  | s, [] => (s, [])
  | s, b :: bs =>
    let (s, b) := s.sortBlock b
    let (s, bs) := sortBlocks s bs
    (s, b :: bs)

def sort (s : ImportSection) : ImportSection :=
  let (s, blocks) := s.sortBlocks s.blocks
  { s with blocks }

/-! Imports by kind. Here lines are those that places count as. -/

def lineUp (owned : List (CommentGroup × Nat)) : Nat × Nat → List (Nat × ImportEntry) →
    List ImportEntry × List CommentGroup
  | _, [] => ([], [])
  | (start, stop), (i, e) :: es =>
    let mine := (owned.filter (·.2 == i)).map (·.1)
    let next := match (mine.flatMap (·.comments)).getLast? with
      | some (_, text) => stop + text.utf8ByteSize
      | none => stop
    let (rest, comments) := lineUp owned (next, next) es
    (e.moveTo start stop :: rest, mine.map (·.moveTo stop) ++ comments)

/-- Joins the line of a place with those above it, down to a line `first`. -/
def pullUp (first : Int) (lines : Lines) (p : Nat) : Lines :=
  go (lines.numberAt p - first).toNat lines (lines.numberAt p - 1)
where
  go : Nat → Lines → Int → Lines
    | 0, lines, _ => lines
    | n + 1, lines, line =>
      if 0 < line && line < lines.count then go n (lines.join line.toNat) (line - 1) else lines

def sortKinds (s : ImportSection) (entries : List ImportEntry) :
    ImportSection × List ImportEntry :=
  match entries, entries.getLast? with
  | first :: _ :: _, some final =>
    let lastLine := s.lines.numberAt final.stop
    let front := s.comments.takeWhile (·.start < first.start)
    let behind := s.comments.drop front.length
    let mine := behind.takeWhile fun g =>
      g.start < first.start || s.lines.numberAt g.stop ≤ lastLine
    let others := behind.drop mine.length
    let starts := entries.map ImportEntry.start
    let owned := mine.zip (inFront starts 0 mine)
    let (lines, kept) := dedupe Lines.numberAt s.lines (sortBy s.kindBefore entries)
    let (entries, moved) := lineUp owned (first.start, first.stop) kept
    let moved := mine.map fun g => (moved.find? (·.id == g.id)).getD g
    let lines := match entries with
      | [] => lines
      | e :: es => (es.map ImportEntry.start).foldl (pullUp (lines.numberAt e.start)) lines
    ({ s with lines, comments := front ++ sortComments moved ++ others }, entries)
  | _, _ => (s, entries)
where
  /-- Each comment belongs to the import in front of it. -/
  inFront (starts : List Nat) : Nat → List CommentGroup → List Nat
    | _, [] => []
    | i, g :: gs =>
      let i := advance starts g.start starts.length i
      i :: inFront starts i gs

def sortBlockKinds : ImportSection → ImportBlock → ImportSection × ImportBlock :=
  sortBlockBy Lines.numberAt sortKinds fun lines a b =>
    let line := lines.lineAt b
    if lines.lineAt a + 1 < line then lines.join (line - 1) else lines

/-- Declarations that import nothing are left out; what follows one stays as it is. -/
def sortBlocksKinds : ImportSection → List ImportBlock → ImportSection × List ImportBlock
  | s, [] => (s, [])
  | s, b :: bs =>
    if b.entries.isEmpty then
      match bs with
      | [] => (s, [])
      | c :: cs =>
        let (s, cs) := sortBlocksKinds s cs
        (s, c :: cs)
    else
      let (s, b) := s.sortBlockKinds b
      let (s, bs) := sortBlocksKinds s bs
      (s, b :: bs)

def sortByKind (s : ImportSection) : ImportSection :=
  let (s, blocks) := s.sortBlocksKinds s.blocks
  { s with blocks }

/-- The paths in front of which a new kind starts on the next line. -/
def kindStarts (lines : Lines) : List ImportEntry → List Text
  | a :: b :: es =>
    let rest := kindStarts lines (b :: es)
    if 1 < lines.numberAt b.pathAt - lines.numberAt a.pathAt then rest
    else if pathKind a.value != pathKind b.value then b.value :: rest
    else rest
  | _ => []

def paragraphStarts (s : ImportSection) : List Text :=
  s.blocks.flatMap fun b => kindStarts s.lines b.entries

end ImportSection

end ReactiveModel.Source
