import ReactiveModel.Source.ImportSection

/-! Adding imports to a file and removing them from it. -/

namespace ReactiveModel.Source

namespace ImportSection

/-- Prepares the removal of the last but one import `e`, which leaves another one alone. The
comments of `e` go with it, of which the ids are answered, and those of the other one move up to the
start of the declaration. -/
def detach (s : ImportSection) (b : ImportBlock) (e : ImportEntry) (alone : ImportEntry) :
    ImportSection × List Nat :=
  let onLineOf (e : ImportEntry) : Option CommentGroup := s.comments.find? fun g =>
    g.stop < e.start && s.lines.numberAt g.stop == s.lines.numberAt e.start
  let gone := e.lead.toList ++ e.tail.toList ++ ((onLineOf e).map (·.id)).toList
  let lines := match s.group? alone.lead with
    | some g => raise s.lines.count s.lines b.start g.start
    | none => s.lines
  let onLine := s.comments.any fun g =>
    g.stop < alone.start && lines.numberAt g.stop == lines.numberAt alone.start
  let lines := if onLine then raise lines.count lines b.start alone.start else lines
  ({ s with lines }, gone)
where
  /-- Joins the line of a place with those below it until another place is on the next line. -/
  raise : Nat → Lines → Nat → Nat → Lines
    | 0, lines, _, _ => lines
    | fuel + 1, lines, a, p =>
      if lines.numberAt a + 1 < lines.numberAt p then
        raise fuel (lines.join (lines.numberAt a).toNat) a p
      else lines

def closeGap (lines : Lines) (b : ImportBlock) (last e : ImportEntry) : Lines :=
  let line := lines.lineAt e.pathAt
  if line - lines.lineAt last.pathAt > 1 || b.rparen.isNone || line == lines.count then lines
  else lines.join line

/-- Removes imports from a declaration, of which `front` are those that stay; answers also the ids
of comments that go. -/
def removeFrom (unwanted : ImportEntry → Bool) (b : ImportBlock) :
    ImportSection → List ImportEntry → List ImportEntry →
    ImportSection × List ImportEntry × List Nat
  | s, front, [] => (s, front, [])
  | s, front, e :: es =>
    if unwanted e then
      match front ++ es with
      | [] => (s, [], [])
      | others =>
        let (s, gone) := match others with
          | [alone] => s.detach b e alone
          | _ => (s, [])
        let lines := match front.getLast? with
          | some last => closeGap s.lines b last e
          | none => s.lines
        let (s, kept, more) := removeFrom unwanted b { s with lines } front es
        (s, kept, gone ++ more)
    else removeFrom unwanted b s (front ++ [e]) es

def removeFromBlocks (unwanted : ImportEntry → Bool) :
    ImportSection → List ImportBlock → ImportSection × List ImportBlock × List Nat
  | s, [] => (s, [], [])
  | s, b :: bs =>
    let (s, entries, gone) := removeFrom unwanted b s [] b.entries
    let (s, bs, more) := removeFromBlocks unwanted s bs
    (s, if entries.isEmpty && !b.entries.isEmpty then bs else { b with entries } :: bs,
      gone ++ more)

def remove (s : ImportSection) (name : String) (path : Text) : ImportSection :=
  let unwanted (e : ImportEntry) : Bool := e.localName == name && e.value == path
  let (s, blocks, gone) := s.removeFromBlocks unwanted s.blocks
  { s with blocks, comments := s.comments.filter fun g => !gone.contains g.id }

/-- The declaration of foreign code stands for itself. -/
def isForeign (b : ImportBlock) : Bool := b.entries.any (·.value == "C")

def merge (s : ImportSection) : ImportSection :=
  let others := (s.blocks.filter (!isForeign ·)).drop 1
  if others.isEmpty then s
  else
    let moved (b : ImportBlock) : List ImportEntry :=
      (others.flatMap (·.entries)).map fun e => { e with pathAt := b.start }
    { s with blocks := go moved s.blocks }
where
  go (moved : ImportBlock → List ImportEntry) : List ImportBlock → List ImportBlock
    | [] => []
    | b :: bs =>
      if isForeign b then b :: go moved bs
      else { b with lparen := some b.start, entries := b.entries ++ moved b } ::
        bs.filter isForeign

def sharedElements : List UInt8 → List UInt8 → Nat
  | a :: as, b :: bs =>
    if a == b then sharedElements as bs + (if a == '/'.toUInt8 then 1 else 0) else 0
  | _, _ => 0

def isDomainPath (path : Text) : Bool := path.bytes.contains '.'.toUInt8

/-- The best place for a path so far: a declaration and an import in it by their numbers, and how
many elements are shared. -/
structure Neighbour where
  block : Nat
  entry : Option Nat
  shared : Option Nat

def betterIn (path : Text) (block : Nat) : Nat → Bool → List ImportEntry → Option Neighbour →
    Option Neighbour
  | _, _, [], best => best
  | i, seenDomain, e :: es, best =>
    let n := sharedElements e.value.bytes path.bytes
    let shared := best.bind (·.shared)
    let better := shared.all (· < n) || (shared == some 0 && !seenDomain && isDomainPath path)
    betterIn path block (i + 1) (seenDomain || isDomainPath e.value) es
      (if better then some ⟨block, some i, some n⟩ else best)

/-- The import with the longest shared path; of declarations without imports the last one. -/
def neighbour? (path : Text) : Nat → List ImportBlock → Option Neighbour → Option Neighbour
  | _, [], best => best
  | i, b :: bs, best =>
    if isForeign b then neighbour? path (i + 1) bs best
    else if b.entries.isEmpty then
      neighbour? path (i + 1) bs
        (if (best.bind (·.shared)).isNone then some ⟨i, none, none⟩ else best)
    else neighbour? path (i + 1) bs (betterIn path i 0 false b.entries best)

/-- Where a first declaration goes: behind the last comment up to the line of the package
clause. -/
def firstPlace (s : ImportSection) : Nat :=
  let line := s.lines.numberAt s.package
  match (s.comments.takeWhile fun g => s.lines.numberAt g.start ≤ line).getLast? with
  | some g => g.stop + 2
  | none => s.package

def insertAt (s : ImportSection) (name : Option String) (path : Text) (n : Nat)
    (b : ImportBlock) : ImportBlock :=
  let (front, behind) := b.entries.splitAt n
  let at_ := match front.getLast? with
    | some e => ((s.group? e.tail).map CommentGroup.stop).getD e.start
    | none => b.start
  let new : ImportEntry :=
    { name := name.map fun n => (at_, n)
      pathAt := at_
      path := path.quoted
      stop? := some at_ }
  let entries := front ++ new :: behind
  { b with
    entries
    lparen :=
      match entries with
      | [_] => none
      | e :: _ => some (b.lparen.getD e.start)
      | [] => b.lparen }

/-- Adds an import, next to one with a similar path if possible. -/
def add (s : ImportSection) (name : Option String) (path : Text) : ImportSection :=
  if s.blocks.any (·.entries.any fun e => e.localName == name.getD "" && e.value == path) then s
  else
    let blocks := match neighbour? path 0 s.blocks none with
      | some p =>
        s.blocks.modify p.block (s.insertAt name path ((p.entry.map (· + 1)).getD 0))
      | none =>
        let start := (s.blocks.getLast?.map ImportBlock.stop).getD s.firstPlace
        s.blocks ++ [s.insertAt name path 0 { start }]
    merge { s with blocks }

end ImportSection

end ReactiveModel.Source
