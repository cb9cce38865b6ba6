import ReactiveModel.Source.DocComment
import ReactiveModel.Source.Piece
import Std.Data.HashMap

/-! The state of laying out a tree. White space is held back until the next token is known, so
that comments that stand before the token can be placed among it. -/

namespace ReactiveModel.Source

inductive Space | ignore | blank | cell | newline | formfeed | indent | unindent
deriving DecidableEq, Inhabited

structure Layout where
  pieces : Array Piece := #[]
  indent : Nat := 0
  /-- Indentation of the whole, which may be less than none. -/
  base : Int := 0
  level : Nat := 0
  verbatim : Bool := false
  measuring : Bool := false
  /-- Sizes of parts of the tree that are known, by where the part starts and ends and by the
  largest size of interest. -/
  sizes : Std.HashMap (Nat × Nat × Nat) Nat := ∅
  /-- Modes in which a comment gets no extra blank or line break after it. -/
  noBlank : Bool := false
  noBreak : Bool := false
  endAlignment : Bool := false
  endsStatement : Bool := false
  lastToken : Option Kind := none
  lastOpen : Option Kind := none
  held : Array Space := #[]
  pos : Pos := Pos.first
  line : Nat := 1
  column : Nat := 1
  last : Pos := Pos.none
  wanted : Option Nat := none
  marks : Array Nat := #[]
  comments : Array (List Comment) := #[]
  nextComment : Nat := 0
  comment : List Comment := []
  commentOffset : Nat := 1073741824
  commentBreaks : Bool := false
  goBuild : Array Nat := #[]
  plusBuild : Array Nat := #[]

abbrev Lay := StateM Layout

namespace Lay

def infinity : Nat := 1073741824

def limit (n : Nat) : Nat := min n 2

def isLineComment (c : Comment) : Bool := c.text.startsWith "//"

def breaksLine (group : List Comment) : Bool :=
  match group with
  | [] => false
  | c :: cs => cs.any (·.pos.line != c.pos.line) || group.any fun x =>
      isLineComment x || x.text.toList.contains '\n'

def fetchComment : Lay Unit :=
  modify fun s =>
    match s.comments[s.nextComment]? with
    | some (c :: cs) =>
      { s with
        nextComment := s.nextComment + 1
        comment := c :: cs
        commentOffset := c.pos.offset
        commentBreaks := breaksLine (c :: cs) }
    | _ => { s with nextComment := s.nextComment + 1, comment := [], commentOffset := infinity }

def commentBefore (next : Pos) : Lay Bool := do
  let s ← get
  return s.commentOffset < next.offset && (!s.endsStatement || !s.commentBreaks)

def pushIndent (s : Layout) : Layout :=
  let n := (s.base + s.indent).toNat
  { s with
    pieces := (List.replicate n Piece.tab).foldl Array.push s.pieces
    pos := ⟨s.pos.offset + n, s.pos.line, s.pos.column + n⟩
    column := s.column + n }

/-- Writes white space `n` times. Once alignment has ended, cells become blanks and the next line
break ends the table. -/
def writeSpace (p : Piece) (n : Nat) : Lay Unit :=
  modify fun s =>
    let (p, s) := if s.endAlignment then
        match p with
        | .tab | .cell => (Piece.blank, s)
        | .newline | .formfeed => (.formfeed, { s with endAlignment := false })
        | p => (p, s)
      else (p, s)
    let s := if s.column == 1 then pushIndent s else s
    let s := { s with pieces := (List.replicate n p).foldl Array.push s.pieces }
    let offset := s.pos.offset + n
    if p.isBreak then
      { s with pos := ⟨offset, s.pos.line + n, 1⟩, line := s.line + n, column := 1 }
    else { s with pos := ⟨offset, s.pos.line, s.pos.column + n⟩, column := s.column + n }

def isBreakChar (c : Char) : Bool := c == '\n' || c == '\x0c'

def writeWord (at_ : Pos) (w : String) : Lay Unit :=
  modify fun s =>
    let s := if s.column == 1 then pushIndent s else s
    let s := if at_.isSome then { s with pos := at_ } else s
    let cs := w.toList
    let breaks := (cs.filter isBreakChar).length
    let size := w.utf8ByteSize
    let s := { s with pieces := s.pieces.push (.word w) }
    let s :=
      if 0 < breaks then
        let tail := (String.ofList (cs.reverse.takeWhile (!isBreakChar ·))).utf8ByteSize + 1
        { s with
          endAlignment := true
          pos := ⟨s.pos.offset + size, s.pos.line + breaks, tail⟩
          line := s.line + breaks
          column := tail }
      else
        { s with
          pos := ⟨s.pos.offset + size, s.pos.line, s.pos.column + size⟩
          column := s.column + size }
    { s with last := s.pos }

def Space.piece : Space → Piece
  | .blank => .blank
  | .cell => .cell
  | .newline => .newline
  | _ => .formfeed

/-- Writes held white space. A line break in front of a lone unindent comes after it, so that
labels stand at the right depth. -/
def writeHeld : Nat → List Space → Lay Unit
  | 0, _ => return
  | _, [] => return
  | fuel + 1, .ignore :: r => writeHeld fuel r
  | fuel + 1, .indent :: r => do
    modify fun s => { s with indent := s.indent + 1 }
    writeHeld fuel r
  | fuel + 1, .unindent :: r => do
    modify fun s => { s with indent := s.indent - 1 }
    writeHeld fuel r
  | fuel + 1, .newline :: .unindent :: r | fuel + 1, .formfeed :: .unindent :: r => do
    modify fun s => { s with indent := s.indent - 1 }
    writeHeld fuel (.formfeed :: r)
  | fuel + 1, w :: r => do
    writeSpace (Space.piece w) 1
    writeHeld fuel r

def release (n : Nat) : Lay Unit := do
  let held := (← get).held.toList
  modify fun s => { s with held := (held.drop n).toArray }
  writeHeld (n + 1) (held.take n)

/-- Before a comment on the line of the last token: blanks are dropped, cells kept. Answers how
many spaces to write, and whether they separate the comment. -/
def sameLineSpaces : List Space → Nat → List Space × Nat × Bool
  | [], _ => ([], 0, false)
  | .blank :: r, i => let (l, j, b) := sameLineSpaces r (i + 1); (.ignore :: l, j, b)
  | .cell :: r, i => let (l, j, _) := sameLineSpaces r (i + 1); (.cell :: l, j, true)
  | .indent :: r, i => let (l, j, b) := sameLineSpaces r (i + 1); (.indent :: l, j, b)
  | w :: r, i => (w :: r, i, false)

/-- Before a comment on a line of its own: horizontal space and one line break are dropped. -/
def ownLineSpaces (aligned : Bool) : List Space → Nat → List Space × Nat × Bool
  | [], _ => ([], 0, false)
  | .blank :: r, i | .cell :: r, i =>
    let (l, j, b) := ownLineSpaces aligned r (i + 1); (.ignore :: l, j, b)
  | .indent :: r, i => let (l, j, b) := ownLineSpaces aligned r (i + 1); (.indent :: l, j, b)
  | .unindent :: r, i =>
    if r.head? == some .unindent || aligned then
      let (l, j, b) := ownLineSpaces aligned r (i + 1); (.unindent :: l, j, b)
    else (.unindent :: r, i, false)
  | .newline :: r, i | .formfeed :: r, i => (.ignore :: r, i, true)
  | .ignore :: r, i => (.ignore :: r, i, false)

/-- White space in front of a comment at `at_`, where `next` is the place of the next token and
`before` the comment in front. -/
def writeCommentFront (at_ next : Pos) (before : Option Comment) (token : Option Kind) :
    Lay Unit := do
  let s ← get
  if s.pieces.isEmpty then return
  let afterLine := before.any isLineComment
  if at_.line == s.last.line && !afterLine then
    let mut separated := false
    if before.isNone then
      let (held, j, sep) := sameLineSpaces s.held.toList 0
      modify fun s => { s with held := held.toArray }
      release j
      separated := sep
    if !separated then
      writeSpace (if at_.line == next.line then .blank else .tab) 1
  else
    let aligned := token != some (.operator "\x7d") && at_.column == next.column
    let (held, j, broke) := ownLineSpaces aligned s.held.toList 0
    modify fun s => { s with held := held.toArray }
    release j
    let s ← get
    let n := if s.last.isSome then at_.line - s.last.line else 0
    let n := if s.indent == 0 && broke && before.isNone then n + 1 else n
    let n := if n == 0 && afterLine then 1 else n
    if 0 < n then writeSpace .formfeed (limit n)

/-! General comments are written line by line; a common indentation is removed. -/

def isBlankText (cs : List Char) : Bool := cs.all (·.toNat ≤ 32)

def commonMargin : List Char → List Char → List Char
  | a :: as, b :: bs =>
    if a == b && (a.toNat ≤ 32 || a == '*') then a :: commonMargin as bs else []
  | _, _ => []

def dropSuffix (suffix cs : List Char) : List Char :=
  if suffix.isSuffixOf cs then cs.take (cs.length - suffix.length) else cs

/-- Number of blanks, at most three, or else one tab, at the end of a margin. -/
def trimMargin (margin : List Char) : List Char :=
  let r := margin.reverse
  let blanks := min 3 (r.takeWhile (· == ' ')).length
  if 0 < blanks then (r.drop blanks).reverse
  else match r with
    | '\t' :: r => r.reverse
    | r => r.reverse

def splitAtStars (cs : List Char) : List Char := cs.takeWhile (· != '*')

def stripMargin (lines : List (List Char)) : List (List Char) :=
  match lines with
  | first :: rest =>
    match rest.getLast? with
    | none => lines
    | some last =>
      let inner := rest.dropLast.map fun l => if isBlankText l then [] else l
      let texts := inner.filter (!·.isEmpty)
      let margin := match texts with
        | l :: ls => ls.foldl commonMargin (commonMargin l l)
        | [] => commonMargin last last
      let stars := margin.contains '*'
      let margin :=
        if stars then dropSuffix [' '] (splitAtStars margin)
        else if isBlankText (first.drop 2) then trimMargin margin
        else
          let lead := (first.drop 2).takeWhile (·.toNat ≤ 32)
          let suffix := if lead.head? == some '\t' then lead else ' ' :: ' ' :: lead
          dropSuffix suffix margin
      let head := beforeClose last
      let (last, margin) :=
        if isBlankText head then
          (margin ++ (if stars then " */".toList else "*/".toList), margin)
        else (last, commonMargin margin last)
      first :: (inner ++ [last]).map fun l => if l.isEmpty then l else l.drop margin.length
  | [] => []
where
  beforeClose : List Char → List Char
    | '*' :: '/' :: _ => []
    | c :: cs => c :: beforeClose cs
    | [] => []

def writeCommentLines (at_ : Pos) : List (List Char) → Bool → Lay Unit
  | [], _ => return
  | l :: ls, first => do
    if !first then writeSpace .formfeed 1
    let p ← if first then pure at_ else pure (← get).pos
    if !l.isEmpty then writeWord p (Text.trimStringEnd (String.ofList l))
    writeCommentLines at_ ls false

def isGoBuild (text : String) : Bool :=
  text.startsWith "//go:build" &&
    match (dropFront 10 (Text.trimStringEnd text)).toList with
    | [] => true
    | c :: _ => Text.isSpace c

def isPlusBuild (text : String) : Bool :=
  text.startsWith "//" &&
    let body := Text.trimString (dropFront 2 text)
    body.startsWith "+build" &&
      match (dropFront 6 body).toList with
      | [] => true
      | c :: _ => Text.isSpace c

def writeComment (c : Comment) : Lay Unit := do
  if isLineComment c then
    let size := (← get).pieces.size
    if isGoBuild c.text then modify fun s => { s with goBuild := s.goBuild.push size }
    else if isPlusBuild c.text then modify fun s => { s with plusBuild := s.plusBuild.push size }
    if c.text.startsWith "//line " && c.pos.column == 1 then
      let depth := (← get).indent
      modify fun s => { s with indent := 0 }
      writeWord c.pos (Text.trimStringEnd c.text)
      modify fun s => { s with indent := depth }
    else writeWord c.pos (Text.trimStringEnd c.text)
  else
    let lines := (c.text.splitOn "\n").map String.toList
    let depth := (← get).indent
    let lines := match lines with
      | first :: rest =>
        if c.pos.column == 1 && 0 < depth then
          first :: rest.map fun l => ' ' :: ' ' :: ' ' :: l
        else lines
      | [] => []
    writeCommentLines c.pos (stripMargin lines) true

/-- White space after comments: at most one line break is kept when one is needed, all are
dropped otherwise. Answers the spaces, whether a break was kept, and whether a section break was
dropped. -/
def afterCommentSpaces : List Space → Bool → List Space × Bool × Bool × Bool
  | [], need => ([], need, false, false)
  | .blank :: r, need | .cell :: r, need =>
    let (l, n, w, d) := afterCommentSpaces r need; (.ignore :: l, n, w, d)
  | .newline :: r, need =>
    let (l, n, w, d) := afterCommentSpaces r false
    if need then (.newline :: l, n, true, d) else (.ignore :: l, n, w, d)
  | .formfeed :: r, need =>
    let (l, n, w, d) := afterCommentSpaces r false
    if need then (.formfeed :: l, n, true, d) else (.ignore :: l, n, w, true)
  | x :: r, need => let (l, n, w, d) := afterCommentSpaces r need; (x :: l, n, w, d)

def writeCommentBack (need : Bool) : Lay (Bool × Bool) := do
  let (held, need, wrote, dropped) := afterCommentSpaces (← get).held.toList need
  modify fun s => { s with held := held.toArray }
  release held.length
  if need then
    writeSpace .newline 1
    return (true, dropped)
  else return (wrote, dropped)

def isDocOf (group : List Comment) (next : Pos) : Bool :=
  (group.head?.any (·.pos.column == 1)) && group.getLast?.any (·.beyond == next)

def writeGroup (next : Pos) (token : Option Kind) : List Comment → Option Comment →
    Lay (Option Comment)
  | [], before => return before
  | c :: cs, before => do
    writeCommentFront c.pos next before token
    writeComment c
    writeGroup next token cs (some c)

/-- Writes all comments before the next token; answers the last of them, or what to report when a
comment vanished and with it the need to go on. -/
def writeComments (next : Pos) (token : Option Kind) : Nat → Option Comment →
    Lay (Option Comment × Option (Bool × Bool))
  | 0, before => return (before, none)
  | fuel + 1, before => do
    if ← commentBefore next then
      let s ← get
      let group := s.comment
      if s.lastToken != some (.keyword "import") && isDocOf group next then
        let shown := canonicalDoc group
        if shown.isEmpty then
          match group with
          | c :: _ => writeCommentFront c.pos next before token
          | [] => pure ()
          modify fun s => { s with pos := next, last := next }
          fetchComment
          return (before, some (← writeCommentBack false))
        else
          let _ ← writeGroup next token shown before
          match group.getLast? with
          | some l =>
            modify fun s => { s with pos := l.stop, last := l.stop }
            fetchComment
            writeComments next token fuel (some l)
          | none => return (before, none)
      else
        let l ← writeGroup next token group before
        fetchComment
        writeComments next token fuel l
    else return (before, none)

/-- Writes pending comments and white space before the next token. Answers whether a line break
was written after a comment and whether a section break was dropped. -/
def flush (next : Pos) (token : Option Kind) : Lay (Bool × Bool) := do
  if ← commentBefore next then
    let (last, early) ← writeComments next token ((← get).comments.size + 1) none
    match early, last with
    | some r, _ => return r
    | none, none => return (false, false)
    | none, some l =>
      let s ← get
      let sameLine := !s.noBlank && !isLineComment l && l.pos.line == next.line &&
        token != some (.operator ",") &&
        (token != some (.operator ")") || s.lastOpen == some (.operator "(")) &&
        (token != some (.operator "]") || s.lastOpen == some (.operator "["))
      let pendingBreak := s.held.any fun w => w == .newline || w == .formfeed
      let mut need := false
      if sameLine then
        if pendingBreak && !s.noBreak && s.level == 0 then need := true
        else writeSpace .blank 1
      if isLineComment l || token == some .eof ||
          (token == some (.operator "\x7d") && !s.noBreak) then need := true
      writeCommentBack need
  else
    release (← get).held.size
    return (false, false)

def noteOpen : Lay Unit :=
  modify fun s =>
    match s.lastToken with
    | none => s
    | some (.operator "(") | some (.operator "[") => { s with lastOpen := s.lastToken }
    | some _ => { s with lastOpen := none }

def space (w : Space) : Lay Unit := do
  noteOpen
  if w == .ignore then return
  if 16 ≤ (← get).held.size then release (← get).held.size
  modify fun s =>
    { s with
      held := s.held.push w
      endsStatement := s.endsStatement && !(w == .newline || w == .formfeed)
      lastToken := none }

def blank : Lay Unit := space .blank

def setPos (p : Pos) : Lay Unit :=
  if p.isSome then modify fun s => { s with pos := p } else return

def emit (text : String) (kind : Kind) (ends : Bool) : Lay Unit := do
  modify fun s => { s with lastToken := some kind }
  let next := (← get).pos
  let (wrote, dropped) ← flush next (some kind)
  let s ← get
  let mut ends := ends
  if !s.endsStatement then
    let n := limit (next.line - s.pos.line)
    let n := if wrote && n == 2 then 1 else n
    if 0 < n then
      writeSpace (if dropped then .formfeed else .newline) n
      ends := false
  modify fun s =>
    match s.wanted with
    | some i => { s with marks := s.marks.setIfInBounds i s.line, wanted := none }
    | none => s
  writeWord next text
  modify fun s => { s with endsStatement := ends }

/-- Two tokens that would read as one when written together. -/
def mayCombine (before : Option Kind) (text : String) : Bool :=
  match before, text.toList.head? with
  | some .int, some c => c == '.'
  | some (.operator "+"), some c => c == '+'
  | some (.operator "-"), some c => c == '-'
  | some (.operator "/"), some c => c == '*'
  | some (.operator "<"), some c => c == '-' || c == '<'
  | some (.operator "&"), some c => c == '&' || c == '^'
  | _, _ => false

def tokenOf (kind : Kind) (text : String) : Lay Unit := do
  noteOpen
  if mayCombine (← get).lastToken text then modify fun s => { s with held := #[.blank] }
  let ends := match kind with
    | .operator s => ["++", "--", ")", "]", "\x7d"].contains s
    | .keyword s => ["break", "continue", "fallthrough", "return"].contains s
    | _ => false
  emit text kind ends

def op (s : String) : Lay Unit := tokenOf (.operator s) s

def word (s : String) : Lay Unit := tokenOf (.keyword s) s

def semicolonMark : Lay Unit := tokenOf (.semicolon true) ";"

def opAt (p : Pos) (s : String) : Lay Unit := do
  setPos p
  op s

def ident (s : String) : Lay Unit := do
  noteOpen
  emit s .ident true

def name (n : Name) : Lay Unit := do
  setPos n.span.start
  ident n.text

def literal (kind : Kind) (text : String) : Lay Unit := do
  noteOpen
  emit text kind true

/-- Breaks the line at least `least` times, or as often as the source does before `line`. Answers
zero for no break, one for a single line break, more for a section break or a blank line. -/
def lineBreak (line least : Nat) (w : Space) (section_ : Bool) : Lay Nat := do
  let n := max (limit (line - (← get).pos.line)) least
  if n == 0 then return 0
  space w
  let rest := if section_ then n - 1 else n
  if section_ then space .formfeed
  for _ in [0:rest] do space .newline
  return if section_ then rest + 2 else rest

def record : Lay Nat := do
  let i := (← get).marks.size
  modify fun s => { s with marks := s.marks.push 0, wanted := some i }
  return i

def grewSince (i : Nat) : Lay Bool := do
  let s ← get
  return ((s.marks[i]?).getD 0) < s.line

end Lay

end ReactiveModel.Source
