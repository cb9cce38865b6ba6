import ReactiveModel.Number.Mean
import ReactiveModel.Source.Layout

/-! Layout of types and expressions. Layout is recursive in the tree; `Printer` holds the two
entries that others refer to, and the printer of depth `n + 1` is built from the one of depth
`n`. -/

namespace ReactiveModel.Source

structure Printer where
  /-- An expression in a context of the given precedence, at the given depth of operators. -/
  expr : Expr → Nat → Nat → Lay Unit
  stmt : Stmt → Bool → Lay Unit

open Lay

def unaryPrec : Nat := 6

def highestPrec : Nat := 7

def unbounded : Nat := 1000000

/-- Number literals are written in lower case, but for hexadecimal digits. -/
def normalNumber (text : String) : String :=
  let cs := text.toList
  let lastTo (upper lower : Char) (cs : List Char) : List Char :=
    match cs.reverse.span (· != upper) with
    | (tail, _ :: front) => front.reverse ++ lower :: tail.reverse
    | _ => cs
  match cs with
  | '0' :: 'X' :: r => String.ofList ('0' :: 'x' :: lastTo 'P' 'p' r)
  | '0' :: 'x' :: r => String.ofList ('0' :: 'x' :: lastTo 'P' 'p' r)
  | '0' :: 'O' :: r => String.ofList ('0' :: 'o' :: r)
  | '0' :: 'B' :: r => String.ofList ('0' :: 'b' :: r)
  | '0' :: 'o' :: _ | '0' :: 'b' :: _ => text
  | _ =>
    if cs.contains 'E' then String.ofList (lastTo 'E' 'e' cs)
    else if 1 < cs.length && cs.getLast? == some 'i' && !cs.any (fun c => c == '.' || c == 'e') then
      let r := cs.dropWhile fun c => c == '0' || c == '_'
      if r == ['i'] then "0i" else String.ofList r
    else text

/-! Blanks around binary operators depend on the operators in the whole expression. -/

/-- Which of the two tightest precedences occur, and the precedence that needs blanks because an
operator would run into a unary one. -/
def operatorMix : Expr → Bool × Bool × Nat
  | .binary _ x _ op y =>
    let p := precedence op
    let left := match x with
      | .binary _ _ _ o _ => if precedence o < p then (false, false, 0) else operatorMix x
      | _ => (false, false, 0)
    let right := match y with
      | .binary _ _ _ o _ => if precedence o ≤ p then (false, false, 0) else operatorMix y
      | .star _ _ => (false, false, if op == "/" then 5 else 0)
      | .unary _ u _ =>
        let both := op ++ u
        (false, false, if both == "/*" || both == "&&" || both == "&^" then 5
          else if both == "++" || both == "--" then 4 else 0)
      | _ => (false, false, 0)
    (p == 4 || left.1 || right.1, p == 5 || left.2.1 || right.2.1, max left.2.2 right.2.2)
  | _ => (false, false, 0)

/-- Operators of at least this precedence are written without blanks. -/
def cutoff (x : Expr) (depth : Nat) : Nat :=
  let (has4, has5, problem) := operatorMix x
  if 0 < problem then problem + 1
  else if has4 && has5 then if depth == 1 then 5 else 4
  else if depth == 1 then 6
  else 4

def differentPrec (x : Expr) (prec : Nat) : Nat :=
  match x with
  | .binary _ _ _ op _ => if precedence op == prec then 0 else 1
  | _ => 1

def lessDepth (d : Nat) : Nat := max 1 (d - 1)

def isBinary : Expr → Bool
  | .binary _ _ _ _ _ => true
  | _ => false

def withoutParens : Expr → Expr
  | .paren _ x _ => withoutParens x
  | x => x

def lineSize (pieces : Array Piece) : Option Nat :=
  let isSpace : Piece → Bool
    | .blank | .tab | .cell => true
    | _ => false
  let trimmed := pieces.toList.reverse.dropWhile isSpace
  trimmed.foldl (fun n p => match n, p with
    | none, _ => none
    | some _, .newline | some _, .formfeed => none
    | some n, .word w => if w.toList.any isBreakChar then none else some (n + w.utf8ByteSize)
    | some n, _ => some (n + 1)) (some 0)

/-- Size of a part of the tree that an action writes, or one more than `most` when it takes
several lines or more than that. Parts are measured once: their sizes do not depend on what is
around them, and measuring them again at every level of a nest would take exponential time. -/
def sizeWritten (part : Span) (act : Lay Unit) (most : Nat) : Lay Nat := do
  let key := (part.start.offset, part.stop.offset, most)
  let sizes ← modifyGet fun s => (s.sizes, { s with sizes := ∅ })
  match sizes[key]? with
  | some n =>
    modify fun s => { s with sizes := sizes }
    return n
  | none =>
    let finish : Lay Unit := do
      modify fun s => { s with endsStatement := false }
      let _ ← flush ⟨infinity, infinity, 0⟩ (some .eof)
    let done := ((act >>= fun _ => finish).run
      { verbatim := true, measuring := true, sizes := sizes }).2
    let n := match lineSize done.pieces with
      | some n => if n ≤ most then n else most + 1
      | none => most + 1
    modify fun s => { s with sizes := done.sizes.insert key n }
    return n

namespace Printer

variable (pr : Printer)

def expr₀ (x : Expr) (depth : Nat) : Lay Unit := pr.expr x 0 depth

def plain (x : Expr) : Lay Unit := pr.expr x 0 1

def exprSize (x : Expr) (most : Nat) : Lay Nat := sizeWritten x.span (pr.plain x) most

/-- Size of an element of a list that takes one line, where of a pair only the key counts; zero
for other elements. -/
def elementSize (x : Expr) : Lay Nat := do
  let whole ← pr.exprSize x unbounded
  if unbounded < whole then return 0
  match x with
  | .pair _ k _ _ => pr.exprSize k unbounded
  | _ => return whole

structure ListMode where
  /-- Whether a comma ends the list when its closing mark is on another line. -/
  closed : Bool := false
  indented : Bool := true

def exprList (before : Pos) (list : List Expr) (depth : Nat) (mode : ListMode) (next : Pos) :
    Lay Unit := do
  match list, list.getLast? with
  | first :: _, some final =>
    let line := first.span.start.line
    if before.isSome && before.line == line && line == final.span.stop.line then
      let mut isFirst := true
      for x in list do
        if !isFirst then
          opAt x.span.start ","
          blank
        pr.expr₀ x depth
        isFirst := false
    else
      let mut ws : Space := if mode.indented then .indent else .ignore
      let mut lastBreak : Int := -1
      if before.isSome && before.line < line then
        if 0 < (← lineBreak line 0 ws true) then
          ws := .ignore
          lastBreak := 0
      let mut size := 0
      let mut logs : Float := 0
      let mut count : Nat := 0
      let mut lastLine := before.line
      let mut i : Nat := 0
      for x in list do
        let line := x.span.start.line
        let lastSize := size
        size ← if before.isSome && next.isSome then pr.elementSize x else pure 0
        let sectionBreak :=
          if 0 < lastSize && 0 < size then
            if count == 0 || (lastSize ≤ 40 && size ≤ 40) then false
            else
              let ratio := size.toFloat / Number.geometricMean logs count
              2.5 * ratio ≤ 1 || 2.5 ≤ ratio
          else true
        let breaks := 0 < lastLine && lastLine < line
        if 0 < i then
          if !breaks then setPos x.span.start
          op ","
          let mut needsBlank := true
          if breaks then
            let n ← lineBreak line 0 ws (sectionBreak || lastBreak + 1 < i)
            if 0 < n then
              ws := .ignore
              lastBreak := i
              needsBlank := false
            if 1 < n then
              logs := 0
              count := 0
          if needsBlank then blank
        match x with
        | .pair _ k colon v =>
          if 1 < list.length && 0 < size && breaks then
            pr.plain k
            opAt colon ":"
            space .cell
            pr.plain v
          else pr.expr₀ x depth
        | _ => pr.expr₀ x depth
        if 0 < size then
          logs := logs + Number.logarithm size.toFloat
          count := count + 1
        lastLine := line
        i := i + 1
      let outdent := ws == .ignore && mode.indented
      if mode.closed && next.isSome && (← get).pos.line < next.line then
        op ","
        if outdent then space .unindent
        space .formfeed
      else if outdent then space .unindent
  | _, _ => return

def nameList (names : List Name) (indented : Bool) : Lay Unit :=
  pr.exprList Pos.none (names.map .name) 1 { indented := indented } Pos.none

inductive ParamMode | values | functionTypes | declaredTypes
deriving DecidableEq

/-- A constraint that would combine with the name in front of it to an expression. -/
def combinesWithName : Expr → Bool
  | .star _ x => !x.isTypeElem
  | .binary _ x _ _ y => combinesWithName x && !y.isTypeElem
  | .paren _ x _ => !x.isTypeElem
  | _ => false

def parameters (l : FieldList) (mode : ParamMode) : Lay Unit := do
  let (opening, closing) := if mode == .values then ("(", ")") else ("[", "]")
  opAt l.opening opening
  if !l.fields.isEmpty then
    let mut lastLine := l.opening.line
    let mut ws : Space := .indent
    let mut isFirst := true
    for f in l.fields do
      let startLine := f.span.start.line
      let breaks := 0 < lastLine && lastLine < startLine
      if !isFirst then
        if !breaks then setPos f.span.start
        op ","
      let broke ← if breaks then lineBreak startLine 0 ws true else pure 0
      if 0 < broke then ws := .ignore
      else if !isFirst then blank
      if !f.names.isEmpty then
        pr.nameList f.names (ws == .indent)
        blank
      pr.plain (withoutParens f.type)
      lastLine := f.span.stop.line
      isFirst := false
    if 0 < lastLine && lastLine < l.closing.line then
      op ","
      let _ ← lineBreak l.closing.line 0 .ignore true
    else if mode == .declaredTypes && l.count == 1 &&
        (l.fields.head?.map fun f => combinesWithName (withoutParens f.type)).getD false then
      op ","
    if ws == .ignore then space .unindent
  opAt l.closing closing

def signature (s : Signature) : Lay Unit := do
  let .mk typeParams params results := s
  match typeParams with
  | some t => pr.parameters t .functionTypes
  | none => pure ()
  pr.parameters params .values
  match results with
  | none => return
  | some r =>
    match r.fields with
    | [] => return
    | [f] =>
      blank
      if f.names.isEmpty then pr.plain (withoutParens f.type) else pr.parameters r .values
    | _ =>
      blank
      pr.parameters r .values

def methodField (f : Field) : Lay Unit := do
  match f.names, f.type with
  | n :: _, .functionType _ sig =>
    name n
    pr.signature sig
  | _, t => pr.plain t

def fitsOneLine (fields : List Field) : Lay Bool := do
  match fields with
  | [.mk _ names type none false] =>
    return (if names.isEmpty then 0 else 1) + (← pr.exprSize type 30) ≤ 30
  | _ => return false

def fieldLines (isRecord : Bool) (fields : List Field) : Lay Unit := do
  let sep : Space := if fields.length == 1 then .blank else .cell
  let mut lastMark := 0
  let mut isFirst := true
  for f in fields do
    let .mk span names type tag annotated := f
    if !isFirst then
      let _ ← lineBreak span.start.line 1 .ignore (← grewSince lastMark)
    lastMark ← record
    isFirst := false
    if isRecord then
      let mut cells := 2
      if !names.isEmpty then
        pr.nameList names false
        space sep
        pr.plain type
        cells := 1
      else pr.plain type
      match tag with
      | some t =>
        if !names.isEmpty && sep == .cell then space sep
        space sep
        pr.plain t
        cells := 0
      | none => pure ()
      if annotated then
        for _ in [0:cells] do space sep
    else pr.methodField f

def fieldList (isRecord : Bool) (lbrace : Pos) (fields : List Field) (rbrace : Pos) : Lay Unit := do
  let hasComments ← commentBefore rbrace
  let oneLine := lbrace.line == rbrace.line
  if !hasComments && oneLine && fields.isEmpty then
    opAt lbrace "\x7b"
    opAt rbrace "\x7d"
  else if ← pure (!hasComments && oneLine) <&&> pr.fitsOneLine fields then
    opAt lbrace "\x7b"
    blank
    for f in fields do
      if isRecord then
        let mut isFirst := true
        for n in f.names do
          if !isFirst then
            op ","
            blank
          name n
          isFirst := false
        if !f.names.isEmpty then blank
        pr.plain f.type
      else pr.methodField f
    blank
    opAt rbrace "\x7d"
  else
    blank
    opAt lbrace "\x7b"
    space .indent
    if hasComments || !fields.isEmpty then space .formfeed
    pr.fieldLines isRecord fields
    space .unindent
    space .formfeed
    opAt rbrace "\x7d"

/-! Statement lists, which also occur inside function literals. -/

def labelCount : Stmt → Nat
  | .labeled _ _ _ s => labelCount s + 1
  | _ => 0

def stmtList (stmts : List Stmt) (depth : Nat) (braceFollows : Bool) : Lay Unit := do
  if 0 < depth then space .indent
  let mut lastMark := 0
  let mut labels := 0
  let mut i := 0
  for s in stmts do
    match s with
    | .empty _ => pure ()
    | _ =>
      if !(← get).pieces.isEmpty then
        let grew ← if i == 0 || depth == 0 then pure true else do
          let st ← get
          pure (decide (((st.marks[lastMark]?).getD 0) + labels < st.line))
        let _ ← lineBreak s.span.start.line 1 .ignore grew
      lastMark ← record
      pr.stmt s (braceFollows && i + 1 == stmts.length)
      labels := labelCount s
      i := i + 1
  if 0 < depth then space .unindent

def block (b : Block) (depth : Nat) : Lay Unit := do
  opAt b.lbrace "\x7b"
  pr.stmtList b.stmts depth true
  let _ ← lineBreak b.rbrace.line 1 .ignore true
  opAt b.rbrace "\x7d"

def stmtSize (s : Stmt) (most : Nat) : Lay Nat :=
  let depth := match s with
    | .labeled _ _ _ _ => 1
    | _ => 0
  sizeWritten s.span (do
    modify fun l => { l with indent := depth }
    pr.stmt s false) most

def commentSize (next : Pos) : Lay Nat := do
  let s ← get
  let comes (g : List Comment) : Bool :=
    (g.head?.any fun c => c.pos.offset < next.offset) && !(s.endsStatement && breaksLine g)
  let groups := (s.comment :: s.comments.toList.drop s.nextComment).takeWhile comes
  return groups.foldl (fun n g => g.foldl (fun n c => n + c.text.utf8ByteSize) n) 0

def bodySize (b : Block) (most : Nat) : Lay Nat := do
  if b.lbrace.line != b.rbrace.line || 5 < b.stmts.length then return most + 1
  let mut size ← commentSize b.rbrace
  let mut isFirst := true
  for s in b.stmts do
    if size ≤ most then
      if !isFirst then size := size + 2
      size := size + (← pr.stmtSize s most)
      isFirst := false
  return size

/-- A function body behind a header of the given size; a small one stays on the line. -/
def functionBody (headerSize : Nat) (sep : Space) (b : Block) : Lay Unit := do
  let level := (← get).level
  modify fun s => { s with level := 0 }
  let most := 100
  if headerSize + (← pr.bodySize b most) ≤ most then
    space sep
    opAt b.lbrace "\x7b"
    if !b.stmts.isEmpty then
      blank
      let mut i := 0
      for s in b.stmts do
        if 0 < i then
          semicolonMark
          blank
        pr.stmt s (i + 1 == b.stmts.length)
        i := i + 1
      blank
    modify fun s => { s with noBreak := !s.noBreak }
    opAt b.rbrace "\x7d"
    modify fun s => { s with noBreak := !s.noBreak }
  else
    if sep != .ignore then blank
    pr.block b 1
  modify fun s => { s with level := level }

def distanceFrom (start : Pos) (column : Nat) : Lay Nat := do
  let s ← get
  return if start.isSome && s.pos.isSome && start.line == s.pos.line then s.column - column
    else infinity

/-! Expressions. -/

def binaryExpr (x : Expr) (opPos : Pos) (o : String) (y : Expr) (cut depth : Nat) : Lay Unit := do
  let prec := precedence o
  let mut blanks := decide (prec < cut)
  let mut ws : Space := .indent
  pr.expr x prec (depth + differentPrec x prec)
  if blanks then blank
  let xLine := (← get).pos.line
  let yLine := y.span.start.line
  opAt opPos o
  if xLine != yLine && 0 < xLine && 0 < yLine then
    if 0 < (← lineBreak yLine 1 ws true) then
      ws := .ignore
      blanks := false
  if blanks then blank
  pr.expr y (prec + 1) (depth + 1)
  if ws == .ignore then space .unindent

/-- A selector; answers whether the selected name went to a new, indented line. -/
def selectorExpr (x : Expr) (sel : Name) (depth : Nat) (isCall : Bool) : Lay Bool := do
  pr.expr x highestPrec depth
  op "."
  let s ← get
  if s.pos.isSome && s.pos.line < sel.span.start.line then
    space .indent
    space .newline
    name sel
    if !isCall then space .unindent
    return true
  else
    name sel
    return false

def sliceBounds (low high max : Option Expr) (depth : Nat) : Lay Unit := do
  let all := match max with
    | some m => [low, high, some m]
    | none => [low, high]
  let present := all.filterMap id
  let blanks := depth ≤ 1 && 1 < present.length && present.any isBinary
  let mut before : Option (Option Expr) := none
  for x in all do
    match before with
    | some b =>
      if b.isSome && blanks then blank
      op ":"
      if x.isSome && blanks then blank
    | none => pure ()
    match x with
    | some e => pr.expr₀ e (depth + 1)
    | none => pure ()
    before := some x

def callExpr (callee : Expr) (lparen : Pos) (args : List Expr) (dots rparen : Pos) (depth : Nat) :
    Lay Unit := do
  let depth := if 1 < args.length then depth + 1 else depth
  let paren := match callee with
    | .functionType _ _ => true
    | .channel _ .receive _ _ => true
    | _ => false
  if paren then op "("
  let indented ← match callee with
    | .selector _ x sel => do
      setPos callee.span.start
      pr.selectorExpr x sel depth true
    | _ => do
      pr.expr callee highestPrec depth
      pure false
  if paren then op ")"
  opAt lparen "("
  if dots.isSome then
    pr.exprList lparen args depth {} dots
    opAt dots "..."
    if rparen.isSome && dots.line < rparen.line then
      op ","
      space .formfeed
  else pr.exprList lparen args depth { closed := true } rparen
  opAt rparen ")"
  if indented then space .unindent

def compositeExpr (type : Option Expr) (lbrace : Pos) (elements : List Expr) (rbrace : Pos)
    (depth : Nat) : Lay Unit := do
  match type with
  | some t => pr.expr t highestPrec depth
  | none => pure ()
  modify fun s => { s with level := s.level + 1 }
  opAt lbrace "\x7b"
  pr.exprList lbrace elements 1 { closed := true } rbrace
  space .indent
  space .unindent
  let quiet : Lay Unit := modify fun s =>
    { s with noBreak := !s.noBreak, noBlank := if elements.isEmpty then s.noBlank else !s.noBlank }
  quiet
  opAt rbrace "\x7d"
  quiet
  modify fun s => { s with level := s.level - 1 }

def exprBody (e : Expr) (prec depth : Nat) : Lay Unit := do
  setPos e.span.start
  match e with
  | .name n => ident n.text
  | .literal _ k t =>
    match k with
    | .int | .float | .imaginary => literal k (if (← get).verbatim then t else normalNumber t)
    | _ => literal k t
  | .binary _ x opPos o y =>
    if precedence o < prec then
      op "("
      pr.expr₀ e (lessDepth depth)
      op ")"
    else pr.binaryExpr x opPos o y (cutoff e depth) depth
  | .pair _ k colon v =>
    pr.plain k
    opAt colon ":"
    blank
    pr.plain v
  | .star _ x =>
    if unaryPrec < prec then
      op "("
      op "*"
      pr.plain x
      op ")"
    else
      op "*"
      pr.plain x
  | .unary _ o x =>
    if unaryPrec < prec then
      op "("
      pr.plain e
      op ")"
    else
      if o == "range" then
        word o
        blank
      else op o
      pr.expr x unaryPrec depth
  | .function span sig body =>
    word "func"
    let column := (← get).column - 4
    pr.signature sig
    pr.functionBody (← distanceFrom span.start column) .blank body
  | .paren _ x rparen =>
    match x with
    | .paren _ _ _ => pr.expr₀ x depth
    | _ =>
      op "("
      pr.expr₀ x (lessDepth depth)
      opAt rparen ")"
  | .selector _ x sel => let _ ← pr.selectorExpr x sel depth false
  | .assertion _ x lparen t rparen =>
    pr.expr x highestPrec depth
    op "."
    opAt lparen "("
    match t with
    | some t => pr.plain t
    | none => word "type"
    opAt rparen ")"
  | .index _ x lbrack indices rbrack =>
    pr.expr x highestPrec 1
    opAt lbrack "["
    match indices with
    | [i] => pr.expr₀ i (depth + 1)
    | _ => pr.exprList lbrack indices (depth + 1) { closed := true } rbrack
    opAt rbrack "]"
  | .slice _ x lbrack low high max rbrack =>
    pr.expr x highestPrec 1
    opAt lbrack "["
    pr.sliceBounds low high max depth
    opAt rbrack "]"
  | .call _ callee lparen args dots rparen => pr.callExpr callee lparen args dots rparen depth
  | .composite _ t lbrace elements rbrace => pr.compositeExpr t lbrace elements rbrace depth
  | .ellipsis _ t =>
    op "..."
    match t with
    | some t => pr.plain t
    | none => pure ()
  | .array _ len elem =>
    op "["
    match len with
    | some l => pr.plain l
    | none => pure ()
    op "]"
    pr.plain elem
  | .record _ lbrace fields rbrace =>
    word "struct"
    pr.fieldList true lbrace fields rbrace
  | .interface _ lbrace methods rbrace =>
    word "interface"
    pr.fieldList false lbrace methods rbrace
  | .functionType _ sig =>
    word "func"
    pr.signature sig
  | .map _ k v =>
    word "map"
    op "["
    pr.plain k
    op "]"
    pr.plain v
  | .channel _ dir arrow v =>
    match dir with
    | .both => word "chan"
    | .receive =>
      op "<-"
      word "chan"
    | .send =>
      word "chan"
      opAt arrow "<-"
    blank
    pr.plain v

end Printer

end ReactiveModel.Source
