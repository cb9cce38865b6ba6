import ReactiveModel.Source.LayoutExpr
import ReactiveModel.Source.Literal
import ReactiveModel.Source.OpenLiteral

/-! Layout of statements, declarations and files. -/

namespace ReactiveModel.Source

open Lay

/-- Whether a list looks better when it is indented as a whole: it has more than one element of
several lines, or an element starts on a line of its own. -/
def wantsIndent (list : List Expr) : Bool :=
  match list, list.getLast? with
  | first :: _ :: _, some final =>
    let b := first.span.start.line
    if 0 < b && b < final.span.stop.line then
      let (ownLine, tall, _) := list.foldl (fun (own, n, line) x =>
        let xb := x.span.start.line
        let xe := x.span.stop.line
        (own || line < xb, if xb < xe then n + 1 else n, xe)) (false, 0, b)
      ownLine || 1 < tall
    else false
  | _, _ => false

namespace Printer

variable (pr : Printer)

/-! Declarations. -/

/-- Value specs of a group keep an empty type column when a neighbour with values has a type. -/
def keepTypes (specs : List Spec) : List Bool :=
  let hasType : Spec → Bool
    | .value _ _ t _ _ => t.isSome
    | _ => false
  let hasValues : Spec → Bool
    | .value _ _ _ vs _ => !vs.isEmpty
    | _ => false
  let rec runs : List Spec → List (Bool × List Spec)
    | [] => []
    | s :: ss =>
      match runs ss with
      | (b, r) :: rest =>
        if b == hasValues s then (b, s :: r) :: rest else (hasValues s, [s]) :: (b, r) :: rest
      | [] => [(hasValues s, [s])]
  (runs specs).flatMap fun (valued, run) =>
    let keep := valued && run.any hasType
    run.map fun _ => keep

def valueColumns (s : Spec) (keepType : Bool) : Lay Unit := do
  match s with
  | .value _ names type values annotated =>
    pr.nameList names false
    let mut cells := 3
    if type.isSome || keepType then
      space .cell
      cells := cells - 1
    match type with
    | some t => pr.plain t
    | none => pure ()
    if !values.isEmpty then
      space .cell
      op "="
      blank
      pr.exprList Pos.none values 1 {} Pos.none
      cells := cells - 1
    if annotated then
      for _ in [0:cells] do space .cell
  | _ => return

/-- Comments that end a line take a line of their own where sizes are asked for. -/
def measureTail (annotated : Bool) : Lay Unit := do
  if annotated && (← get).measuring then space .newline

def spec (s : Spec) (n : Nat) (indented : Bool) : Lay Unit := do
  match s with
  | .imported localName path stop _ _ =>
    match localName with
    | some a =>
      name a
      blank
    | none => pure ()
    match path with
    | .literal span kind text => pr.plain (.literal span kind (pathLiteral text))
    | _ => pr.plain path
    setPos stop
  | .value _ names type values annotated =>
    pr.nameList names indented
    match type with
    | some t =>
      blank
      pr.plain t
    | none => pure ()
    if !values.isEmpty then
      blank
      op "="
      blank
      pr.exprList Pos.none values 1 {} Pos.none
    measureTail annotated
  | .type _ declared params assign type annotated =>
    name declared
    match params with
    | some ps => pr.parameters ps .declaredTypes
    | none => pure ()
    if n == 1 then blank else space .cell
    if assign.isSome then
      op "="
      blank
    pr.plain type
    measureTail annotated

def group (g : Group) : Lay Unit := do
  let .mk _ span keyword lparen specs rparen := g
  setPos span.start
  word keyword
  blank
  if lparen.isSome || specs.length != 1 then
    opAt lparen "("
    let n := specs.length
    if 0 < n then
      space .indent
      space .formfeed
      let columns := 1 < n && (keyword == "const" || keyword == "var")
      let mut lastMark := 0
      let mut isFirst := true
      for (s, keep) in specs.zip (keepTypes specs) do
        if !isFirst then
          let _ ← lineBreak s.span.start.line 1 .ignore (← grewSince lastMark)
        lastMark ← record
        isFirst := false
        if columns then pr.valueColumns s keep else pr.spec s n false
      space .unindent
      space .formfeed
    opAt rparen ")"
  else
    for s in specs do pr.spec s 1 true

def decl (d : Decl) : Lay Unit := do
  match d with
  | .group g => pr.group g
  | .function _ span receiver declared sig body =>
    setPos span.start
    word "func"
    blank
    let column := (← get).column - 5
    match receiver with
    | some r =>
      pr.parameters r .values
      blank
    | none => pure ()
    name declared
    pr.signature sig
    match body with
    | some b => pr.functionBody (← distanceFrom span.start column) .cell b
    | none => pure ()

/-! Statements. -/

def clause (isLoop : Bool) (init : Option Stmt) (test : Option Expr) (post : Option Stmt) :
    Lay Unit := do
  blank
  let mut needsBlank := false
  if init.isNone && post.isNone then
    match test with
    | some x =>
      pr.plain (stripParens x)
      needsBlank := true
    | none => pure ()
  else
    match init with
    | some s => pr.stmt s false
    | none => pure ()
    semicolonMark
    blank
    match test with
    | some x =>
      pr.plain (stripParens x)
      needsBlank := true
    | none => pure ()
    if isLoop then
      semicolonMark
      blank
      needsBlank := false
      match post with
      | some s =>
        pr.stmt s false
        needsBlank := true
      | none => pure ()
  if needsBlank then blank

def stmtBody (s : Stmt) (braceFollows : Bool) : Lay Unit := do
  setPos s.span.start
  match s with
  | .empty _ => return
  | .declaration _ d => pr.group d
  | .labeled _ label colon inner =>
    space .unindent
    name label
    opAt colon ":"
    space .indent
    match inner with
    | .empty span =>
      if braceFollows then pr.stmt inner braceFollows
      else
        space .newline
        setPos span.start
        semicolonMark
    | _ =>
      let _ ← lineBreak inner.span.start.line 1 .ignore true
      pr.stmt inner braceFollows
  | .expr x => pr.expr₀ x 1
  | .send _ c arrow v =>
    pr.expr₀ c 1
    blank
    opAt arrow "<-"
    blank
    pr.expr₀ v 1
  | .increment _ x opPos o =>
    pr.expr₀ x 2
    opAt opPos o
  | .assign span lhs opPos o rhs =>
    let depth := if 1 < lhs.length && 1 < rhs.length then 2 else 1
    pr.exprList span.start lhs depth {} opPos
    blank
    opAt opPos o
    blank
    pr.exprList opPos rhs depth {} Pos.none
  | .call _ w x =>
    word w
    blank
    pr.plain x
  | .ret _ results =>
    word "return"
    if !results.isEmpty then
      blank
      if wantsIndent results then
        space .indent
        pr.exprList Pos.none results 1 { indented := false } Pos.none
        space .unindent
      else pr.exprList Pos.none results 1 {} Pos.none
  | .branch _ w label =>
    word w
    match label with
    | some l =>
      blank
      name l
    | none => pure ()
  | .block _ b => pr.block b 1
  | .cond _ init test body alternative =>
    word "if"
    pr.clause false init (some test) none
    pr.block body 1
    match alternative with
    | some a =>
      blank
      word "else"
      blank
      pr.stmt a braceFollows
    | none => pure ()
  | .case span values colon body =>
    if values.isEmpty then word "default"
    else
      word "case"
      blank
      pr.exprList span.start values 1 {} colon
    opAt colon ":"
    pr.stmtList body 1 braceFollows
  | .switch _ init tag body =>
    word "switch"
    pr.clause false init tag none
    pr.block body 0
  | .typeSwitch _ init guard body =>
    word "switch"
    match init with
    | some i =>
      blank
      pr.stmt i false
      semicolonMark
    | none => pure ()
    blank
    pr.stmt guard false
    blank
    pr.block body 0
  | .comm _ action colon body =>
    match action with
    | some a =>
      word "case"
      blank
      pr.stmt a false
    | none => word "default"
    opAt colon ":"
    pr.stmtList body 1 braceFollows
  | .select _ body =>
    word "select"
    blank
    if body.stmts.isEmpty && !(← commentBefore body.rbrace) then
      opAt body.lbrace "\x7b"
      opAt body.rbrace "\x7d"
    else pr.block body 0
  | .loop _ init test post body =>
    word "for"
    pr.clause true init test post
    pr.block body 1
  | .range _ key value opPos o x body =>
    word "for"
    blank
    match key with
    | some k =>
      pr.plain k
      match value with
      | some v =>
        opAt v.span.start ","
        blank
        pr.plain v
      | none => pure ()
      blank
      opAt opPos o
      blank
    | none => pure ()
    word "range"
    blank
    pr.plain (stripParens x)
    blank
    pr.block body 1

def zero : Printer := ⟨fun _ _ _ => pure (), fun _ _ => pure ()⟩

def succ : Printer := ⟨pr.exprBody, pr.stmtBody⟩

def upTo : Nat → Printer
  | 0 => zero
  | n + 1 => (upTo n).succ

def lineCount (s : Span) : Nat := s.stop.line - s.start.line + 1

def declList (ds : List Decl) : Lay Unit := do
  let mut keyword := ""
  for d in ds do
    let least := if keyword != d.keyword || d.documented then 2 else 1
    keyword := d.keyword
    if !(← get).pieces.isEmpty then
      let _ ← lineBreak d.span.start.line least .ignore
        (keyword == "func" && 1 < lineCount d.span)
    pr.decl d

def file (f : File) : Lay Unit := do
  setPos f.pos
  word "package"
  blank
  name f.name
  pr.declList f.decls
  space .newline

end Printer

def File.layOut (depth : Nat) (base : Int) (verbatim : Bool) (f : File) : Layout :=
  let act : Lay Unit := do
    fetchComment
    (Printer.upTo depth).file f
    modify fun s => { s with endsStatement := false }
    let _ ← flush ⟨infinity, infinity, 0⟩ (some .eof)
  (act.run { base, verbatim, comments := f.comments.toArray }).2

end ReactiveModel.Source
