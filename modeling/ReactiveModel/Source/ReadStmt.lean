import ReactiveModel.Source.ReadExpr

/-! Statements and the declarations inside them. -/

namespace ReactiveModel.Source

open Reader

inductive SimpleMode | basic | labels | ranges
deriving DecidableEq

def assignOps : List String :=
  [":=", "=", "+=", "-=", "*=", "/=", "%=", "&=", "|=", "^=", "<<=", ">>=", "&^="]

def lastStop (xs : List Expr) (d : Pos) : Pos :=
  match xs.getLast? with
  | some x => x.span.stop
  | none => d

def firstStart (xs : List Expr) (d : Pos) : Pos :=
  match xs with
  | x :: _ => x.span.start
  | [] => d

namespace Grammar

variable (g : Grammar)

def rangeClause : Reader Expr := do
  let p ← word "range"
  let x ← g.rhs
  return .unary ⟨p, x.span.stop⟩ "range" x

/-- A simple statement, and whether it is the clause of a loop over a range. -/
def simple (mode : SimpleMode) : Reader (Stmt × Bool) := do
  let xs ← g.exprList false
  let t ← token
  let isAssign := match t.kind with
    | .operator s => assignOps.contains s
    | _ => false
  if isAssign then
    next
    if mode == .ranges && (t.text == ":=" || t.text == "=") && (← isWord "range") then
      let r ← g.rangeClause
      return (.assign ⟨firstStart xs t.pos, r.span.stop⟩ xs t.pos t.text [r], true)
    else
      let ys ← g.exprList true
      return (.assign ⟨firstStart xs t.pos, lastStop ys t.pos⟩ xs t.pos t.text ys, false)
  else
    match xs with
    | [x] =>
      match t.kind with
      | .operator ":" =>
        next
        match mode, x with
        | .labels, .name n =>
          let s ← g.stmt
          return (.labeled ⟨n.span.start, s.span.stop⟩ n t.pos s, false)
        | _, _ => failure
      | .operator "<-" =>
        next
        let y ← g.rhs
        return (.send (spanOf x y) x t.pos y, false)
      | .operator "++" | .operator "--" =>
        next
        return (.increment ⟨x.span.start, after (after t.pos)⟩ x t.pos t.text, false)
      | _ => return (.expr x, false)
    | _ => failure

def condition : Stmt → Reader Expr
  | .expr x => return x
  | _ => failure

/-! Declarations. -/

def nameList : Reader (List Name) := do
  let n ← name
  let ns ← many (do
    if ← isOp "," then
      next
      return some (← name)
    else return none) (← bound)
  return n :: ns

/-- An import; comments lead it only if it is in parentheses. -/
def importSpec (listed : Bool) : Reader Spec := do
  let start ← pos
  let lead ← if listed then pure (← item).lead else pure []
  let n ← match ← kind with
    | .ident => pure (some (← name))
    | .operator "." =>
      next
      pure (some ⟨⟨start, after start⟩, "."⟩)
    | _ => pure none
  let t ← token
  if t.kind == .string then
    next
    let tail ← semicolon
    return .imported n (.literal ⟨t.pos, t.stop⟩ t.kind t.text) Pos.none lead tail
  else failure

def valueSpec (constant : Bool) : Reader Spec := do
  let start ← pos
  let names ← nameList
  let values : Reader (List Expr) := do
    if ← isOp "=" then
      next
      g.exprList true
    else return []
  let (t, vs) ← if constant then do
      match ← kind with
      | .eof | .semicolon _ | .operator ")" => pure (none, [])
      | _ =>
        let t ← g.type?
        pure (t, ← values)
    else do
      let t ← if ← isOp "=" then pure none else pure (some (← g.type))
      pure (t, ← values)
  let stop ← lastEnd
  let tail ← semicolon
  return .value ⟨start, stop⟩ names t vs !tail.isEmpty

/-- A bracket after the name of a declared type opens type parameters or an array type: splits an
expression into a parameter name and the start of its constraint. What could be an array length is
split only when it is `forced`, that is, when a comma or a type follows. -/
def splitName (forced : Bool) : Expr → Option (Name × Option Expr)
  | .name n => some (n, none)
  | .binary s x p "*" y =>
    match x with
    | .name n => if forced || y.isTypeElem then some (n, some (.star ⟨p, s.stop⟩ y)) else none
    | _ => none
  | .binary s x p "|" y =>
    match splitName (forced || y.isTypeElem) x with
    | some (n, some t) => some (n, some (.binary ⟨t.span.start, s.stop⟩ t p "|" y))
    | _ => none
  | .call _ (.name n) lparen [x] dots rparen =>
    if !dots.isSome && (forced || x.isTypeElem) then
      some (n, some (.paren ⟨lparen, after rparen⟩ x rparen))
    else none
  | _ => none

def typeSpec : Reader Spec := do
  let start ← pos
  let n ← name
  let done (params : Option FieldList) (assign : Pos) (t : Expr) : Reader Spec := do
    let tail ← semicolon
    return .type ⟨start, t.span.stop⟩ n params assign t !tail.isEmpty
  if ← isOp "[" then
    let lbrack ← pos
    next
    if ← isKind .ident then
      let p ← name
      let x ← if ← isOp "[" then pure (Expr.name p)
        else nested do g.binaryFrom 1 (← g.primary (.name p))
      match splitName (← isOp ",") x with
      | some (p, constraint) =>
        if constraint.isSome || !(← isOp "]") then
          let fs ← g.parameters "]" (some (p, constraint))
          let rbrack ← op "]"
          let assign ← if ← isOp "=" then do
              let a ← pos
              next
              pure a
            else pure Pos.none
          done (some (.mk lbrack fs rbrack)) assign (← g.type)
        else done none Pos.none (← g.arrayType lbrack (some x))
      | none => done none Pos.none (← g.arrayType lbrack (some x))
    else done none Pos.none (← g.arrayType lbrack none)
  else
    let assign ← if ← isOp "=" then do
        let a ← pos
        next
        pure a
      else pure Pos.none
    done none assign (← g.type)

def spec (keyword : String) (listed : Bool) : Reader Spec :=
  if keyword == "import" then importSpec listed
  else if keyword == "type" then g.typeSpec
  else g.valueSpec (keyword == "const")

def group (keyword : String) : Reader Group := do
  let documented := !(← item).lead.isEmpty
  let start ← word keyword
  if ← isOp "(" then
    let lparen ← pos
    next
    let specs ← many (do
      if ← isOp ")" then return none else return some (← g.spec keyword true)) (← bound)
    let rparen ← op ")"
    let _ ← semicolon
    return .mk documented ⟨start, after rparen⟩ keyword lparen specs rparen
  else
    let s ← g.spec keyword false
    return .mk documented ⟨start, s.span.stop⟩ keyword Pos.none [s] Pos.none

/-! Control clauses. -/

def blockSpan (b : Block) : Span := ⟨b.lbrace, after b.rbrace⟩

def ifHeader : Reader (Option Stmt × Expr) := header do
  if ← isOp "\x7b" then failure
  let isSemicolon : Reader Bool := do
    match ← kind with
    | .semicolon _ => return true
    | _ => return false
  let first ← if ← isSemicolon then pure none else pure (some (← g.simple .basic).1)
  if ← isOp "\x7b" then
    match first with
    | some s => return (none, ← condition s)
    | none => failure
  else if ← isSemicolon then
    next
    if ← isOp "\x7b" then failure
    else return (first, ← condition (← g.simple .basic).1)
  else failure

def ifStmt : Reader Stmt := do
  let start ← word "if"
  let (init, test) ← g.ifHeader
  let body ← g.block
  if ← isWord "else" then
    next
    if ← isWord "if" then
      let alt ← g.stmt
      return .cond ⟨start, alt.span.stop⟩ init test body (some alt)
    else
      let b ← g.block
      let _ ← semicolon
      return .cond ⟨start, after b.rbrace⟩ init test body (some (.block (blockSpan b) b))
  else
    let _ ← semicolon
    return .cond ⟨start, after body.rbrace⟩ init test body none

def stmtList : Reader (List Stmt) := do
  many (do
    match ← kind with
    | .keyword "case" | .keyword "default" | .operator "\x7d" | .eof => return none
    | _ => return some (← g.stmt)) (← bound)

def bodyStop (colon : Pos) (body : List Stmt) : Pos :=
  match body.getLast? with
  | some s => s.span.stop
  | none => after colon

def caseClause : Reader (Option Stmt) := do
  let start ← pos
  match ← kind with
  | .keyword "case" =>
    next
    let xs ← g.exprList false
    let colon ← op ":"
    let body ← g.stmtList
    return some (.case ⟨start, bodyStop colon body⟩ xs colon body)
  | .keyword "default" =>
    next
    let colon ← op ":"
    let body ← g.stmtList
    return some (.case ⟨start, bodyStop colon body⟩ [] colon body)
  | _ => return none

def isTypeGuard : Stmt → Bool
  | .expr (.assertion _ _ _ none _) => true
  | .assign _ [_] _ op [.assertion _ _ _ none _] => op == ":="
  | _ => false

def switchStmt : Reader Stmt := do
  let start ← word "switch"
  let isSemicolon : Reader Bool := do
    match ← kind with
    | .semicolon _ => return true
    | _ => return false
  let (init, tag) ← header do
    if ← isOp "\x7b" then return (none, none)
    else
      let first ← if ← isSemicolon then pure none else pure (some (← g.simple .basic).1)
      if ← isSemicolon then
        next
        if ← isOp "\x7b" then return (first, none)
        else return (first, some (← g.simple .basic).1)
      else return (none, first)
  let lbrace ← op "\x7b"
  let clauses ← many g.caseClause (← bound)
  let rbrace ← op "\x7d"
  let _ ← semicolon
  let body := Block.mk lbrace clauses rbrace
  let span : Span := ⟨start, after rbrace⟩
  match tag with
  | none => return .switch span init none body
  | some s =>
    if isTypeGuard s then return .typeSwitch span init s body
    else return .switch span init (some (← condition s)) body

def commClause : Reader (Option Stmt) := do
  let start ← pos
  match ← kind with
  | .keyword "case" =>
    next
    let lhs ← g.exprList false
    let t ← token
    let action ← match t.kind, lhs with
      | .operator "<-", [x] =>
        next
        let y ← g.rhs
        pure (Stmt.send (spanOf x y) x t.pos y)
      | .operator "=", _ | .operator ":=", _ =>
        if 2 < lhs.length then failure
        else
          next
          let y ← g.rhs
          pure (Stmt.assign ⟨firstStart lhs t.pos, y.span.stop⟩ lhs t.pos t.text [y])
      | _, [x] => pure (Stmt.expr x)
      | _, _ => failure
    let colon ← op ":"
    let body ← g.stmtList
    return some (.comm ⟨start, bodyStop colon body⟩ (some action) colon body)
  | .keyword "default" =>
    next
    let colon ← op ":"
    let body ← g.stmtList
    return some (.comm ⟨start, bodyStop colon body⟩ none colon body)
  | _ => return none

def selectStmt : Reader Stmt := do
  let start ← word "select"
  let lbrace ← op "\x7b"
  let clauses ← many g.commClause (← bound)
  let rbrace ← op "\x7d"
  let _ ← semicolon
  return .select ⟨start, after rbrace⟩ (.mk lbrace clauses rbrace)

inductive LoopHeader
  | range (clause : Stmt)
  | plain (init cond post : Option Stmt)

def loopHeader : Reader LoopHeader := header do
  let isSemicolon : Reader Bool := do
    match ← kind with
    | .semicolon _ => return true
    | _ => return false
  if ← isOp "\x7b" then return .plain none none none
  else if ← isWord "range" then
    let r ← g.rangeClause
    return .range (.assign r.span [] Pos.none "" [r])
  else
    let (first, isRange) ← if ← isSemicolon then pure (none, false) else do
      let (s, r) ← g.simple .ranges
      pure (some s, r)
    match first, isRange with
    | some s, true => return .range s
    | _, _ =>
      if ← isSemicolon then
        next
        let cond ← if ← isSemicolon then pure none
          else if ← isOp "\x7b" then failure
          else pure (some (← g.simple .basic).1)
        let _ ← semicolon
        let post ← if ← isOp "\x7b" then pure none else pure (some (← g.simple .basic).1)
        return .plain first cond post
      else return .plain none first none

def loopStmt : Reader Stmt := do
  let start ← word "for"
  let h ← g.loopHeader
  let body ← g.block
  let _ ← semicolon
  let span : Span := ⟨start, after body.rbrace⟩
  match h with
  | .range (.assign _ lhs opPos op [.unary _ _ x]) =>
    match lhs with
    | [] => return .range span none none opPos op x body
    | [k] => return .range span (some k) none opPos op x body
    | [k, v] => return .range span (some k) (some v) opPos op x body
    | _ => failure
  | .range _ => failure
  | .plain init cond post =>
    let test ← match cond with
      | some s => pure (some (← condition s))
      | none => pure none
    return .loop span init test post body

def callStmt (w : String) : Reader Stmt := do
  let start ← word w
  let x ← g.rhs
  match x with
  | .call s _ _ _ _ _ =>
    let _ ← semicolon
    return .call ⟨start, s.stop⟩ w x
  | _ => failure

def returnStmt : Reader Stmt := do
  let start ← word "return"
  let xs ← match ← kind with
    | .semicolon _ | .operator "\x7d" => pure []
    | _ => g.exprList true
  let stop ← lastEnd
  let _ ← semicolon
  return .ret ⟨start, stop⟩ xs

def branchStmt (w : String) : Reader Stmt := do
  let start ← word w
  let label ← if w != "fallthrough" && (← isKind .ident) then pure (some (← name)) else pure none
  let stop ← lastEnd
  let _ ← semicolon
  return .branch ⟨start, stop⟩ w label

def simpleStmt : Reader Stmt := do
  let (s, _) ← g.simple .labels
  match s with
  | .labeled _ _ _ _ => return s
  | _ =>
    let _ ← semicolon
    return s

def stmtBody : Reader Stmt := do
  let t ← token
  match t.kind with
  | .keyword "const" | .keyword "type" | .keyword "var" =>
    let d ← g.group t.text
    return .declaration d.span d
  | .keyword "go" | .keyword "defer" => g.callStmt t.text
  | .keyword "return" => g.returnStmt
  | .keyword "break" | .keyword "continue" | .keyword "goto" | .keyword "fallthrough" =>
    branchStmt t.text
  | .keyword "if" => g.ifStmt
  | .keyword "switch" => g.switchStmt
  | .keyword "select" => g.selectStmt
  | .keyword "for" => g.loopStmt
  | .keyword "func" | .keyword "struct" | .keyword "map" | .keyword "chan" | .keyword "interface"
  | .ident | .int | .float | .imaginary | .char | .string => g.simpleStmt
  | .semicolon written =>
    next
    return .empty ⟨t.pos, if written then after t.pos else t.pos⟩
  | .operator "\x7b" =>
    let b ← g.block
    let _ ← semicolon
    return .block (blockSpan b) b
  | .operator "\x7d" => return .empty ⟨t.pos, t.pos⟩
  | .operator s =>
    if ["(", "[", "+", "-", "*", "&", "^", "<-", "!"].contains s then g.simpleStmt else failure
  | _ => failure

def succ : Grammar where
  binary := g.binaryBody
  unary := g.unaryBody
  type? := g.typeBody?
  literalValue := g.literalBody
  stmt := g.stmtBody

def upTo : Nat → Grammar
  | 0 => zero
  | n + 1 => (upTo n).succ

end Grammar

end ReactiveModel.Source
