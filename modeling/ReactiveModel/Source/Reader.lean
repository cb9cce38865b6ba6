import ReactiveModel.Source.Stream

/-! The reader: a state over the token stream that fails on the first violation of the grammar.
The grammar is recursive; `Grammar` lists the productions that others refer to, and a reader of
nesting depth `n + 1` is built from the one of depth `n`. -/

namespace ReactiveModel.Source

structure ReadState where
  items : Array Item
  at_ : Nat
  /-- Nesting depth of brackets; negative in the header of a control clause. -/
  level : Int
  /-- Whether an assignment mark would be a mistyped comparison. -/
  rightSide : Bool

abbrev Reader := StateT ReadState Option

namespace Reader

def item : Reader Item := do
  let s ← get
  return (s.items[s.at_]?).getD default

def token : Reader Token := return (← item).token

def kind : Reader Kind := return (← token).kind

def pos : Reader Pos := return (← token).pos

def next : Reader Unit := modify fun s => { s with at_ := s.at_ + 1 }

def lastEnd : Reader Pos := do
  let s ← get
  match s.items[s.at_ - 1]? with
  | some i => return i.token.stop
  | none => return Pos.first

def lastKind : Reader Kind := do
  let s ← get
  return ((s.items[s.at_ - 1]?).map (·.token.kind)).getD .eof

def isKind (k : Kind) : Reader Bool := return (← kind) == k

def isOp (op : String) : Reader Bool := isKind (.operator op)

def isWord (w : String) : Reader Bool := isKind (.keyword w)

def expect (k : Kind) : Reader Pos := do
  let t ← token
  if t.kind == k then
    next
    return t.pos
  else failure

def op (s : String) : Reader Pos := expect (.operator s)

def word (s : String) : Reader Pos := expect (.keyword s)

def after (p : Pos) : Pos := ⟨p.offset + 1, p.line, p.column + 1⟩

def name : Reader Name := do
  let t ← token
  if t.kind == .ident then
    next
    return ⟨⟨t.pos, t.stop⟩, t.text⟩
  else failure

def semicolon : Reader (List Comment) := do
  match ← kind with
  | .operator ")" | .operator "\x7d" => return []
  | .semicolon true =>
    next
    return (← item).tail
  | .semicolon false =>
    let i ← item
    next
    return i.tail
  | _ => failure

/-- After a list element: a comma to go on, or the closing mark. -/
def more (closing : String) : Reader Bool := do
  match ← kind with
  | .operator s => if s == "," then return true else if s == closing then return false else failure
  | _ => failure

def many {α : Type} (step : Reader (Option α)) : Nat → Reader (List α)
  | 0 => failure
  | fuel + 1 => do
    match ← step with
    | some a => return a :: (← many step fuel)
    | none => return []

def iterate {α : Type} (step : α → Reader (Option α)) : Nat → α → Reader α
  | 0, _ => failure
  | fuel + 1, a => do
    match ← step a with
    | some b => iterate step fuel b
    | none => return a

/-- A bound for every loop over the remaining tokens. -/
def bound : Reader Nat := return (← get).items.size + 2

def rightSide {α : Type} (inside : Bool) (r : Reader α) : Reader α := do
  let old := (← get).rightSide
  modify fun s => { s with rightSide := inside }
  let a ← r
  modify fun s => { s with rightSide := old }
  return a

def nested {α : Type} (r : Reader α) : Reader α := do
  modify fun s => { s with level := s.level + 1 }
  let a ← r
  modify fun s => { s with level := s.level - 1 }
  return a

/-- Reads the header of a control clause, where a brace opens the body. -/
def header {α : Type} (r : Reader α) : Reader α := do
  let old := (← get).level
  modify fun s => { s with level := -1 }
  let a ← r
  modify fun s => { s with level := old }
  return a

end Reader

structure Grammar where
  /-- An expression whose operators bind at least as tightly as the given precedence. -/
  binary : Nat → Reader Expr
  unary : Reader Expr
  type? : Reader (Option Expr)
  literalValue : Option Expr → Reader Expr
  stmt : Reader Stmt

namespace Grammar

def zero : Grammar where
  binary _ := failure
  unary := failure
  type? := failure
  literalValue _ := failure
  stmt := failure

variable (g : Grammar)

def expr : Reader Expr := g.binary 1

def rhs : Reader Expr := Reader.rightSide true g.expr

def exprList (inside : Bool) : Reader (List Expr) :=
  Reader.rightSide inside do
    let x ← g.expr
    let xs ← Reader.many (do
      if ← Reader.isOp "," then
        Reader.next
        return some (← g.expr)
      else return none) (← Reader.bound)
    return x :: xs

def type : Reader Expr := do
  match ← g.type? with
  | some t => return t
  | none => failure

end Grammar

end ReactiveModel.Source
