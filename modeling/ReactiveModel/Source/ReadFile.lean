import ReactiveModel.Source.ReadStmt
import ReactiveModel.Source.Scanner

/-! Files and single expressions. -/

namespace ReactiveModel.Source

open Reader

namespace Grammar

variable (g : Grammar)

def functionDecl : Reader Decl := do
  let documented := !(← item).lead.isEmpty
  let start ← word "func"
  let receiver ← if ← isOp "(" then pure (some (← g.paramList)) else pure none
  let n ← name
  let typeParams ← if ← isOp "[" then do
      let lbrack ← pos
      next
      let fs ← g.parameters "]" none
      let rbrack ← op "]"
      if fs.isEmpty || receiver.isSome then failure
      pure (some (FieldList.mk lbrack fs rbrack))
    else pure none
  let params ← g.paramList
  let res ← g.results
  let sig := Signature.mk typeParams params res
  if ← isOp "\x7b" then
    let b ← g.block
    let _ ← semicolon
    return .function documented ⟨start, after b.rbrace⟩ receiver n sig (some b)
  else
    let written ← isKind (.semicolon true)
    let _ ← semicolon
    -- a brace on the next line would be a detached body
    if !written && (← isOp "\x7b") then failure
    else if written && (← isOp "\x7b") then failure
    else return .function documented ⟨start, stopOf params res⟩ receiver n sig none

def declWords : List String := ["import", "const", "var", "type", "func"]

def decl : Reader Decl := do
  match ← kind with
  | .keyword "func" => g.functionDecl
  | .keyword "const" => return .group (← g.group "const")
  | .keyword "var" => return .group (← g.group "var")
  | .keyword "type" => return .group (← g.group "type")
  | _ => failure

def packageClause : Reader (Pos × Name) := do
  let start ← word "package"
  let n ← name
  let _ ← semicolon
  return (start, n)

def imports : Reader (List Decl) := do
  many (do
    if ← isWord "import" then return some (Decl.group (← g.group "import")) else return none)
    (← bound)

def file (comments : List (List Comment)) : Reader File := do
  let (start, n) ← packageClause
  let imports ← g.imports
  let decls ← many (do
    if ← isKind .eof then return none else return some (← g.decl)) (← bound)
  return ⟨start, n, imports ++ decls, comments⟩

/-- Whether all is well up to a token that starts no declaration where one should start. -/
def strays : Reader Bool := do
  let _ ← packageClause
  let _ ← g.imports
  let _ ← many (do
    match ← kind with
    | .keyword w => if declWords.contains w then return some (← g.decl) else return none
    | _ => return none) (← bound)
  return !(← isKind .eof)

end Grammar

structure Tokens where
  items : Array Item
  comments : List (List Comment)
  lines : Lines

def Tokens.ofString? (s : String) : Option Tokens :=
  (scan s).map fun t =>
    let lines := Lines.ofString s t.numbered
    let (items, groups) := arrange lines t.tokens.toList 0 [] #[] #[]
    ⟨items, groups.toList, lines⟩

def Tokens.onLines (t : Tokens) (lines : Lines) : Tokens :=
  { t with
    lines
    items := t.items.map fun i =>
      let place (p : Pos) : Pos := lines.place p.offset
      { i with token := { i.token with pos := place i.token.pos, stop := place i.token.stop } } }

/-- Nesting never goes deeper than a few productions per token. -/
def Tokens.depth (t : Tokens) : Nat := 3 * t.items.size + 16

def Tokens.run {α : Type} (t : Tokens) (r : Grammar → Reader α) : Option α :=
  ((r (Grammar.upTo t.depth)).run ⟨t.items, 0, 0, false⟩).map (·.1)

def Tokens.file? (t : Tokens) : Option File := t.run fun g => g.file t.comments

def File.read? (s : String) : Option File := (Tokens.ofString? s).bind Tokens.file?

def Expr.read? (s : String) : Option Expr := do
  (← Tokens.ofString? s).run fun g => do
    let x ← g.rhs
    if ← isKind (.semicolon false) then next
    let _ ← expect .eof
    return x

end ReactiveModel.Source
