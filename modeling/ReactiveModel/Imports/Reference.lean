import ReactiveModel.Source.Tree
import ReactiveModel.Text.Letter

/-! References of a file to packages: selections of exported names from names that nothing in the
file declares. -/

namespace ReactiveModel.Imports

structure Reference where
  package : String
  name : String
deriving DecidableEq, Inhabited

def isExported (name : String) : Bool := name.toList.head?.any Text.isCapital

open Source

/-- A declared name. The parameters of a receiver's type hide other names, but what they stand for
is not known. -/
structure Binding where
  name : String
  known : Bool := true
deriving DecidableEq

/-- The scopes around a place, the innermost first, each with its names in the order of their
declaration. Where there are none, nothing is known of any name. -/
abbrev Scopes := Option (List (List Binding))

namespace Scopes

def maxDepth : Nat := 1000

def nest : Scopes → Option Scopes
  | none => some none
  | some ss => if ss.length < maxDepth then some (some ([] :: ss)) else none

/-- Declares names in the innermost scope. The first declaration of a name counts. -/
def declare (bs : List Binding) : Scopes → Scopes
  | some (s :: ss) => some ((s ++ bs.filter (·.name != "_")) :: ss)
  | ss => ss

def declareNames (names : List String) (ss : Scopes) : Scopes :=
  ss.declare (names.map fun n => ⟨n, true⟩)

def knows (ss : Scopes) (name : String) : Bool :=
  ((ss.getD []).findSome? fun s => s.find? (·.name == name)).any (·.known)

end Scopes

/-! What is declared. -/

def exprNames (xs : List Expr) : List String :=
  xs.filterMap fun x =>
    match x with
    | .name n => some n.text
    | _ => none

def fieldNames (fs : List Field) : List String := fs.flatMap fun f => f.names.map Name.text

def listNames : Option FieldList → List String
  | none => []
  | some l => fieldNames l.fields

/-- The names that specs declare around them. The scope of type parameters lasts to the end of the
group, so that names behind them are not seen from outside. -/
def specNames : List Spec → List String
  | [] => []
  | .imported .. :: ss => specNames ss
  | .value _ ns _ _ _ :: ss => ns.map Name.text ++ specNames ss
  | .type _ n none _ _ _ :: ss => n.text :: specNames ss
  | .type _ n (some _) _ _ _ :: _ => [n.text]

def declaredBy : Stmt → List String
  | .declaration _ g => specNames g.specs
  | .labeled _ _ _ s => declaredBy s
  | .assign _ lhs _ op _ => if op == ":=" then exprNames lhs else []
  | _ => []

def declaredByOption : Option Stmt → List String
  | none => []
  | some s => declaredBy s

def parameterNames : Signature → List String
  | .mk _ ps rs => fieldNames ps.fields ++ listNames rs

/-! References within scopes; there is no answer where they are nested too deeply. -/

mutual

def inExpr (ss : Scopes) : Expr → Option (List Reference)
  | .name _ | .literal .. => some []
  | .function _ s b => do
    let inner ← ss.nest
    return (← inSignature inner s) ++ (← inBody (inner.declareNames (parameterNames s)) b)
  | .composite _ t _ es _ => do return (← inOption ss t) ++ (← inExprs ss es)
  | .paren _ x _ => inExpr ss x
  | .selector _ (.name n) s =>
    some (if ss.knows n.text || !isExported s.text then [] else [⟨n.text, s.text⟩])
  | .selector _ x _ => inExpr ss x
  | .index _ x _ xs _ => do return (← inExpr ss x) ++ (← inExprs ss xs)
  | .slice _ x _ l h m _ => do
    return (← inExpr ss x) ++ (← inOption ss l) ++ (← inOption ss h) ++ (← inOption ss m)
  | .assertion _ x _ t _ => do return (← inExpr ss x) ++ (← inOption ss t)
  | .call _ f _ xs _ _ => do return (← inExpr ss f) ++ (← inExprs ss xs)
  | .star _ x => inExpr ss x
  | .unary _ _ x => inExpr ss x
  | .binary _ x _ _ y => do return (← inExpr ss x) ++ (← inExpr ss y)
  | .pair _ k _ v => do return (← inExpr ss k) ++ (← inExpr ss v)
  | .ellipsis _ t => inOption ss t
  | .array _ n t => do return (← inOption ss n) ++ (← inExpr ss t)
  | .record _ _ fs _ => do inFields (← ss.nest) fs
  | .interface _ _ fs _ => do inFields (← ss.nest) fs
  | .functionType _ s => do inSignature (← ss.nest) s
  | .map _ k v => do return (← inExpr ss k) ++ (← inExpr ss v)
  | .channel _ _ _ v => inExpr ss v

def inExprs (ss : Scopes) : List Expr → Option (List Reference)
  | [] => some []
  | x :: xs => do return (← inExpr ss x) ++ (← inExprs ss xs)

def inOption (ss : Scopes) : Option Expr → Option (List Reference)
  | none => some []
  | some x => inExpr ss x

def inField (ss : Scopes) : Field → Option (List Reference)
  | .mk _ _ t _ _ => inExpr ss t

def inFields (ss : Scopes) : List Field → Option (List Reference)
  | [] => some []
  | f :: fs => do return (← inField ss f) ++ (← inFields ss fs)

def inFieldList (ss : Scopes) : FieldList → Option (List Reference)
  | .mk _ fs _ => inFields ss fs

def inFieldListOption (ss : Scopes) : Option FieldList → Option (List Reference)
  | none => some []
  | some l => inFieldList ss l

/-- Type parameters are known in the types of all parameters. -/
def inSignature (ss : Scopes) : Signature → Option (List Reference)
  | .mk tps ps rs => do
    let inner := ss.declareNames (listNames tps)
    return (← inFieldListOption inner tps) ++ (← inFieldList inner ps) ++
      (← inFieldListOption inner rs)

/-- The body of a function is in the scope of its parameters. -/
def inBody (ss : Scopes) : Block → Option (List Reference)
  | .mk _ b _ => inStmts ss b

def inBlock (ss : Scopes) : Block → Option (List Reference)
  | .mk _ b _ => do inStmts (← ss.nest) b

def inStmts (ss : Scopes) : List Stmt → Option (List Reference)
  | [] => some []
  | s :: rest => do return (← inStmt ss s) ++ (← inStmts (ss.declareNames (declaredBy s)) rest)

def inStmtOption (ss : Scopes) : Option Stmt → Option (List Reference)
  | none => some []
  | some s => inStmt ss s

def inStmt (ss : Scopes) : Stmt → Option (List Reference)
  | .empty _ | .branch .. => some []
  | .declaration _ g => inGroup ss g
  | .labeled _ _ _ s => inStmt ss s
  | .expr x => inExpr ss x
  | .send _ c _ v => do return (← inExpr ss c) ++ (← inExpr ss v)
  | .increment _ x _ _ => inExpr ss x
  | .assign _ lhs _ op rhs => do
    return (← inExprs ss rhs) ++ (← inExprs (if op == ":=" then none else ss) lhs)
  | .call _ _ x => inExpr ss x
  | .ret _ xs => inExprs ss xs
  | .block _ b => inBlock ss b
  | .cond _ init test body alternative => do
    let outer ← ss.nest
    let inner := outer.declareNames (declaredByOption init)
    return (← inStmtOption outer init) ++ (← inExpr inner test) ++ (← inBlock inner body) ++
      (← inStmtOption inner alternative)
  | .case _ values _ body => do return (← inExprs ss values) ++ (← inStmts (← ss.nest) body)
  | .switch _ init tag body => do
    let outer ← ss.nest
    let inner := outer.declareNames (declaredByOption init)
    let inner ← if init.isSome && tag.isSome then inner.nest else some inner
    return (← inStmtOption outer init) ++ (← inOption inner tag) ++ (← inBody inner body)
  | .typeSwitch _ init guard body => do
    let outer ← if init.isSome then ss.nest else some ss
    let inner ← (outer.declareNames (declaredByOption init)).nest
    return (← inStmtOption outer init) ++ (← inStmt inner guard) ++
      (← inBody (inner.declareNames (declaredBy guard)) body)
  | .comm _ action _ body => do
    let inner ← ss.nest
    return (← inStmtOption inner action) ++
      (← inStmts (inner.declareNames (declaredByOption action)) body)
  | .select _ body => inBody ss body
  | .loop _ init test post body => do
    let outer ← ss.nest
    let inner := outer.declareNames (declaredByOption init)
    return (← inStmtOption outer init) ++ (← inOption inner test) ++
      (← inStmtOption inner post) ++
      (← inBlock (inner.declareNames (declaredByOption post)) body)
  | .range _ key value _ op x body => do
    let inner ← ss.nest
    let names := if op == ":=" then exprNames (key.toList ++ value.toList) else []
    return (← inExpr inner x) ++ (← inOption inner key) ++ (← inOption inner value) ++
      (← inBlock (inner.declareNames names) body)

def inGroup (ss : Scopes) : Group → Option (List Reference)
  | .mk _ _ _ _ specs _ => inSpecs ss specs

def inSpecs (ss : Scopes) : List Spec → Option (List Reference)
  | [] => some []
  | .imported .. :: rest => inSpecs ss rest
  | .value _ ns t vs _ :: rest => do
    return (← inExprs ss vs) ++ (← inOption ss t) ++
      (← inSpecs (ss.declareNames (ns.map Name.text)) rest)
  | .type _ n none _ t _ :: rest => do
    let ss := ss.declareNames [n.text]
    return (← inExpr ss t) ++ (← inSpecs ss rest)
  | .type _ n (some ps) _ t _ :: rest => do
    let ss ← (ss.declareNames [n.text]).nest
    let ss := ss.declareNames (fieldNames ps.fields)
    return (← inFieldList ss ps) ++ (← inExpr ss t) ++ (← inSpecs ss rest)

end

/-- The type that a receiver names, and the parameters that it has there. -/
def receiverParts : Expr → Expr × List Expr
  | .star _ (.index _ x _ xs _) | .index _ x _ xs _ => (x, xs)
  | .star _ x | x => (x, [])

def declNames : Decl → List String
  | .group g => specNames g.specs
  | .function _ _ receiver n _ _ =>
    if receiver.isNone && n.text != "init" then [n.text] else []

def inDecl (ss : Scopes) : Decl → Option (List Reference)
  | .group g => inGroup ss g
  | .function _ _ receiver _ s body => do
    let types := (receiver.map (·.fields)).getD [] |>.map Field.type
    let (type, params) := ((types.head?).map receiverParts).getD (.name default, [])
    let ss := (← ss.nest).declare ((exprNames params).map fun n => ⟨n, false⟩)
    let .mk tps _ _ := s
    let inner := (ss.declareNames (listNames tps)).declareNames
      (listNames receiver ++ parameterNames s)
    return (← inExpr ss type) ++ (← inExprs ss params) ++ (← inExprs ss types.tail) ++
      (← inSignature ss s) ++
      (match ← body.mapM (inBody inner) with
      | some refs => refs
      | none => [])

/-- All references of a file, unless its scopes are nested too deeply. -/
def references? (f : File) : Option (List Reference) := do
  let ss := Scopes.declareNames (f.decls.flatMap declNames) (some [[]])
  return (← f.decls.mapM (inDecl ss)).flatten

def likelyReferences (f : File) : List Reference :=
  ((f.decls.mapM (inDecl none)).getD []).flatten

end ReactiveModel.Imports
