import ReactiveModel.Source.Token

/-! Syntax trees of Go source. Every node carries the span of text it was read from, since the
layout follows the lines of the source. -/

namespace ReactiveModel.Source

structure Span where
  start : Pos
  stop : Pos
deriving Inhabited

structure Name where
  span : Span
  text : String
deriving Inhabited

/-- A comment with its marks: where it starts, where it ends by the bytes of its text, and the
place behind the character after it. -/
structure Comment where
  pos : Pos
  text : String
  stop : Pos := pos
  beyond : Pos := Pos.none
deriving Inhabited

inductive Direction | both | send | receive
deriving DecidableEq

mutual

inductive Expr
  | name (n : Name)
  | literal (span : Span) (kind : Kind) (text : String)
  | function (span : Span) (signature : Signature) (body : Block)
  | composite (span : Span) (type : Option Expr) (lbrace : Pos) (elements : List Expr)
      (rbrace : Pos)
  | paren (span : Span) (x : Expr) (rparen : Pos)
  | selector (span : Span) (x : Expr) (selected : Name)
  | index (span : Span) (x : Expr) (lbrack : Pos) (indices : List Expr) (rbrack : Pos)
  | slice (span : Span) (x : Expr) (lbrack : Pos) (low high max : Option Expr) (rbrack : Pos)
  | assertion (span : Span) (x : Expr) (lparen : Pos) (type : Option Expr) (rparen : Pos)
  | call (span : Span) (callee : Expr) (lparen : Pos) (args : List Expr) (ellipsis rparen : Pos)
  | star (span : Span) (x : Expr)
  | unary (span : Span) (op : String) (x : Expr)
  | binary (span : Span) (x : Expr) (opPos : Pos) (op : String) (y : Expr)
  | pair (span : Span) (key : Expr) (colon : Pos) (value : Expr)
  | ellipsis (span : Span) (type : Option Expr)
  | array (span : Span) (len : Option Expr) (elem : Expr)
  | record (span : Span) (lbrace : Pos) (fields : List Field) (rbrace : Pos)
  | interface (span : Span) (lbrace : Pos) (methods : List Field) (rbrace : Pos)
  | functionType (span : Span) (signature : Signature)
  | map (span : Span) (key value : Expr)
  | channel (span : Span) (direction : Direction) (arrow : Pos) (value : Expr)

inductive Field
  | mk (span : Span) (names : List Name) (type : Expr) (tag : Option Expr) (annotated : Bool)

inductive FieldList
  | mk (opening : Pos) (fields : List Field) (closing : Pos)

inductive Signature
  | mk (typeParams : Option FieldList) (params : FieldList) (results : Option FieldList)

inductive Block
  | mk (lbrace : Pos) (stmts : List Stmt) (rbrace : Pos)

inductive Stmt
  | empty (span : Span)
  | declaration (span : Span) (d : Group)
  | labeled (span : Span) (label : Name) (colon : Pos) (s : Stmt)
  | expr (x : Expr)
  | send (span : Span) (channel : Expr) (arrow : Pos) (value : Expr)
  | increment (span : Span) (x : Expr) (opPos : Pos) (op : String)
  | assign (span : Span) (lhs : List Expr) (opPos : Pos) (op : String) (rhs : List Expr)
  | call (span : Span) (word : String) (x : Expr)
  | ret (span : Span) (results : List Expr)
  | branch (span : Span) (word : String) (label : Option Name)
  | block (span : Span) (b : Block)
  | cond (span : Span) (init : Option Stmt) (test : Expr) (body : Block) (alternative : Option Stmt)
  | case (span : Span) (values : List Expr) (colon : Pos) (body : List Stmt)
  | switch (span : Span) (init : Option Stmt) (tag : Option Expr) (body : Block)
  | typeSwitch (span : Span) (init : Option Stmt) (guard : Stmt) (body : Block)
  | comm (span : Span) (action : Option Stmt) (colon : Pos) (body : List Stmt)
  | select (span : Span) (body : Block)
  | loop (span : Span) (init : Option Stmt) (test : Option Expr) (post : Option Stmt) (body : Block)
  | range (span : Span) (key value : Option Expr) (opPos : Pos) (op : String) (x : Expr)
      (body : Block)

inductive Group
  | mk (documented : Bool) (span : Span) (keyword : String) (lparen : Pos) (specs : List Spec)
      (rparen : Pos)

inductive Spec
  | imported (name : Option Name) (path : Expr) (stop : Pos) (lead tail : List Comment)
  | value (span : Span) (names : List Name) (type : Option Expr) (values : List Expr)
      (annotated : Bool)
  | type (span : Span) (name : Name) (params : Option FieldList) (assign : Pos) (type : Expr)
      (annotated : Bool)

end

inductive Decl
  | group (g : Group)
  | function (documented : Bool) (span : Span) (receiver : Option FieldList) (name : Name)
      (signature : Signature) (body : Option Block)

structure File where
  pos : Pos
  name : Name
  decls : List Decl
  comments : List (List Comment)

def Expr.span : Expr → Span
  | .name n => n.span
  | .literal s _ _ | .function s _ _ | .composite s _ _ _ _ | .paren s _ _ | .selector s _ _
  | .index s _ _ _ _ | .slice s _ _ _ _ _ _ | .assertion s _ _ _ _ | .call s _ _ _ _ _ | .star s _
  | .unary s _ _ | .binary s _ _ _ _ | .pair s _ _ _ | .ellipsis s _ | .array s _ _
  | .record s _ _ _ | .interface s _ _ _ | .functionType s _ | .map s _ _ | .channel s _ _ _ => s

def Expr.isTypeElem : Expr → Bool
  | .array .. | .record .. | .functionType .. | .interface .. | .map .. | .channel .. => true
  | .unary _ op _ => op == "~"
  | .binary _ x _ _ y => x.isTypeElem || y.isTypeElem
  | .paren _ x _ => x.isTypeElem
  | _ => false

def Field.span : Field → Span
  | .mk s _ _ _ _ => s

def Field.type : Field → Expr
  | .mk _ _ t _ _ => t

def Field.names : Field → List Name
  | .mk _ ns _ _ _ => ns

def FieldList.opening : FieldList → Pos
  | .mk p _ _ => p

def FieldList.fields : FieldList → List Field
  | .mk _ fs _ => fs

def FieldList.closing : FieldList → Pos
  | .mk _ _ p => p

def FieldList.count (l : FieldList) : Nat :=
  l.fields.foldl (fun n f => n + max 1 f.names.length) 0

def Block.lbrace : Block → Pos
  | .mk p _ _ => p

def Block.stmts : Block → List Stmt
  | .mk _ ss _ => ss

def Block.rbrace : Block → Pos
  | .mk _ _ p => p

def Stmt.span : Stmt → Span
  | .expr x => x.span
  | .empty s | .declaration s _ | .labeled s _ _ _ | .send s _ _ _ | .increment s _ _ _
  | .assign s _ _ _ _ | .call s _ _ | .ret s _ | .branch s _ _ | .block s _ | .cond s _ _ _ _
  | .case s _ _ _ | .switch s _ _ _ | .typeSwitch s _ _ _ | .comm s _ _ _ | .select s _
  | .loop s _ _ _ _ | .range s _ _ _ _ _ _ => s

def Spec.span : Spec → Span
  | .imported n path stop _ _ =>
    ⟨((n.map Name.span).getD path.span).start, if stop.isSome then stop else path.span.stop⟩
  | .value s _ _ _ _ | .type s _ _ _ _ _ => s

def Group.span : Group → Span
  | .mk _ s _ _ _ _ => s

def Group.keyword : Group → String
  | .mk _ _ k _ _ _ => k

def Group.documented : Group → Bool
  | .mk d _ _ _ _ _ => d

def Group.specs : Group → List Spec
  | .mk _ _ _ _ ss _ => ss

def Decl.span : Decl → Span
  | .group g => g.span
  | .function _ s _ _ _ _ => s

def Decl.documented : Decl → Bool
  | .group g => g.documented
  | .function d _ _ _ _ _ => d

def Decl.keyword : Decl → String
  | .group g => g.keyword
  | .function _ _ _ _ _ _ => "func"

end ReactiveModel.Source
