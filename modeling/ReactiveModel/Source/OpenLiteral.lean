import ReactiveModel.Source.Tree

/-! Composite literals of named types that no parentheses enclose. In the header of a control
clause such a literal would be read as the block, so parentheses around it have to stay. -/

namespace ReactiveModel.Source

def isTypeName : Expr → Bool
  | .name _ => true
  | .selector _ x _ => isTypeName x
  | _ => false

mutual

/-- Whether an expression has an open literal. Function bodies in it count as well; parentheses
and other literals protect what is in them. -/
def Expr.opens : Expr → Bool
  | .name _ | .literal .. | .paren .. => false
  | .composite _ none _ _ _ => false
  | .composite _ (some t) _ _ _ => isTypeName t
  | .function _ s b => signatureOpens s || blockOpens b
  | .selector _ x _ => x.opens
  | .index _ x _ xs _ => x.opens || exprsOpen xs
  | .slice _ x _ l h m _ => x.opens || optionOpens l || optionOpens h || optionOpens m
  | .assertion _ x _ t _ => x.opens || optionOpens t
  | .call _ f _ xs _ _ => f.opens || exprsOpen xs
  | .star _ x => x.opens
  | .unary _ _ x => x.opens
  | .binary _ x _ _ y => x.opens || y.opens
  | .pair _ k _ v => k.opens || v.opens
  | .ellipsis _ t => optionOpens t
  | .array _ n t => optionOpens n || t.opens
  | .record _ _ fs _ => fieldsOpen fs
  | .interface _ _ fs _ => fieldsOpen fs
  | .functionType _ s => signatureOpens s
  | .map _ k v => k.opens || v.opens
  | .channel _ _ _ v => v.opens

def exprsOpen : List Expr → Bool
  | [] => false
  | x :: xs => x.opens || exprsOpen xs

def optionOpens : Option Expr → Bool
  | none => false
  | some x => x.opens

def fieldOpens : Field → Bool
  | .mk _ _ t _ _ => t.opens

def fieldsOpen : List Field → Bool
  | [] => false
  | f :: fs => fieldOpens f || fieldsOpen fs

def fieldListOpens : FieldList → Bool
  | .mk _ fs _ => fieldsOpen fs

def fieldListOptionOpens : Option FieldList → Bool
  | none => false
  | some l => fieldListOpens l

def signatureOpens : Signature → Bool
  | .mk tps ps rs => fieldListOptionOpens tps || fieldListOpens ps || fieldListOptionOpens rs

def blockOpens : Block → Bool
  | .mk _ ss _ => stmtsOpen ss

def stmtsOpen : List Stmt → Bool
  | [] => false
  | s :: ss => stmtOpens s || stmtsOpen ss

def stmtOptionOpens : Option Stmt → Bool
  | none => false
  | some s => stmtOpens s

def stmtOpens : Stmt → Bool
  | .empty _ | .branch .. => false
  | .declaration _ g => groupOpens g
  | .labeled _ _ _ s => stmtOpens s
  | .expr x => x.opens
  | .send _ c _ v => c.opens || v.opens
  | .increment _ x _ _ => x.opens
  | .assign _ lhs _ _ rhs => exprsOpen lhs || exprsOpen rhs
  | .call _ _ x => x.opens
  | .ret _ xs => exprsOpen xs
  | .block _ b => blockOpens b
  | .cond _ init test body alternative =>
    stmtOptionOpens init || test.opens || blockOpens body || stmtOptionOpens alternative
  | .case _ values _ body => exprsOpen values || stmtsOpen body
  | .switch _ init tag body => stmtOptionOpens init || optionOpens tag || blockOpens body
  | .typeSwitch _ init guard body => stmtOptionOpens init || stmtOpens guard || blockOpens body
  | .comm _ action _ body => stmtOptionOpens action || stmtsOpen body
  | .select _ body => blockOpens body
  | .loop _ init test post body =>
    stmtOptionOpens init || optionOpens test || stmtOptionOpens post || blockOpens body
  | .range _ key value _ _ x body =>
    optionOpens key || optionOpens value || x.opens || blockOpens body

def groupOpens : Group → Bool
  | .mk _ _ _ _ ss _ => specsOpen ss

def specsOpen : List Spec → Bool
  | [] => false
  | s :: ss => specOpens s || specsOpen ss

def specOpens : Spec → Bool
  | .imported .. => false
  | .value _ _ t vs _ => optionOpens t || exprsOpen vs
  | .type _ _ ps _ t _ => fieldListOptionOpens ps || t.opens

end

/-- Drops parentheses around a whole expression unless they protect a literal. -/
def stripParens : Expr → Expr
  | .paren s x r => if x.opens then .paren s x r else stripParens x
  | x => x

end ReactiveModel.Source
