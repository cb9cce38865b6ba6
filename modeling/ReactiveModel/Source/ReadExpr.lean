import ReactiveModel.Source.Reader

/-! Types and expressions. -/

namespace ReactiveModel.Source

open Reader

def spanOf (a b : Expr) : Span := ⟨a.span.start, b.span.stop⟩

def indexExpr (x : Expr) (lbrack : Pos) (args : List Expr) (rbrack : Pos) : Reader Expr :=
  if args.isEmpty then failure
  else return .index ⟨x.span.start, after rbrack⟩ x lbrack args rbrack

namespace Grammar

variable (g : Grammar)

/-! Types. -/

def typeName (first : Option Name) : Reader Expr := do
  let n ← match first with
    | some n => pure n
    | none => name
  if ← isOp "." then
    next
    let sel ← name
    return .selector ⟨n.span.start, sel.span.stop⟩ (.name n) sel
  else return .name n

def typeArgs : Reader (List Expr) := do
  many (do
    if ← isOp "]" then return none
    else
      let t ← g.type
      if ← more "]" then next
      return some t) (← bound)

def typeInstance (t : Expr) : Reader Expr := do
  let lbrack ← op "["
  let args ← nested g.typeArgs
  let rbrack ← op "]"
  indexExpr t lbrack args rbrack

def qualified (first : Option Name) : Reader Expr := do
  let t ← typeName first
  if ← isOp "[" then g.typeInstance t else return t

def arrayType (lbrack : Pos) (len : Option Expr) : Reader Expr := do
  let len ← match len with
    | some l => pure (some l)
    | none => nested do
      if ← isOp "..." then
        let p ← pos
        next
        return some (.ellipsis ⟨p, after (after (after p))⟩ none)
      else if ← isOp "]" then return none
      else return some (← g.rhs)
  let _ ← op "]"
  let elem ← g.type
  return .array ⟨lbrack, elem.span.stop⟩ len elem

/-- A name followed by a bracket: an array type for that name, or an instance of a generic type. -/
def arrayOrInstance (n : Name) : Reader (Option Name × Expr) := do
  let lbrack ← op "["
  let args ← nested do
    if ← isOp "]" then return []
    else
      let x ← g.rhs
      let xs ← many (do
        if ← isOp "," then
          next
          if ← isOp "]" then return none else return some (← g.rhs)
        else return none) (← bound)
      return x :: xs
  let trailing := (← lastKind) == .operator ","
  let rbrack ← op "]"
  match args with
  | [] =>
    let elem ← g.type
    return (some n, .array ⟨lbrack, elem.span.stop⟩ none elem)
  | [x] =>
    match ← g.type? with
    | some elem =>
      if trailing then failure
      else return (some n, .array ⟨lbrack, elem.span.stop⟩ (some x) elem)
    | none => return (none, ← indexExpr (.name n) lbrack args rbrack)
  | _ => return (none, ← indexExpr (.name n) lbrack args rbrack)

def fieldDecl : Reader Field := do
  let (names, type) ← do
    if ← isOp "*" then
      let p ← pos
      next
      let t ← g.qualified none
      pure (([] : List Name), Expr.star ⟨p, t.span.stop⟩ t)
    else
      let n ← name
      match ← kind with
      | .operator "." => pure ([], ← g.qualified (some n))
      | .string | .semicolon _ | .operator "\x7d" => pure ([], .name n)
      | _ =>
        let more ← many (do
          if ← isOp "," then
            next
            return some (← name)
          else return none) (← bound)
        if more.isEmpty && (← isOp "[") then
          let (n?, t) ← g.arrayOrInstance n
          pure (n?.toList, t)
        else pure (n :: more, ← g.type)
  let tag ← do
    let t ← token
    if t.kind == .string then
      next
      pure (some (Expr.literal ⟨t.pos, t.stop⟩ t.kind t.text))
    else pure none
  let start := match names with
    | n :: _ => n.span.start
    | [] => type.span.start
  let stop := match tag with
    | some t => t.span.stop
    | none => type.span.stop
  let tail ← semicolon
  return .mk ⟨start, stop⟩ names type tag !tail.isEmpty

def recordType : Reader Expr := do
  let p ← word "struct"
  let lbrace ← op "\x7b"
  let fields ← many (do
    match ← kind with
    | .ident | .operator "*" => return some (← g.fieldDecl)
    | _ => return none) (← bound)
  let rbrace ← op "\x7d"
  return .record ⟨p, after rbrace⟩ lbrace fields rbrace

def unionTerm : Reader Expr := do
  if ← isOp "~" then
    let p ← pos
    next
    let t ← g.type
    return .unary ⟨p, t.span.stop⟩ "~" t
  else g.type

def unionType (first : Option Expr) : Reader Expr := do
  let x ← match first with
    | some x => pure x
    | none => g.unionTerm
  iterate (fun x => do
    if ← isOp "|" then
      let p ← pos
      next
      let y ← g.unionTerm
      return some (.binary (spanOf x y) x p "|" y)
    else return none) (← bound) x

def parameter (first : Option Name) (unions : Bool) : Reader (Option Name × Option Expr) := do
  let variadic : Reader Expr := do
    let p ← op "..."
    let t ← g.type
    return .ellipsis ⟨p, t.span.stop⟩ (some t)
  let joined (t : Expr) : Reader Expr := do
    if unions && (← isOp "|") then g.unionType (some t) else return t
  let named (n : Name) : Reader (Option Name × Option Expr) := do
    match ← kind with
    | .ident | .operator "*" | .operator "<-" | .keyword "func" | .keyword "chan" | .keyword "map"
    | .keyword "struct" | .keyword "interface" | .operator "(" =>
      return (some n, some (← joined (← g.type)))
    | .operator "[" =>
      let (n?, t) ← g.arrayOrInstance n
      return (n?, some (← joined t))
    | .operator "..." => return (some n, some (← variadic))
    | .operator "." => return (none, some (← joined (← g.qualified (some n))))
    | .operator "~" =>
      if unions then return (some n, some (← g.unionType none)) else return (some n, none)
    | .operator "|" =>
      if unions then return (none, some (← g.unionType (some (.name n)))) else return (some n, none)
    | _ => return (some n, none)
  match first with
  | some n => named n
  | none =>
    match ← kind with
    | .ident => named (← name)
    | .operator "~" => if unions then return (none, some (← g.unionType none)) else failure
    | .operator "..." => return (none, some (← variadic))
    | .operator "*" | .operator "<-" | .operator "[" | .operator "(" | .keyword "func"
    | .keyword "chan" | .keyword "map" | .keyword "struct" | .keyword "interface" =>
      return (none, some (← joined (← g.type)))
    | _ => failure

/-- Gathers names that share the type of the last one. -/
def gatherNames : List (Option Name × Option Expr) → List Name → Option (List Field)
  | [], [] => some []
  | [], _ :: _ => none
  | (none, _) :: _, _ => none
  | (some n, none) :: rest, names => gatherNames rest (names ++ [n])
  | (some n, some t) :: rest, names =>
    let all := names ++ [n]
    let start := match all with
      | m :: _ => m.span.start
      | [] => t.span.start
    (gatherNames rest []).map (Field.mk ⟨start, t.span.stop⟩ all t none false :: ·)

/-- The parameters up to a closing mark: either all are named, or all are types. -/
def parameters (closing : String) (first : Option (Name × Option Expr)) : Reader (List Field) := do
  let unions := closing == "]"
  let start ← match first with
    | some (n, some t) => pure [(some n, some (← if unions then g.unionType (some t) else pure t))]
    | some (n, none) => pure [← g.parameter (some n) unions]
    | none => pure []
  let go ← if start.isEmpty then pure true else do
    let m ← more closing
    if m then next
    pure m
  let others : Reader (Option (Option Name × Option Expr)) := do
    if ← isOp closing then return none
    else
      let p ← g.parameter none unions
      if ← more closing then next
      return some p
  let rest ← if go then many others (← bound) else pure []
  let list := start ++ rest
  if list.any fun p => p.1.isSome && p.2.isSome then
    match gatherNames list [] with
    | some fs => return fs
    | none => failure
  else if unions && !list.isEmpty then failure
  else
    return list.filterMap fun p =>
      match p with
      | (some n, _) => some (Field.mk n.span [] (.name n) none false)
      | (none, some t) => some (Field.mk t.span [] t none false)
      | (none, none) => none

def paramList : Reader FieldList := do
  let lparen ← op "("
  let fs ← g.parameters ")" none
  let rparen ← op ")"
  return .mk lparen fs rparen

def results : Reader (Option FieldList) := do
  if ← isOp "(" then return some (← g.paramList)
  else
    match ← g.type? with
    | some t => return some (.mk Pos.none [Field.mk t.span [] t none false] Pos.none)
    | none => return none

def stopOf (params : FieldList) (results : Option FieldList) : Pos :=
  match results with
  | none => after params.closing
  | some r =>
    if r.closing.isSome then after r.closing
    else match r.fields.getLast? with
      | some f => f.span.stop
      | none => after params.closing

def functionType : Reader (Span × Signature) := do
  let p ← word "func"
  let params ← g.paramList
  let res ← g.results
  return (⟨p, stopOf params res⟩, .mk none params res)

def method : Reader (List Name × Expr × Pos) := do
  let x ← typeName none
  match x with
  | .name n =>
    if ← isOp "(" then
      let params ← g.paramList
      let res ← g.results
      let stop := stopOf params res
      return ([n], .functionType ⟨params.opening, stop⟩ (.mk none params res), n.span.start)
    else if ← isOp "[" then
      let lbrack ← pos
      next
      let y ← nested g.expr
      let rest ← if ← more "]" then do
          next
          nested g.typeArgs
        else pure []
      let rbrack ← op "]"
      return ([], ← indexExpr x lbrack (y :: rest) rbrack, n.span.start)
    else return ([], x, n.span.start)
  | _ =>
    let t ← if ← isOp "[" then g.typeInstance x else pure x
    return ([], t, t.span.start)

def interfaceType : Reader Expr := do
  let p ← word "interface"
  let lbrace ← op "\x7b"
  let embedded (t : Expr) : Reader (Option Field) := do
    let tail ← semicolon
    return some (.mk t.span [] t none !tail.isEmpty)
  let methods ← many (do
    match ← kind with
    | .ident =>
      let (names, t, start) ← g.method
      if names.isEmpty then embedded (← g.unionType (some t))
      else
        let tail ← semicolon
        return some (.mk ⟨start, t.span.stop⟩ names t none !tail.isEmpty)
    | .operator "~" => embedded (← g.unionType none)
    | _ =>
      match ← g.type? with
      | some t => embedded (← g.unionType (some t))
      | none => return none) (← bound)
  let rbrace ← op "\x7d"
  return .interface ⟨p, after rbrace⟩ lbrace methods rbrace

def channelType : Reader Expr := do
  let p ← pos
  if ← isOp "<-" then
    next
    let _ ← word "chan"
    let v ← g.type
    return .channel ⟨p, v.span.stop⟩ .receive p v
  else
    let _ ← word "chan"
    if ← isOp "<-" then
      let arrow ← pos
      next
      let v ← g.type
      return .channel ⟨p, v.span.stop⟩ .send arrow v
    else
      let v ← g.type
      return .channel ⟨p, v.span.stop⟩ .both Pos.none v

def typeBody? : Reader (Option Expr) := do
  match ← kind with
  | .ident => return some (← g.qualified none)
  | .operator "[" =>
    let lbrack ← pos
    next
    return some (← g.arrayType lbrack none)
  | .keyword "struct" => return some (← g.recordType)
  | .operator "*" =>
    let p ← pos
    next
    let t ← g.type
    return some (.star ⟨p, t.span.stop⟩ t)
  | .keyword "func" =>
    let (s, sig) ← g.functionType
    return some (.functionType s sig)
  | .keyword "interface" => return some (← g.interfaceType)
  | .keyword "map" =>
    let p ← pos
    next
    let _ ← op "["
    let k ← g.type
    let _ ← op "]"
    let v ← g.type
    return some (.map ⟨p, v.span.stop⟩ k v)
  | .keyword "chan" | .operator "<-" => return some (← g.channelType)
  | .operator "(" =>
    let p ← pos
    next
    let t ← g.type
    let rparen ← op ")"
    return some (.paren ⟨p, after rparen⟩ t rparen)
  | _ => return none

/-! Expressions. -/

def block : Reader Block := do
  let lbrace ← op "\x7b"
  let stmts ← many (do
    match ← kind with
    | .keyword "case" | .keyword "default" | .operator "\x7d" | .eof => return none
    | _ => return some (← g.stmt)) (← bound)
  let rbrace ← op "\x7d"
  return .mk lbrace stmts rbrace

def operand : Reader Expr := do
  let t ← token
  match t.kind with
  | .ident => return .name (← name)
  | .int | .float | .imaginary | .char | .string =>
    next
    return .literal ⟨t.pos, t.stop⟩ t.kind t.text
  | .operator "(" =>
    next
    let x ← nested g.rhs
    let rparen ← op ")"
    return .paren ⟨t.pos, after rparen⟩ x rparen
  | .keyword "func" =>
    let (s, sig) ← g.functionType
    if ← isOp "\x7b" then
      let b ← nested g.block
      return .function ⟨s.start, after b.rbrace⟩ sig b
    else return .functionType s sig
  | _ => g.type

def elementValue : Reader Expr := do
  if ← isOp "\x7b" then g.literalValue none else g.expr

def literalBody (type : Option Expr) : Reader Expr := do
  let lbrace ← op "\x7b"
  let elements ← nested do
    many (do
      if ← isOp "\x7d" then return none
      else
        let x ← g.elementValue
        let e ← if ← isOp ":" then do
            let colon ← pos
            next
            let v ← g.elementValue
            pure (Expr.pair (spanOf x v) x colon v)
          else pure x
        if ← more "\x7d" then next
        return some e) (← bound)
  let rbrace ← op "\x7d"
  let start := match type with
    | some t => t.span.start
    | none => lbrace
  return .composite ⟨start, after rbrace⟩ type lbrace elements rbrace

def indexOrSlice (x : Expr) : Reader Expr := do
  let lbrack ← op "["
  let at_ (p : Pos) : Span := ⟨x.span.start, after p⟩
  let bound? : Reader (Option Expr) := do
    match ← kind with
    | .operator ":" | .operator "]" => return none
    | _ => return some (← g.rhs)
  modify fun s => { s with level := s.level + 1 }
  let first ← bound?
  match ← kind with
  | .operator ":" =>
    next
    let high ← bound?
    let full ← isOp ":"
    let max ← if full then do next; bound? else pure none
    modify fun s => { s with level := s.level - 1 }
    let rbrack ← op "]"
    if full && (high.isNone || max.isNone) then failure
    else return .slice (at_ rbrack) x lbrack first high max rbrack
  | .operator "," =>
    let rest ← many (do
      if ← isOp "," then
        next
        if ← isOp "]" then return none else return some (← g.type)
      else return none) (← bound)
    modify fun s => { s with level := s.level - 1 }
    let rbrack ← op "]"
    match first with
    | some i => indexExpr x lbrack (i :: rest) rbrack
    | none => failure
  | _ =>
    modify fun s => { s with level := s.level - 1 }
    let rbrack ← op "]"
    indexExpr x lbrack first.toList rbrack

def callArgs (x : Expr) : Reader Expr := do
  let lparen ← op "("
  let (args, ellipsis) ← nested do
    let step : List Expr × Pos → Reader (Option (List Expr × Pos)) := fun (args, dots) => do
      if dots.isSome || (← isOp ")") then return none
      else
        let a ← g.rhs
        let dots ← if ← isOp "..." then do
            let p ← pos
            next
            pure p
          else pure Pos.none
        if ← more ")" then next
        return some (args ++ [a], dots)
    iterate step (← bound) ([], Pos.none)
  let rparen ← op ")"
  return .call ⟨x.span.start, after rparen⟩ x lparen args ellipsis rparen

/-- Whether a brace after this expression may open a composite literal, given whether the
expression stands in the header of a control clause. -/
def mayBeLiteralType (inHeader : Bool) : Expr → Bool
  | .name _ | .selector _ _ _ | .index _ _ _ _ _ => !inHeader
  | .array _ _ _ | .record _ _ _ _ | .map _ _ _ => true
  | _ => false

def unparen : Expr → Expr
  | .paren _ x _ => unparen x
  | x => x

/-- Selectors, calls, indices and literal bodies behind an operand. -/
def primaryStep (x : Expr) : Reader (Option Expr) := do
  match ← kind with
  | .operator "." =>
    next
    if ← isOp "(" then
      let lparen ← pos
      next
      let t ← if ← isWord "type" then do
          next
          pure none
        else pure (some (← g.type))
      let rparen ← op ")"
      return some (.assertion ⟨x.span.start, after rparen⟩ x lparen t rparen)
    else
      let sel ← name
      return some (.selector ⟨x.span.start, sel.span.stop⟩ x sel)
  | .operator "[" => return some (← g.indexOrSlice x)
  | .operator "(" => return some (← g.callArgs x)
  | .operator "\x7b" =>
    if mayBeLiteralType ((← get).level < 0) (unparen x) then
      match x with
      | .paren _ _ _ => failure
      | _ => return some (← g.literalValue (some x))
    else return none
  | _ => return none

def primary (x : Expr) : Reader Expr := do
  iterate g.primaryStep (← bound) x

/-- Moves a leading arrow into the channel type behind it. -/
def receiveFrom (arrow : Pos) : Expr → Option Expr
  | .channel s .both _ v => some (.channel ⟨arrow, s.stop⟩ .receive arrow v)
  | .channel s .send inner v =>
    match receiveFrom inner v with
    | some v' => some (.channel ⟨arrow, s.stop⟩ .receive arrow v')
    | none => none
  | _ => none

def unaryBody : Reader Expr := do
  let t ← token
  match t.kind with
  | .operator "*" =>
    next
    let x ← g.unary
    return .star ⟨t.pos, x.span.stop⟩ x
  | .operator "<-" =>
    next
    let x ← g.unary
    match x with
    | .channel _ _ _ _ =>
      match receiveFrom t.pos x with
      | some y => return y
      | none => failure
    | _ => return .unary ⟨t.pos, x.span.stop⟩ "<-" x
  | .operator s =>
    if ["+", "-", "!", "^", "&", "~"].contains s then
      next
      let x ← g.unary
      return .unary ⟨t.pos, x.span.stop⟩ s x
    else g.primary (← g.operand)
  | _ => g.primary (← g.operand)

def binaryFrom (prec : Nat) (x : Expr) : Reader Expr := do
  iterate (fun x => do
    let t ← token
    match t.kind with
    | .operator "=" => if (← get).rightSide && prec ≤ 3 then failure else return none
    | .operator s =>
      let p := precedence s
      if p == 0 || p < prec then return none
      else
        next
        let y ← g.binary (p + 1)
        return some (.binary (spanOf x y) x t.pos s y)
    | _ => return none) (← bound) x

def binaryBody (prec : Nat) : Reader Expr := do
  g.binaryFrom prec (← g.unary)

end Grammar

end ReactiveModel.Source
