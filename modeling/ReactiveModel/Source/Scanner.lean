import ReactiveModel.Source.Token
import ReactiveModel.Text.Letter

/-! Scanning of Go source. The scanner takes one lexeme at a time off the front of the text, and
every lexeme has at least one character; a malformed lexeme has no reading. -/

namespace ReactiveModel.Source

def isNameStart (c : Char) : Bool := c == '_' || Text.isLetter c

def isNamePart (c : Char) : Bool := isNameStart c || Text.isDigit c

def isName (s : String) : Bool :=
  match s.toList with
  | [] => false
  | c :: cs => isNameStart c && cs.all isNamePart && !isKeyword s

/-! Number literals. -/

def isDecimalDigit (c : Char) : Bool := '0' ≤ c && c ≤ '9'

def isHexDigit (c : Char) : Bool :=
  isDecimalDigit c || ('a' ≤ c && c ≤ 'f') || ('A' ≤ c && c ≤ 'F')

def spanDigits (hex : Bool) (cs : List Char) : List Char × List Char :=
  cs.span fun c => c == '_' || if hex then isHexDigit c else isDecimalDigit c

/-- Every separator stands between two digits, where a base mark counts as a digit. -/
def separatorsOk (hex : Bool) : Bool → Bool → List Char → Bool
  | _, afterSeparator, [] => !afterSeparator
  | afterDigit, afterSeparator, c :: cs =>
    if c == '_' then afterDigit && separatorsOk hex false true cs
    else if isDecimalDigit c || (hex && isHexDigit c) then separatorsOk hex true false cs
    else !afterSeparator && separatorsOk hex false false cs

def scanNumber (cs : List Char) : Option (Kind × List Char × List Char) :=
  let (mark, base, afterMark) : Option Char × Nat × List Char := match cs with
    | '0' :: c :: r =>
      if c == 'x' || c == 'X' then (some c, 16, r)
      else if c == 'o' || c == 'O' then (some c, 8, r)
      else if c == 'b' || c == 'B' then (some c, 2, r)
      else (none, 8, cs)
    | '0' :: [] => (none, 8, cs)
    | _ => (none, 10, cs)
  let hex := base == 16
  let (whole, r₁) := spanDigits hex afterMark
  let (point, fraction, r₂) : Bool × List Char × List Char := match r₁ with
    | '.' :: r => let (f, r') := spanDigits hex r; (true, f, r')
    | r => (false, [], r)
  let hasDigit := (whole ++ fraction).any (· != '_')
  let (exponent, exponentOk, r₃) : List Char × Bool × List Char := match r₂ with
    | c :: r =>
      if c == 'e' || c == 'E' || c == 'p' || c == 'P' then
        let (sign, r') : List Char × List Char := match r with
          | '+' :: q => (['+'], q)
          | '-' :: q => (['-'], q)
          | q => ([], q)
        let (ds, r'') := spanDigits false r'
        let allowed := if c == 'e' || c == 'E' then mark.isNone else hex
        (c :: sign ++ ds, allowed && ds.any (· != '_'), r'')
      else ([], !(hex && point), r₂)
    | [] => ([], !(hex && point), r₂)
  let (unit, r₄) : List Char × List Char := match r₃ with
    | 'i' :: r => (['i'], r)
    | r => ([], r)
  let front : List Char := match mark with
    | some c => ['0', c]
    | none => []
  let body := whole ++ (if point then '.' :: fraction else []) ++ exponent ++ unit
  let isInt := !point && exponent.isEmpty && unit.isEmpty
  let digitsOk := !isInt || base == 16 || whole.all fun c => c == '_' || c.toNat - 48 < base
  let kind := if !unit.isEmpty then Kind.imaginary else if isInt then .int else .float
  if !(point && (base == 8 || base == 2) && mark.isSome) && hasDigit && exponentOk && digitsOk &&
      separatorsOk hex mark.isSome false body then
    some (kind, front ++ body, r₄)
  else none

/-! Quoted literals. -/

def isOctalDigit (c : Char) : Bool := '0' ≤ c && c ≤ '7'

def hexNumber (cs : List Char) : Nat :=
  cs.foldl (fun v c => v * 16 + (Text.hexValue? c).getD 0) 0

def escapeLength (quote : Char) : List Char → Option Nat
  | [] => none
  | c :: cs =>
    if ['a', 'b', 'f', 'n', 'r', 't', 'v', '\\', quote].contains c then some 1
    else if isOctalDigit c then
      match cs with
      | d :: e :: _ =>
        if isOctalDigit d && isOctalDigit e && c ≤ '3' then some 3 else none
      | _ => none
    else
      let digits (n : Nat) : Option Nat :=
        let ds := cs.take n
        if ds.length == n && ds.all isHexDigit then some (hexNumber ds) else none
      if c == 'x' then (digits 2).map fun _ => 3
      else
        let valid (n : Nat) : Option Nat :=
          (digits n).bind fun v => if v.isValidChar then some (n + 1) else none
        if c == 'u' then valid 4 else if c == 'U' then valid 8 else none

/-- The part of an interpreted string after its opening quote, up to and with the closing one;
`skip` counts the characters of a pending escape sequence. -/
def spanString : Nat → List Char → List Char → Option (List Char × List Char)
  | _, _, [] => none
  | skip + 1, acc, c :: cs => spanString skip (c :: acc) cs
  | 0, acc, c :: cs =>
    if c == '"' then some ((c :: acc).reverse, cs)
    else if c == '\n' then none
    else if c == '\\' then
      match escapeLength '"' cs with
      | some n => spanString n (c :: acc) cs
      | none => none
    else spanString 0 (c :: acc) cs

/-- The part of a raw string after its opening quote; carriage returns are dropped. -/
def spanRaw : List Char → List Char → Option (List Char × List Char)
  | _, [] => none
  | acc, c :: cs => if c == '\x60' then some ((c :: acc).reverse, cs) else spanRaw (c :: acc) cs

def spanRune : List Char → Option (List Char × List Char)
  | '\\' :: cs =>
    match escapeLength '\x27' cs with
    | some n =>
      match cs.drop n with
      | '\x27' :: r => some ('\\' :: cs.take n ++ ['\x27'], r)
      | _ => none
    | none => none
  | c :: '\x27' :: r => if c == '\x27' || c == '\n' then none else some ([c, '\x27'], r)
  | _ => none

def spanComment : List Char → List Char → Option (List Char × List Char)
  | _, [] => none
  | acc, '*' :: '/' :: cs => some (('/' :: '*' :: acc).reverse, cs)
  | acc, c :: cs => spanComment (c :: acc) cs

/-! Operators, longest first. -/

def operators : List String :=
  ["<<=", ">>=", "&^=", "...", "&&", "||", "<-", "++", "--", "==", "!=", "<=", ">=", ":=", "+=",
   "-=", "*=", "/=", "%=", "&=", "|=", "^=", "<<", ">>", "&^", "+", "-", "*", "/", "%", "&", "|",
   "^", "<", ">", "=", "!", "(", ")", "[", "]", "\x7b", "\x7d", ",", ".", ":", "~"]

def scanOperator (cs : List Char) : Option String :=
  operators.find? fun op => op.toList.isPrefixOf cs

structure Lexeme where
  kind : Kind
  text : List Char
  taken : Nat

def dropReturns (cs : List Char) : List Char := cs.filter (· != '\r')

/-- Drops the carriage returns of a general comment, given after its opening marks. The last one
between an asterisk and a slash stays, since the comment would end there without it; right after
the opening marks it need not. -/
def dropCommentReturns : Option Char → List Char → List Char
  | _, [] => []
  | before, c :: cs =>
    if c == '\r' && !(before == some '*' && cs.head? == some '/') then dropCommentReturns before cs
    else c :: dropCommentReturns (some c) cs

/-- The text in front of the last colon and the number after it, if it is one. -/
def trailingNumber (cs : List Char) : Option (List Char × Option Nat) :=
  let digits := (cs.reverse.takeWhile (· != ':')).reverse
  if digits.length == cs.length then none
  else
    let n := digits.foldl (fun n c => 10 * n + (c.toNat - '0'.toNat)) 0
    let isNumber := !digits.isEmpty && digits.all isDecimalDigit && n < Nat.pow 2 64
    some (cs.take (cs.length - digits.length - 1), if isNumber then some n else none)

/-- Line and column numbers are positive and have at most 30 bits; from 2⁶³ on they wrap around
and are not limited. -/
def lineNumber? (n : Nat) : Option Int :=
  if 0 < n && n ≤ Nat.pow 2 30 then some n
  else if Nat.pow 2 63 ≤ n then some ((n : Int) - Nat.pow 2 64)
  else none

inductive LineDirective
  | nothing
  | line (n : Int)
  | malformed

namespace LineDirective

/-- The directive of a text, after its mark: without a colon it is an ordinary comment, otherwise
it ends in a line number or in a line and a column number. -/
def ofText (cs : List Char) : LineDirective :=
  match trailingNumber cs with
  | none => .nothing
  | some (_, none) => .malformed
  | some (before, some n) =>
    match trailingNumber before with
    | some (_, some m) =>
      match lineNumber? n, lineNumber? m with
      | some _, some k => .line k
      | _, _ => .malformed
    | _ => ((lineNumber? n).map .line).getD .malformed

/-- The directive of a comment, given with its marks. A directive is a general comment, or a line
comment that starts its line. -/
def ofComment (startsLine : Bool) : List Char → LineDirective
  | '/' :: '*' :: 'l' :: 'i' :: 'n' :: 'e' :: ' ' :: cs => ofText (cs.take (cs.length - 2))
  | '/' :: '/' :: 'l' :: 'i' :: 'n' :: 'e' :: ' ' :: cs =>
    if startsLine then ofText (if cs.getLast? == some '\r' then cs.dropLast else cs) else .nothing
  | _ => .nothing

end LineDirective

def scanLexeme (cs : List Char) : Option Lexeme :=
  match cs with
  | [] => none
  | c :: rest =>
    if isNameStart c then
      let name := c :: rest.takeWhile isNamePart
      let s := String.ofList name
      some ⟨if isKeyword s then .keyword s else .ident, name, name.length⟩
    else if isDecimalDigit c || (c == '.' && (rest.head?.map isDecimalDigit).getD false) then
      (scanNumber cs).map fun (k, t, _) => ⟨k, t, t.length⟩
    else if c == '"' then
      (spanString 0 [] rest).map fun (t, _) => ⟨.string, c :: t, t.length + 1⟩
    else if c == '\x60' then
      (spanRaw [] rest).map fun (t, _) => ⟨.string, c :: dropReturns t, t.length + 1⟩
    else if c == '\x27' then
      (spanRune rest).map fun (t, _) => ⟨.char, c :: t, t.length + 1⟩
    else if c == ';' then some ⟨.semicolon true, [c], 1⟩
    else if c == '/' && rest.head? == some '/' then
      let t := cs.takeWhile (· != '\n')
      some ⟨.comment, dropReturns t, t.length⟩
    else if c == '/' && rest.head? == some '*' then
      (spanComment [] (rest.drop 1)).map fun (t, _) =>
        ⟨.comment, '/' :: '*' :: dropCommentReturns none t, t.length + 2⟩
    else (scanOperator cs).map fun op => ⟨.operator op, op.toList, op.length⟩

def isLayout (c : Char) : Bool := c == ' ' || c == '\t' || c == '\r' || c == '\n'

def takeBytes : Nat → List Char → List Char
  | _, [] => []
  | n, c :: cs => if n < c.utf8Size then [] else c :: takeBytes (n - c.utf8Size) cs

/-- The tokens of a text, and the numbers that lines count from by line directives, with the places
where they begin to count, the last one first. -/
structure Scanned where
  tokens : Array Token := #[]
  numbered : List (Nat × Int) := []

def Scanned.push (s : Scanned) (t : Token) : Scanned := { s with tokens := s.tokens.push t }

/-- All tokens of a text. `pending` holds when the end of the line ends a statement, and `shift` is
how much more a line counts as than it is; the fuel is at least the number of characters. -/
def scanFrom : Nat → List Char → Pos → Bool → Int → Scanned → Option Scanned
  | 0, _, _, _, _, _ => none
  | fuel + 1, cs, pos, pending, shift, out =>
    let lineEnd (p : Pos) : Token := ⟨.semicolon false, "\n", p, p, p.line + shift⟩
    match cs with
    | [] =>
      let out := if pending then out.push (lineEnd pos) else out
      some (out.push ⟨.eof, "", pos, pos, pos.line + shift⟩)
    | c :: rest =>
      if c == '\n' && pending then
        scanFrom fuel rest (pos.step c) false shift (out.push (lineEnd pos))
      else if isLayout c then scanFrom fuel rest (pos.step c) pending shift out
      else
        match scanLexeme cs with
        | none => none
        | some l =>
          let taken := cs.take l.taken
          let next := pos.advance taken
          let text := String.ofList l.text
          let stop := pos.advance (takeBytes (l.text.foldr (·.utf8Size + ·) 0) taken)
          let out := out.push ⟨l.kind, text, pos, stop, pos.line + shift⟩
          if l.kind == .comment then
            let ended := pending && taken.contains '\n'
            let out := if ended then out.push (lineEnd (pos.advance (taken.takeWhile (· != '\n'))))
              else out
            let goOn (shift : Int) (out : Scanned) : Option Scanned :=
              scanFrom fuel (cs.drop l.taken) next (pending && !ended) shift out
            match LineDirective.ofComment (pos.column == 1) taken with
            | .malformed => none
            | .nothing => goOn shift out
            | .line n =>
              let start := if taken[1]? == some '/' then next.step '\n' else next
              goOn (n - start.line) { out with numbered := (start.offset, n) :: out.numbered }
          else scanFrom fuel (cs.drop l.taken) next l.kind.endsStatement shift out

/-- Characters that may stand nowhere in a source text, not even in comments and literals. -/
def isForbidden (c : Char) : Bool := c == '\x00' || c == '\uFEFF'

/-- The tokens of a source text, comments included, or nothing when it has a malformed lexeme.
A byte order mark in front is skipped. -/
def scan (s : String) : Option Scanned :=
  let (cs, start) := match s.toList with
    | '\uFEFF' :: r => (r, Pos.mk 3 1 4)
    | cs => (cs, Pos.first)
  if cs.any isForbidden then none else scanFrom (cs.length + 2) cs start false 0 {}

end ReactiveModel.Source
