import ReactiveModel.Source.Layout

/-! Build constraints. They come in two notations; the first one decides, the other is derived
from it, and both move to the top of the file, right after the last blank line before the code. -/

namespace ReactiveModel.Source

inductive Constraint
  | tag (name : String)
  | not (x : Constraint)
  | and (x y : Constraint)
  | or (x y : Constraint)

namespace Constraint

def isTagChar (c : Char) : Bool := Text.isLetter c || Text.isDigit c || c == '_' || c == '.'

def text : Constraint → String
  | .tag n => n
  | .not x =>
    match x with
    | .and _ _ | .or _ _ => "!(" ++ text x ++ ")"
    | _ => "!" ++ text x
  | .and x y =>
    let arg (c : Constraint) (s : String) : String := match c with
      | .or _ _ => "(" ++ s ++ ")"
      | _ => s
    arg x (text x) ++ " && " ++ arg y (text y)
  | .or x y =>
    let arg (c : Constraint) (s : String) : String := match c with
      | .and _ _ => "(" ++ s ++ ")"
      | _ => s
    arg x (text x) ++ " || " ++ arg y (text y)

def tokens : Nat → List Char → Option (List String)
  | 0, _ => none
  | _, [] => some []
  | fuel + 1, c :: cs =>
    if c == ' ' || c == '\t' then tokens fuel cs
    else match c, cs with
      | '(', r => (tokens fuel r).map ("(" :: ·)
      | ')', r => (tokens fuel r).map (")" :: ·)
      | '!', r => (tokens fuel r).map ("!" :: ·)
      | '&', '&' :: r => (tokens fuel r).map ("&&" :: ·)
      | '|', '|' :: r => (tokens fuel r).map ("||" :: ·)
      | _, _ =>
        let word := (c :: cs).takeWhile isTagChar
        if word.isEmpty then none
        else (tokens fuel ((c :: cs).drop word.length)).map (String.ofList word :: ·)

/-- Reads alternatives (level 2), conjunctions (level 1) and factors (level 0). Chains of one
operator are grouped to the right. -/
def parse : Nat → Nat → List String → Option (Constraint × List String)
  | 0, _, _ => none
  | fuel + 1, 0, ts =>
    match ts with
    | "(" :: r =>
      match parse fuel 2 r with
      | some (x, ")" :: r) => some (x, r)
      | _ => none
    | "!" :: "!" :: _ => none
    | "!" :: r => (parse fuel 0 r).map fun (x, r) => (.not x, r)
    | t :: r => if t.toList.all isTagChar then some (.tag t, r) else none
    | [] => none
  | fuel + 1, level + 1, ts =>
    match parse fuel level ts with
    | some (x, t :: r) =>
      if t == (if level == 0 then "&&" else "||") then
        (parse fuel (level + 1) r).map fun (y, r) =>
          (if level == 0 then .and x y else .or x y, r)
      else some (x, t :: r)
    | found => found

def isJoint (t : String) : Bool := t == "&&" || t == "||" || t == "("

/-- The current notation. An expression may have a thousand operands and groups. -/
def ofGoBuild (text : String) : Option Constraint :=
  if !Lay.isGoBuild text then none
  else
    let cs := (Text.trimString (dropFront 10 text)).toList
    match tokens (cs.length + 1) cs with
    | none => none
    | some ts =>
      if 1000 ≤ (ts.filter isJoint).length then none
      else
        match parse (3 * ts.length + 4) 2 ts with
        | some (x, []) => some x
        | _ => none

def literal (s : String) : Constraint :=
  let valid (t : String) : Constraint :=
    if !t.isEmpty && t.toList.all isTagChar then .tag t else .tag "ignore"
  if s.startsWith "!!" || s == "!" then .tag "ignore"
  else if s.startsWith "!" then .not (valid (dropFront 1 s))
  else valid s

def joinBy (f : Constraint → Constraint → Constraint) : List Constraint → Option Constraint
  | [] => none
  | x :: xs => some (xs.foldl f x)

/-- The older notation: alternatives separated by blanks, conjunctions by commas. A line may join
a hundred times. -/
def ofPlusBuild (text : String) : Option Constraint :=
  if !Lay.isPlusBuild text then none
  else
    let body := (dropFront 6 (Text.trimString (dropFront 2 text))).toList
    let words := ((body.map fun c => if Text.isSpace c then ' ' else c).splitOn ' ').filter
      (!·.isEmpty)
    let clauses := words.map fun w => ((String.ofList w).splitOn ",").map literal
    if 101 < clauses.flatten.length then none
    else (joinBy .or (clauses.filterMap (joinBy .and))).getD (.tag "ignore")

def pushNot : Constraint → Bool → Constraint
  | .tag n, neg => if neg then .not (.tag n) else .tag n
  | .not x, neg => pushNot x (!neg)
  | .and x y, true => .or (pushNot x true) (pushNot y true)
  | .and x y, false => .and (pushNot x false) (pushNot y false)
  | .or x y, true => .and (pushNot x true) (pushNot y true)
  | .or x y, false => .or (pushNot x false) (pushNot y false)

def conjuncts : Constraint → List Constraint
  | .and x y => conjuncts x ++ conjuncts y
  | x => [x]

def disjuncts : Constraint → List Constraint
  | .or x y => disjuncts x ++ disjuncts y
  | x => [x]

def isLiteral : Constraint → Bool
  | .tag _ | .not _ => true
  | _ => false

def plusLines (x : Constraint) : List String :=
  let split := (conjuncts (pushNot x false)).map fun o => (disjuncts o).map conjuncts
  if split.any fun o => o.any fun a => a.any (!isLiteral ·) then
    ["// +build error: expression too complex for // +build lines"]
  else
    let split := if split.all (·.length ≤ 1) then [[split.flatten.flatten]] else split
    split.map fun o => o.foldl
      (fun line a => line ++ " " ++ ",".intercalate (a.map text)) "// +build"

end Constraint

/-! Placement. It works on the characters of the pieces, with a fence, `none`, at both ends of each
word. What stands between two fences is taken as it is, but for one thing: a form feed in a comment
ends the line, and what is moved with the line takes its fence along. -/

def Piece.fenced : Piece → List (Option Char)
  | .word w => none :: w.toList.map some ++ [none]
  | .blank => [some ' ']
  | .tab => [some '\t']
  | .cell => [some '\x0b']
  | .newline => [some '\n']
  | .formfeed => [some '\x0c']

def Piece.ofSpace? (c : Char) : Option Piece :=
  if c == ' ' then some .blank
  else if c == '\t' then some .tab
  else if c == '\x0b' then some .cell
  else if c == '\n' then some .newline
  else if c == '\x0c' then some .formfeed
  else none

/-- The pieces of fenced characters, which start with the letters of `word`, last one first. -/
def piecesOf : Bool → List Char → List (Option Char) → List Piece
  | inside, word, [] => close inside word
  | inside, word, none :: r => close inside word ++ piecesOf (!inside) [] r
  | inside, word, some c :: r =>
    match if inside then none else Piece.ofSpace? c with
    | some p => close inside word ++ p :: piecesOf inside [] r
    | none => piecesOf inside (c :: word) r
where
  close (inside : Bool) (word : List Char) : List Piece :=
    if inside || !word.isEmpty then [.word (String.ofList word.reverse)] else []

def endsLine (c : Option Char) : Bool := c.any Lay.isBreakChar

/-- Number of characters up to the last blank line before something that is not a line comment. -/
def constraintPlace : Nat → List (Option Char) → Nat → Nat → Nat
  | 0, _, _, place => place
  | fuel + 1, cs, passed, place =>
    let lead := (cs.takeWhile fun c => c == some ' ' || c == some '\t').length
    let rest := cs.drop lead
    let comment := if [none, some '/', some '/'].isPrefixOf rest then
        (rest.takeWhile (!endsLine ·)).length else 0
    match rest.drop comment with
    | c :: more =>
      if endsLine c then
        let next := passed + lead + comment + 1
        constraintPlace fuel more next (if comment == 0 then next else place)
      else place
    | [] => place

def frontLine (cs : List (Option Char)) : List (Option Char) :=
  let line := cs.takeWhile (!endsLine ·)
  line ++ (cs.drop line.length).take 1

def frontComment (cs : List (Option Char)) : String :=
  let cs := if cs.head? == some none then cs.drop 1 else cs
  String.ofList ((cs.takeWhile fun c => c.isSome && !endsLine c).filterMap id)

def appendLines (x y : List (Option Char)) : List (Option Char) :=
  let blankEnd := match x.reverse with
    | [] => true
    | a :: b :: _ => endsLine a && endsLine b
    | _ => false
  match y with
  | c :: r => if endsLine c && blankEnd then x ++ r else x ++ y
  | [] => x

def withoutLines (cs : List (Option Char)) :
    List Nat → Nat → List (Option Char) → List (Option Char)
  | [], start, kept => appendLines kept (cs.drop start)
  | i :: rest, start, kept =>
    if i < start then withoutLines cs rest start kept
    else
      withoutLines cs rest (i + (frontLine (cs.drop i)).length)
        (appendLines kept ((cs.drop start).take (i - start)))

/-- Fenced characters with the constraints that start at the given places, in both notations,
brought together. -/
def gatherConstraints (cs : List (Option Char)) (goBuild plusBuild : List Nat) :
    List (Option Char) :=
  let place := constraintPlace (cs.length + 1) cs 0 0
  let earlier (starts : List Nat) : Option Nat := starts.head?.filter (· < place)
  let place := (earlier goBuild <|> earlier plusBuild).getD place
  let x : Option Constraint := match goBuild with
    | [] =>
      (plusBuild.mapM fun i => Constraint.ofPlusBuild (frontComment (cs.drop i))).bind
        (Constraint.joinBy .and)
    | [i] => Constraint.ofGoBuild (frontComment (cs.drop i))
    | _ => none
  let block := match x with
    | none => (goBuild ++ plusBuild).flatMap fun i => frontLine (cs.drop i)
    | some x =>
      let lines := ("//go:build " ++ x.text) :: if plusBuild.isEmpty then [] else x.plusLines
      lines.flatMap fun w => (Piece.word w).fenced ++ [some '\n']
  let tail := withoutLines cs (goBuild ++ plusBuild).mergeSort place []
  let tail := match tail.reverse with
    | a :: b :: r => if endsLine a && endsLine b then (b :: r).reverse else tail
    | _ => tail
  cs.take place ++ block ++ some '\n' :: tail

def placeConstraints (l : Layout) : Array Piece :=
  if l.goBuild.isEmpty && l.plusBuild.isEmpty then l.pieces
  else
    let start (i : Nat) : Nat := ((l.pieces.toList.take i).flatMap Piece.fenced).length
    let cs := gatherConstraints (l.pieces.toList.flatMap Piece.fenced)
      (l.goBuild.toList.map start) (l.plusBuild.toList.map start)
    (piecesOf false [] cs).toArray

end ReactiveModel.Source
