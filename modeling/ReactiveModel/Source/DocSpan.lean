import ReactiveModel.Text.Letter
import ReactiveModel.Text.Printable

/-! Spans of documentation: runs of lines that form a paragraph, a heading, a list or a
preformatted block. Blank lines are empty, and indentation tells lists and preformatted blocks
from paragraphs. -/

namespace ReactiveModel.Source

def leadingSpace (s : String) : List Char := s.toList.takeWhile fun c => c == ' ' || c == '\t'

def isIndented (s : String) : Bool := !(leadingSpace s).isEmpty

def commonStart : List Char → List Char → List Char
  | a :: as, b :: bs => if a == b then a :: commonStart as bs else []
  | _, _ => []

def dropEmptyEnds (ls : List String) : List String :=
  ((ls.dropWhile (·.isEmpty)).reverse.dropWhile (·.isEmpty)).reverse

/-- Removes the common indentation and empties lines of white space; empty lines at the ends are
dropped. -/
def unindent (ls : List String) : List String :=
  match dropEmptyEnds ls with
  | [] => []
  | l :: rest =>
    let front := rest.foldl
      (fun p x => if x.isEmpty then p else commonStart p (leadingSpace x)) (leadingSpace l)
    dropEmptyEnds ((l :: rest).map fun x =>
      let cs := if front.isPrefixOf x.toList then x.toList.drop front.length else x.toList
      if cs.all Text.isSpace then "" else String.ofList cs)

/-- A list marker in front of a line: the number of a numbered item, and the text after it. -/
def listMarker (line : String) : Option (Option String × String) :=
  let cs := (Text.trimString line).toList
  let text (r : List Char) : Option String :=
    if r.head?.any (fun c => c == ' ' || c == '\t') && !r.all Text.isSpace then
      some (String.ofList r)
    else none
  match cs with
  | '-' :: r | '*' :: r | '+' :: r | '•' :: r => (text r).map fun t => (none, t)
  | _ =>
    let digits := cs.takeWhile Char.isDigit
    match digits, cs.drop digits.length with
    | _ :: _, '.' :: r | _ :: _, ')' :: r => (text r).map fun t => (some (String.ofList digits), t)
    | _, _ => none

def isListLine (s : String) : Bool := (listMarker s).isSome

def isHeadingLine (s : String) : Bool :=
  match s.toList with
  | '#' :: c :: _ => (c == ' ' || c == '\t') && Text.trimString s != "#"
  | _ => false

def alwaysBefore (c : Char) (ok : List Char → Bool) : List Char → Bool
  | [] => true
  | d :: ds => (d != c || ok ds) && alwaysBefore c ok ds

/-- A line that reads as a heading without a mark: it starts with a capital, ends with a letter or
digit, and has no punctuation but parentheses, commas, hyphens, possessives and inner dots. -/
def isTitle (line : String) : Bool :=
  let cs := (Text.trimString line).toList
  cs.head?.any Text.isCapital &&
    (cs.getLast?.any fun c => Text.isLetter c || Text.isDigit c) &&
    !cs.any ";:!?+*/=[]\x7b\x7d_^°&§~%#@<\">\\".toList.contains &&
    alwaysBefore '\x27' (fun r => r == ['s'] || "s ".toList.isPrefixOf r) cs &&
    alwaysBefore '.' (fun r => !r.isEmpty && r.head? != some ' ') cs

inductive SpanKind | code | heading | list | title | paragraph
deriving DecidableEq

/-- Lines of one kind; `apart` when a blank line stands in front. -/
structure DocSpan where
  kind : SpanKind
  apart : Bool
  lines : List String

/-- Number of lines that continue an indented span. The next `forced` lines count as indented; with
`items`, unindented list items do too, up to the next blank line. -/
def indentedLength (items : Bool) : Nat → List String → Nat
  | _, [] => 0
  | forced, l :: ls =>
    if l.isEmpty || 0 < forced || isIndented l || (items && isListLine l) then
      indentedLength (items && !l.isEmpty) (forced - 1) ls + 1
    else 0

/-- Number of lines after the first one of an indented span. It does not end in blank lines, and a
closing brace right after it belongs to it. -/
def indentedTail (forced : Nat) (l : String) (ls : List String) : Nat :=
  let n := indentedLength (isListLine l && 0 < forced) (forced - 1) ls
  let n := ((ls.take n).reverse.dropWhile (·.isEmpty)).length
  if (ls.drop n).head?.any (·.startsWith "\x7d") then n + 1 else n

/-- How many of the unindented lines at hand, which `next` follows, are meant to be indented: list
items whose last one goes on in an indented line, or the opening line of a piece of code. -/
def misplacedLines (ls : List String) (next : Option String) : Nat :=
  match ls.reverse, next with
  | last :: before, some x =>
    if x.isEmpty || isListLine x then 0
    else if isListLine last then (before.takeWhile isListLine).length + 1
    else if last.endsWith "\x7b" || last.endsWith "\\" then 1
    else 0
  | _, _ => 0

/-- Splits lines into spans. `apart` tells whether the line in front is blank, and the next
`forced` lines count as indented. -/
def DocSpan.split (apart : Bool) (forced : Nat) : List String → List DocSpan
  | [] => []
  | l :: ls =>
    if l.isEmpty then DocSpan.split true (forced - 1) ls
    else
      let flat := (ls.takeWhile fun x => !x.isEmpty && !isIndented x).length
      let misplaced := misplacedLines (l :: ls.take flat) (ls.drop flat).head?
      let whole := misplaced == flat + 1
      if 0 < forced || isIndented l || whole then
        let forced := if 0 < forced || isIndented l then forced else flat + 1
        let n := indentedTail forced l ls
        let kind := if isListLine l then SpanKind.list else .code
        ⟨kind, apart, l :: ls.take n⟩ :: DocSpan.split false (forced - (n + 1)) (ls.drop n)
      else
        let n := flat - misplaced
        let lone := n == 0
        let title := lone && apart && isTitle l && match ls with
          | "" :: x :: _ => !isIndented x
          | _ => false
        let kind := if lone && isHeadingLine l then SpanKind.heading
          else if title then .title else .paragraph
        let forced := if misplaced == 0 then 0 else misplaced
        ⟨kind, apart, l :: ls.take n⟩ :: DocSpan.split false forced (ls.drop n)
termination_by ls => ls.length

end ReactiveModel.Source
