import ReactiveModel.Source.Lines
import ReactiveModel.Source.Tree

/-! The token stream without its comments. Comments are collected in groups, and each token knows
which comments lead it and which end the line in front of it. Lines are those that tokens count
as. -/

namespace ReactiveModel.Source

/-- A token and the comments around it: `lead` are comments that end on the line above the token,
`tail` are comments that stand on the line of the token before it and end that line. -/
structure Item where
  token : Token
  lead : List Comment := []
  tail : List Comment := []
deriving Inhabited

def Token.lastLine (t : Token) : Int := t.line + (t.text.toList.filter (· == '\n')).length

/-- The comments that start at most `gap` lines below the end of the one before, and the rest. -/
def takeGroup (gap : Int) : Int → List Token → List Token × Int × List Token
  | last, [] => ([], last, [])
  | last, c :: cs =>
    if c.line ≤ last + gap then
      let (g, l, r) := takeGroup gap c.lastLine cs
      (c :: g, l, r)
    else ([], last, c :: cs)

/-- Splits comments into groups of adjacent lines; the second part is the last line of the last
group. Each group has at least one comment, so the fuel is the number of comments. -/
def takeGroups : Nat → List Token → List (List Token) × Option Int
  | 0, _ => ([], none)
  | _ + 1, [] => ([], none)
  | fuel + 1, c :: cs =>
    let (g, last, rest) := takeGroup 1 c.line (c :: cs)
    match takeGroups fuel rest with
    | (gs, none) => (g :: gs, some last)
    | (gs, l) => (g :: gs, l)

def Lines.comment (l : Lines) (offset : Nat) (text : String) : Comment :=
  let stop := offset + text.utf8ByteSize
  ⟨l.place offset, text, l.place stop, l.place (stop + 1)⟩

def attach (lines : Lines) (before : Int) (comments : List Token) (t : Token) :
    List (List Comment) × Item :=
  match comments with
  | [] => ([], ⟨t, [], []⟩)
  | c :: _ =>
    let (line, last, rest) :=
      if c.line == before then takeGroup 0 c.line comments else ([], 0, comments)
    let nextLine := (rest.head?.getD t).line
    let ends := match t.kind with
      | .semicolon _ | .eof => rest.isEmpty
      | _ => false
    let trailed := !line.isEmpty && (nextLine != last || ends)
    let (groups, lastLine) := takeGroups (rest.length + 1) rest
    let led := lastLine.any (· + 1 == t.line)
    let place (group : List Token) : List Comment :=
      group.map fun t => lines.comment t.pos.offset t.text
    let line := place line
    let groups := groups.map place
    (if line.isEmpty then groups else line :: groups,
      ⟨t, if led then groups.getLastD [] else [], if trailed then line else []⟩)

def arrange (lines : Lines) : List Token → Int → List Token → Array Item →
    Array (List Comment) → Array Item × Array (List Comment)
  | [], _, _, items, groups => (items, groups)
  | t :: ts, before, pending, items, groups =>
    if t.kind == .comment then arrange lines ts before (t :: pending) items groups
    else
      let (gs, item) := attach lines before pending.reverse t
      arrange lines ts t.line [] (items.push item) (groups ++ gs.toArray)

end ReactiveModel.Source
