import ReactiveModel.Source.DocSpan
import ReactiveModel.Source.DocText
import ReactiveModel.Source.Tree

/-! Documentation comments in their canonical form. The text of a comment is a sequence of
paragraphs, headings, lists and preformatted blocks; definitions of links are collected behind
them, first the ones in use. -/

namespace ReactiveModel.Source

structure DocItem where
  number : Option String
  paragraphs : List String

inductive DocBlock
  | paragraph (text : String)
  | heading (text : String)
  | code (lines : List String)
  | list (apart loose : Bool) (items : List DocItem)

structure DocBody where
  blocks : List DocBlock := []
  links : List LinkDef := []

def paragraphOf (lines : List String) : List LinkDef × Option String :=
  match lines.mapM LinkDef.read? with
  | some defs => (defs, none)
  | none => ([], some ("\n".intercalate lines))

def paragraphsOf (lines : List String) : List LinkDef × List String :=
  let parts := (lines.splitOn "").map paragraphOf
  (parts.flatMap (·.1), parts.filterMap (·.2))

/-- Splits the lines of a list at the markers that are numbers, or bullets, as the first one is;
the text after a marker is the first line of its item. Lines before the first marker come apart. -/
def splitItems (numbered : Bool) : List String → List String × List (Option String × List String)
  | [] => ([], [])
  | l :: ls =>
    let (lead, items) := splitItems numbered ls
    match listMarker l with
    | some (n, text) =>
      if n.isSome == numbered then ([], (n, Text.trimString text :: lead) :: items)
      else (Text.trimString l :: lead, items)
    | none => (Text.trimString l :: lead, items)

/-- A list. Blank lines between its lines, or items without exactly one paragraph, make it loose. -/
def DocBlock.ofList (apart : Bool) (lines : List String) : List LinkDef × DocBlock :=
  let numbered := (lines.head?.bind listMarker).any (·.1.isSome)
  let parts := (splitItems numbered lines).2.map fun (n, ls) => (n, paragraphsOf ls)
  let items := parts.map fun (n, _, ps) => ⟨n, ps⟩
  let loose := lines.any (·.isEmpty) || items.any fun i => i.paragraphs.length != 1
  (parts.flatMap fun (_, defs, _) => defs, .list (apart || loose) loose items)

def DocBlock.ofSpan (s : DocSpan) : List LinkDef × Option DocBlock :=
  match s.kind with
  | .code => ([], some (.code (unindent s.lines)))
  | .heading =>
    let text := String.ofList (s.lines.flatMap (·.toList.drop 1))
    ([], some (.heading (Text.trimString text)))
  | .title => ([], some (.heading (Text.trimString (String.join s.lines))))
  | .list => let (defs, b) := DocBlock.ofList s.apart s.lines; (defs, some b)
  | .paragraph => let (defs, p) := paragraphOf s.lines; (defs, p.map .paragraph)

def DocBody.ofLines (lines : List String) : DocBody :=
  let parts := (DocSpan.split false 0 (unindent lines)).map DocBlock.ofSpan
  ⟨parts.filterMap (·.2), parts.flatMap (·.1)⟩

/-! Writing. -/

def DocBlock.texts : DocBlock → List String
  | .paragraph t => [t]
  | .list _ _ items => items.flatMap (·.paragraphs)
  | _ => []

def DocItem.write (defs : List LinkDef) (i : DocItem) : String :=
  let mark := match i.number with
    | none => "  - "
    | some n => " " ++ n ++ ". "
  let paragraph (p : String) : String :=
    "\n    ".intercalate ((linkedText defs p).1.splitOn "\n") ++ "\n"
  mark ++ "\n    ".intercalate (i.paragraphs.map paragraph)

def DocBlock.write (defs : List LinkDef) : DocBlock → String
  | .paragraph t => (linkedText defs t).1 ++ "\n"
  | .heading t => "# " ++ t ++ "\n"
  | .code ls => String.join (ls.map fun l => if l.isEmpty then "\n" else "\t" ++ l ++ "\n")
  | .list _ loose items => (if loose then "\n" else "").intercalate (items.map (·.write defs))

/-- Blocks are separated by blank lines; a list may follow without one. -/
def DocBlock.apart : DocBlock → Bool
  | .list apart _ _ => apart
  | _ => true

def markUsed : List LinkDef → List String → List (LinkDef × Bool)
  | [], _ => []
  | d :: ds, used => (d, used.contains d.text) :: markUsed ds (used.filter (· != d.text))

def writeLinks (defs : List LinkDef) : String :=
  if defs.isEmpty then ""
  else "\n" ++ String.join (defs.map fun d => "[" ++ d.text ++ "]: " ++ d.url ++ "\n")

def DocBody.write (d : DocBody) : String :=
  let blocks := match d.blocks with
    | [] => ""
    | b :: bs => b.write d.links ++ String.join (bs.map fun b =>
        (if b.apart then "\n" else "") ++ b.write d.links)
  let used := d.blocks.flatMap fun b => b.texts.flatMap fun t => (linkedText d.links t).2
  let (inUse, others) := (markUsed d.links used).partition (·.2)
  blocks ++ writeLinks (inUse.map (·.1)) ++ writeLinks (others.map (·.1))

def docText (lines : List String) : String := (DocBody.ofLines lines).write

/-! Comments. -/

/-- Comments addressed to tools: `//word:word` and a few fixed forms. -/
def isDirective (body : String) : Bool :=
  if body.startsWith "line " || body.startsWith "extern " || body.startsWith "export " then true
  else
    let small (c : Char) : Bool := ('a' ≤ c && c ≤ 'z') || ('0' ≤ c && c ≤ '9')
    match body.toList.span small with
    | (_ :: _, ':' :: c :: _) => small c
    | _ => false

def dropFront (n : Nat) (s : String) : String := String.ofList (s.toList.drop n)

/-- A general comment with an asterisk at the start of each of its lines but the first. -/
def isStarred (text : String) : Bool :=
  (text.splitOn "\n").drop 1 |>.all fun l =>
    (l.toList.dropWhile fun c => c == ' ' || c == '\t').head? == some '*'

def textLines (s : String) : List String :=
  let ls := s.splitOn "\n"
  if ls.getLast? == some "" then ls.dropLast else ls

/-- A comment that leads a declaration, in canonical form; it may vanish. -/
def canonicalDoc (group : List Comment) : List Comment :=
  match group with
  | [] => []
  | first :: more =>
    if first.text.startsWith "/*" then
      let inner := (dropFront 2 first.text).toList.dropLast.dropLast
      let lines := (String.ofList inner).splitOn "\n"
      if !more.isEmpty || lines.length ≤ 1 || isStarred first.text then group
      else [{ first with text := "/*\n" ++ docText lines ++ "*/" }]
    else if group.any fun c => !c.text.startsWith "//" then group
    else
      let bodies := group.map fun c => dropFront 2 c.text
      let text := (bodies.filter (!isDirective ·)).map fun b =>
        if b.startsWith " " then dropFront 1 b else b
      if text.isEmpty then group
      else
        let shown := (textLines (docText text)).map fun l =>
          if l.isEmpty then "//" else if l.startsWith "\t" then "//" ++ l else "// " ++ l
        let directives := (bodies.filter isDirective).map ("//" ++ ·)
        let all := if directives.isEmpty then shown else shown ++ "//" :: directives
        all.map fun t => { first with text := t }

end ReactiveModel.Source
