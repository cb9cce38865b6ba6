import ReactiveModel.Text.Letter
import ReactiveModel.Text.Printable
import ReactiveModel.Text.Punctuation

/-! Running text of documentation: addresses, links in brackets, and quotation marks. -/

namespace ReactiveModel.Source

/-! Addresses. -/

def schemes : List String := ["file", "ftp", "gopher", "http", "https", "mailto", "nntp"]

def isAsciiWord (c : Char) : Bool := c.isAlphanum || c == '_'

def isHostChar (c : Char) : Bool := isAsciiWord c || "@-.[]:".toList.contains c

/-- Marks that may stand in an address but not end it. -/
def isStopMark (c : Char) : Bool := ".,:;?!".toList.contains c

def isPathChar (c : Char) : Bool :=
  isAsciiWord c || "$'()*+&#=@~/-[]\x7b\x7d%".toList.contains c

/-- Length of the path of an address, up to the last character that is no stop mark and stands
outside of all brackets. `closers` are the brackets that are to be closed, `n` counts the
characters read and `best` is the length found so far. -/
def pathLength : List Char → List Char → Nat → Nat → Nat
  | [], _, _, best => best
  | c :: cs, closers, n, best =>
    let accept (closers : List Char) : Nat :=
      pathLength cs closers (n + 1) (if closers.isEmpty then n + 1 else best)
    if isStopMark c then pathLength cs closers (n + 1) best
    else if !isPathChar c then best
    else if c == '(' then accept (')' :: closers)
    else if c == '\x7b' then accept ('\x7d' :: closers)
    else if c == '[' then accept (']' :: closers)
    else if c == ')' || c == '\x7d' || c == ']' then
      match closers with
      | [] => best
      | d :: ds => if c == d then accept ds else best
    else accept closers

/-- Length of the address at the front of a text: a known scheme, a host that neither starts nor
ends with a stop mark, and a path. -/
def addressLength (cs : List Char) : Option Nat := do
  let scheme ← schemes.find? fun s => (s ++ "://").toList.isPrefixOf cs
  let rest := cs.drop (scheme.length + 3)
  let c ← rest.head?
  if !isHostChar c || isStopMark c then none
  else
    let host := ((rest.takeWhile isHostChar).reverse.dropWhile isStopMark).length
    return scheme.length + 3 + host + pathLength (rest.drop host) [] 0 0

/-! Words and names. -/

def isWordChar (c : Char) : Bool :=
  if c.toNat < 0x80 then isAsciiWord c else Text.isLetter c

def frontWord (cs : List Char) : List Char :=
  if cs.head?.any Char.isDigit then [] else cs.takeWhile isWordChar

def isCapitalWord (cs : List Char) : Bool :=
  !cs.isEmpty && (frontWord cs).length == cs.length && cs.head?.any Text.isCapital

/-! Quotation marks. -/

def accentsAt : Nat → List Char → Nat
  | _, [] => 0
  | 0, c :: cs => if c == '\x60' then accentsAt 0 cs + 1 else 0
  | n + 1, c :: cs => if n + 1 < c.utf8Size then 0 else accentsAt (n + 1 - c.utf8Size) cs

/-- Writes quotation marks made of two accents or two apostrophes as curly ones. Three accents are
no quotation mark and are kept, with as many bytes after them as there are accents at twice their
offset; with `links`, addresses and words are kept as well. The text at hand starts at byte `at_`
of `whole`, and `kept` of its bytes are still to be kept. -/
def curlyFrom (links : Bool) (whole : List Char) : Nat → Nat → List Char → List Char
  | _, _, [] => []
  | kept, at_, c :: cs =>
    let next := at_ + c.utf8Size
    if 0 < kept then c :: curlyFrom links whole (kept - c.utf8Size) next cs
    else
      let size := String.utf8ByteSize (String.ofList (frontWord (c :: cs)))
      let unit := if links then (addressLength (c :: cs)).getD size else 0
      if 0 < unit then c :: curlyFrom links whole (unit - c.utf8Size) next cs
      else match c, cs with
        | '\x60', '\x60' :: '\x60' :: cs =>
          c :: c :: c :: curlyFrom links whole (accentsAt (2 * at_ + 3) whole) (at_ + 3) cs
        | '\x60', '\x60' :: cs => '“' :: curlyFrom links whole 0 (at_ + 2) cs
        | '\x27', '\x27' :: cs => '”' :: curlyFrom links whole 0 (at_ + 2) cs
        | c, cs => c :: curlyFrom links whole 0 next cs

def curly (links : Bool) (cs : List Char) : List Char := curlyFrom links cs 0 0 cs

/-! Links. -/

structure LinkDef where
  text : String
  url : String

def cutAt (pattern : List Char) : List Char → Option (List Char × List Char)
  | [] => if pattern.isEmpty then some ([], []) else none
  | c :: cs =>
    if pattern.isPrefixOf (c :: cs) then some ([], (c :: cs).drop pattern.length)
    else (cutAt pattern cs).map fun (a, b) => (c :: a, b)

/-- Reads a line `[text]: url`, where the address has a known scheme. -/
def LinkDef.read? (line : String) : Option LinkDef := do
  let (text, rest) ← cutAt "]:".toList line.toList
  match text, rest with
  | '[' :: text, c :: url =>
    if (c == ' ' || c == '\t') && !url.isEmpty then
      let url := Text.trimString (String.ofList url)
      let (scheme, _) ← cutAt "://".toList url.toList
      if schemes.contains (String.ofList scheme) then some ⟨String.ofList text, url⟩ else none
    else none
  | _, _ => none

/-- Packages that a name of one part refers to without being imported. -/
def knownPackages : List String :=
  ["bufio", "bytes", "cmp", "context", "crypto", "embed", "encoding", "errors", "expvar", "flag",
   "fmt", "hash", "html", "image", "io", "iter", "log", "maps", "math", "mime", "net", "os", "path",
   "plugin", "reflect", "regexp", "runtime", "slices", "sort", "strconv", "strings", "structs",
   "sync", "syscall", "testing", "time", "unicode", "unique", "unsafe", "weak"]

def isPathPart (cs : List Char) : Bool :=
  !cs.isEmpty && cs.head? != some '.' && cs.getLast? != some '.' &&
    cs.all fun c => isAsciiWord c || c == '-' || c == '.' || c == '~' || c == '+'

def isPackagePath (cs : List Char) : Bool :=
  if cs.contains '/' then cs.head? != some '-' && (cs.splitOn '/').all isPathPart
  else knownPackages.contains (String.ofList cs)

/-- The text before the last dot, when a capitalized word follows; without a dot nothing is left. -/
def dropLastName (cs : List Char) : Option (List Char) :=
  let name := (cs.reverse.takeWhile (· != '.')).reverse
  if isCapitalWord name then some (cs.take (cs.length - name.length - 1)) else none

def isLinkBorder (c : Option Char) : Bool :=
  c.all fun c => c == ' ' || c == '\t' || c == '\n' || Text.isPunctuation c

def refersToPackage (text : List Char) : Bool :=
  let text := if text.head? == some '*' then text.drop 1 else text
  match dropLastName text with
  | none => isPackagePath text
  | some outer => isPackagePath ((dropLastName outer).getD outer)

structure Linked where
  done : Array Char := #[]
  /-- Text that is read but not written. -/
  plain : Array Char := #[]
  /-- The text after an opening bracket, and the character in front of the bracket. -/
  inside : Option (Array Char × Option Char) := none
  key : Array Char := #[]
  used : List String := []

def Linked.pending (s : Linked) : Array Char :=
  match s.inside with
  | none => s.plain
  | some (t, _) => s.plain.push '[' ++ t

def Linked.step (defs : List LinkDef) (s : Linked) (before : Option Char) (c : Char)
    (after : Option Char) : Linked :=
  if c == '[' then { s with plain := s.pending, inside := some (#[], before) }
  else if c == ']' then
    match s.inside with
    | none => { s with plain := s.plain.push c, key := #[] }
    | some (t, front) =>
      let link (used : List String) : Linked :=
        { done := s.done ++ curly true s.plain.toList ++ '[' :: curly false t.toList ++ [c]
          used := used }
      let key := String.ofList s.key.toList
      if defs.any (·.text == key) then link (key :: s.used)
      else if isLinkBorder front && isLinkBorder after && refersToPackage t.toList then link s.used
      else { s with plain := s.pending.push c, inside := none, key := #[] }
  else
    match s with
    | ⟨done, plain, none, key, used⟩ => ⟨done, plain.push c, none, key, used⟩
    | ⟨done, plain, some (t, front), key, used⟩ =>
      let d := if c == '\n' || c == '\t' then ' ' else c
      ⟨done, plain, some (t.push c, front), key.push d, used⟩

def Linked.run (defs : List LinkDef) : Linked → Option Char → List Char → Linked
  | s, _, [] => s
  | s, before, c :: cs => Linked.run defs (s.step defs before c cs.head?) (some c) cs

def linkedText (defs : List LinkDef) (s : String) : String × List String :=
  let l := Linked.run defs {} none s.toList
  (String.ofList (l.done.toList ++ curly true l.pending.toList), l.used)

end ReactiveModel.Source
