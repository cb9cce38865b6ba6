import Std.Data.HashMap

/-! Lists of names that are packed into numbers. The names are spelled as a tree of letters. Each
letter is a digit of the number in a base of its own: the letters that may come next share the base
by how often they came under such circumstances before. -/

namespace ReactiveModel.Imports

/-- A blank ends a name, a tilde all names that start like the one before. -/
def signs : List Char :=
  ((List.range 95).map fun n => Char.ofNat (n + 32)).filter fun c =>
    c.isAlphanum || c == '_' || c == ' ' || c == '~'

def mayCome (last c : Char) : Bool := if c == '~' then last != '\x00' else last < c

/-- How often signs came next, by circumstances. -/
abbrev Habits :=
  @Std.HashMap (List Char) (List (Char × Nat)) inferInstance (@instHashableList _ instHashableChar)

namespace Habits

/-- A sign that came next is counted under the closest circumstances, and under wider ones as long
as it is new. -/
def learn (c : Char) : List (List Char) → Habits → Habits
  | [], h => h
  | k :: ks, h =>
    let next := h.getD k []
    match next.lookup c with
    | some n => h.insert k ((c, n + 1) :: next.filter (·.1 != c))
    | none => learn c ks (h.insert k ((c, 1) :: next))

def unit : Nat := 4096

/-- Shares of about a unit, by the codes of signs. Under closer circumstances each sign keeps what
it has there but for four fifths of a case, which go to all by their shares under wider ones. -/
def shares (last : Char) (h : Habits) (circumstances : List (List Char)) : Array Nat :=
  let open_ := signs.filter (mayCome last)
  circumstances.foldr (fun k w =>
    let next := (h.getD k []).filter (mayCome last ·.1)
    let cases := 5 * next.foldl (fun n e => n + e.2) 0
    if next.isEmpty then w
    else next.foldl (fun w e => w.modify e.1.toNat (· + (5 * e.2 - 4) * unit / cases))
      (w.map (· * (4 * next.length) / cases + 1)))
    (open_.foldl (fun w c => w.modify c.toNat (· + unit / open_.length)) (Array.replicate 128 0))

end Habits

/-- Letters up to a capital with a small one before it, where the last letter comes first. -/
def lastWord : List Char → List Char
  | b :: a :: cs => if b.isUpper && !a.isUpper then [b] else b :: lastWord (a :: cs)
  | cs => cs

structure Unpacking where
  rest : Nat
  habits : Habits
  /-- The start of the names to come, last letter first. -/
  start : List Char := []
  /-- The sign that came last after that start. -/
  last : Char := '\x00'
  names : List String := []

namespace Unpacking

/-- From the closest to the widest. -/
def circumstances (u : Unpacking) : List (List Char) :=
  let letters (n : Nat) : List Char := u.last :: (u.start ++ List.replicate n '^').take n
  [letters 5, letters 4, letters 3, letters 2, '~' :: u.last :: lastWord u.start, letters 1,
    letters 0]

/-- The sign whose share holds a place, with its share and the place in it. -/
def pick : List (Char × Nat) → Nat → Char × Nat × Nat
  | [], _ => ('~', 1, 0)
  | (c, w) :: rest, n => if n < w then (c, w, n) else pick rest (n - w)

def next (u : Unpacking) : Char × Unpacking :=
  let all := u.habits.shares u.last u.circumstances
  let shares := (signs.filter (mayCome u.last)).map fun c => (c, all.getD c.toNat 1)
  let base := shares.foldl (fun n e => n + e.2) 0
  let (c, share, n) := pick shares (u.rest % base)
  (c, { u with rest := share * (u.rest / base) + n, habits := u.habits.learn c u.circumstances })

def run : Nat → Unpacking → Unpacking
  | 0, u => u
  | fuel + 1, u =>
    match u.next with
    | (' ', u) => run fuel { u with last := ' ', names := String.ofList u.start.reverse :: u.names }
    | ('~', u) =>
      match u.start with
      | [] => u
      | c :: cs => run fuel { u with start := cs, last := c }
    | (c, u) => run fuel { u with start := c :: u.start, last := '\x00' }

end Unpacking

def packingDigits : List Char := String.toList
  "0123456789ABCDEFGHIJKLMNOPQRSTUVWXYZabcdefghijklmnopqrstuvwxyz!$%&*+,./:;<=>?^_|~()[]"

def packedNumber (digits : List Char) : Nat :=
  digits.foldl (fun n c => n * 85 + packingDigits.idxOf c) 0

def longestList : Nat := 100000

/-- The lists one after the other; each is packed by the habits of those before. -/
def unpack (h : Habits) : List (List Char) → List (List String)
  | [] => []
  | digits :: rest =>
    let u := Unpacking.run longestList { rest := packedNumber digits, habits := h }
    u.names :: unpack u.habits rest

end ReactiveModel.Imports
