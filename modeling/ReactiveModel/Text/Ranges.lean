/-! Tables of code points in written form. A line is a row of entries such as `aa`, `c0+16` and
`100+2e/2` in hexadecimal: where a run starts behind the end of the one before, how long it is and
its step. A case table adds a signed distance to the images, as in `c0+16:+20`. -/

namespace ReactiveModel.Text

def hexValue? (c : Char) : Option Nat :=
  if '0' ≤ c ∧ c ≤ '9' then some (c.toNat - '0'.toNat)
  else if 'a' ≤ c ∧ c ≤ 'f' then some (c.toNat - 'a'.toNat + 10)
  else if 'A' ≤ c ∧ c ≤ 'F' then some (c.toNat - 'A'.toNat + 10)
  else none

/-- A run of code points, every one or every second, with the distance to their images. -/
structure Run where
  first : Nat
  last : Nat
  step : Nat := 1
  down : Bool := false
  distance : Nat := 0

inductive Run.Part | first | length | step | distance

def Run.push (r : Run) (p : Run.Part) (d : Nat) : Run :=
  match p with
  | .first => { r with first := r.first * 16 + d, last := r.last * 16 + d }
  | .length => { r with last := r.first + (r.last - r.first) * 16 + d }
  | .step => { r with step := r.step * 16 + d }
  | .distance => { r with distance := r.distance * 16 + d }

/-- Reads a written line; the accumulator holds the finished runs, last one first. -/
def Run.read : List Char → Run → Run.Part → List Run → List Run
  | [], r, _, done => (r :: done).reverse
  | ' ' :: cs, r, _, done => Run.read cs ⟨0, 0, 1, false, 0⟩ .first (r :: done)
  | '+' :: cs, r, .first, done => Run.read cs r .length done
  | '/' :: cs, r, _, done => Run.read cs { r with step := 0 } .step done
  | ':' :: '+' :: cs, r, _, done => Run.read cs r .distance done
  | ':' :: '-' :: cs, r, _, done => Run.read cs { r with down := true } .distance done
  | c :: cs, r, p, done => Run.read cs (r.push p ((hexValue? c).getD 0)) p done

/-- Runs behind a place, each behind the one before. -/
def Run.placed : Nat → List Run → List Run
  | _, [] => []
  | n, r :: rs =>
    { r with first := n + r.first, last := n + r.last } :: Run.placed (n + r.last) rs

def Run.table (lines : List String) : List Run :=
  lines.flatMap fun s => Run.placed 0 (Run.read s.toList ⟨0, 0, 1, false, 0⟩ .first [])

def Run.has (r : Run) (n : Nat) : Bool :=
  r.first ≤ n && n ≤ r.last && (n - r.first) % r.step == 0

def Run.image (r : Run) (n : Nat) : Nat := if r.down then n - r.distance else n + r.distance

def inTable (t : List Run) (c : Char) : Bool := t.any (·.has c.toNat)

/-- Image under a case table; a character without an entry is its own image. -/
def mapTable (t : List Run) (c : Char) : Char :=
  match t.find? (·.has c.toNat) with
  | some r => Char.ofNat (r.image c.toNat)
  | none => c

end ReactiveModel.Text
