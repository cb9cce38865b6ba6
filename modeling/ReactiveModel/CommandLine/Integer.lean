import ReactiveModel.Number.Underscore
import ReactiveModel.Text.Quoted

/-! Integers as they are written on a command line: with a sign, in the base that a leading zero
tells, and with underscores between digits. -/

namespace ReactiveModel.CommandLine

inductive IntegerFault | malformed | outOfRange
deriving DecidableEq, Inhabited

def lowerCase (c : Char) : Char := if 'A' ≤ c && c ≤ 'Z' then Char.ofNat (c.toNat + 32) else c

def baseOf : List Char → Nat × List Char
  | '0' :: m :: d :: ds =>
    let mark := lowerCase m
    if mark == 'b' then (2, d :: ds)
    else if mark == 'o' then (8, d :: ds)
    else if mark == 'x' then (16, d :: ds)
    else (8, m :: d :: ds)
  | '0' :: ds => (8, ds)
  | ds => (10, ds)

def digit? (c : Char) : Option Nat :=
  let l := lowerCase c
  if '0' ≤ c && c ≤ '9' then some (c.toNat - 48)
  else if 'a' ≤ l && l ≤ 'z' then some (l.toNat - 87)
  else none

/-- The number of digits in a base; reading stops where it leaves 64 bits. -/
def magnitude (base : Nat) : List Char → Nat → Except IntegerFault Nat
  | [], n => .ok n
  | c :: cs, n =>
    if c == '_' then magnitude base cs n
    else
      match digit? c with
      | none => .error .malformed
      | some d =>
        if base ≤ d then .error .malformed
        else if Nat.pow 2 64 ≤ n * base + d then .error .outOfRange
        else magnitude base cs (n * base + d)

def natural (cs : List Char) : Except IntegerFault Nat :=
  if cs.isEmpty then .error .malformed
  else
    let (base, ds) := baseOf cs
    match magnitude base ds 0 with
    | .error e => .error e
    | .ok n => if ds.contains '_' && !Underscore.fit cs then .error .malformed else .ok n

def integer (s : String) : Except IntegerFault Int :=
  let (negative, cs) := match s.toList with
    | '+' :: cs => (false, cs)
    | '-' :: cs => (true, cs)
    | cs => (false, cs)
  match natural cs with
  | .error e => .error e
  | .ok n =>
    if negative then if Nat.pow 2 63 < n then .error .outOfRange else .ok (-(n : Int))
    else if Nat.pow 2 63 ≤ n then .error .outOfRange
    else .ok n

end ReactiveModel.CommandLine
