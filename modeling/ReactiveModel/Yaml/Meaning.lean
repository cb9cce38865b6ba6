import ReactiveModel.Number.Reading

/-! What a plain scalar means. -/

namespace ReactiveModel.Yaml

inductive Meaning
  | null
  | bool (b : Bool)
  | int (i : Int)
  | float (x : Binary64)
  | timestamp
  | text
deriving Inhabited

namespace Meaning

def tag : Meaning → String
  | .null => "!!null"
  | .bool _ => "!!bool"
  | .int _ => "!!int"
  | .float _ => "!!float"
  | .timestamp => "!!timestamp"
  | .text => "!!str"

def words : List (String × Meaning) :=
  [("true", .bool true), ("True", .bool true), ("TRUE", .bool true),
   ("false", .bool false), ("False", .bool false), ("FALSE", .bool false),
   ("", .null), ("~", .null), ("null", .null), ("Null", .null), ("NULL", .null),
   (".nan", .float .nan), (".NaN", .float .nan), (".NAN", .float .nan),
   (".inf", .float (.infinity false)), (".Inf", .float (.infinity false)),
   (".INF", .float (.infinity false)), ("+.inf", .float (.infinity false)),
   ("+.Inf", .float (.infinity false)), ("+.INF", .float (.infinity false)),
   ("-.inf", .float (.infinity true)), ("-.Inf", .float (.infinity true)),
   ("-.INF", .float (.infinity true))]

def isDigit (c : Char) : Bool := '0' ≤ c && c ≤ '9'

def digits? (base : Nat) (cs : List Char) : Option Nat :=
  if cs.isEmpty then none
  else cs.foldlM (fun n c =>
    match Text.hexValue? c with
    | some d => if d < base then some (n * base + d) else none
    | none => none) 0

/-- A natural number; a leading zero, with or without letter, tells another base. -/
def natural? (cs : List Char) : Option Nat :=
  match cs with
  | '0' :: 'x' :: ds | '0' :: 'X' :: ds => digits? 16 ds
  | '0' :: 'b' :: ds | '0' :: 'B' :: ds => digits? 2 ds
  | '0' :: 'o' :: ds | '0' :: 'O' :: ds => digits? 8 ds
  | '0' :: ds => if ds.isEmpty then some 0 else digits? 8 ds
  | ds => digits? 10 ds

/-- Digits in the base of a mark, where a sign stands after the mark. -/
def signedBase? (mark : Char) (ds : List Char) : Option Nat :=
  if mark == 'b' then digits? 2 ds else if mark == 'o' then digits? 8 ds else none

/-- A whole number of 64 bits. The sign may also stand between the mark of a base and the digits. -/
def whole? (cs : List Char) : Option Int :=
  match cs with
  | '0' :: b :: '-' :: ds =>
    (signedBase? b ds).bind fun n => if n ≤ Nat.pow 2 63 then some (-(n : Int)) else none
  | '0' :: b :: '+' :: ds =>
    (signedBase? b ds).bind fun n => if n < Nat.pow 2 63 then some (n : Int) else none
  | '-' :: ds => (natural? ds).bind fun n => if n ≤ Nat.pow 2 63 then some (-(n : Int)) else none
  | '+' :: ds => (natural? ds).bind fun n => if n < Nat.pow 2 63 then some (n : Int) else none
  | ds => (natural? ds).bind fun n => if n < Nat.pow 2 64 then some (n : Int) else none

def isDecimal (cs : List Char) : Bool :=
  let cs := match cs with
    | '-' :: cs | '+' :: cs => cs
    | cs => cs
  let whole := cs.takeWhile isDigit
  let afterWhole := cs.drop whole.length
  let (fraction, rest) : Option (List Char) × List Char := match afterWhole with
    | '.' :: cs => (some (cs.takeWhile isDigit), cs.dropWhile isDigit)
    | cs => (none, cs)
  let mantissa := !whole.isEmpty || (fraction.any fun f => !f.isEmpty)
  let exponent := match rest with
    | [] => true
    | e :: cs =>
      let cs := match cs with
        | '-' :: cs | '+' :: cs => cs
        | cs => cs
      (e == 'e' || e == 'E') && !cs.isEmpty && cs.all isDigit
  mantissa && exponent

def float? (cs : List Char) : Option Binary64 :=
  match Binary64.read (String.ofList cs) with
  | .number x => some x
  | _ => none

/-! Dates and times. -/

def oneOrTwo (cs : List Char) : Option (Nat × List Char) :=
  let ds := (cs.take 2).takeWhile isDigit
  if ds.isEmpty then none
  else some (ds.foldl (fun n d => n * 10 + (d.toNat - 48)) 0, cs.drop ds.length)

def expectChar (x : Char) : List Char → Option (List Char)
  | c :: cs => if c == x then some cs else none
  | [] => none

def isLeap (year : Nat) : Bool := year % 4 == 0 && (year % 100 != 0 || year % 400 == 0)

def daysIn (year month : Nat) : Nat :=
  if month == 2 then (if isLeap year then 29 else 28)
  else if month == 4 || month == 6 || month == 9 || month == 11 then 30 else 31

def date? (cs : List Char) : Option (List Char) := do
  let year := cs.takeWhile isDigit
  if year.length != 4 then none
  let cs ← expectChar '-' (cs.drop 4)
  let (month, cs) ← oneOrTwo cs
  let cs ← expectChar '-' cs
  let (day, cs) ← oneOrTwo cs
  let year := year.foldl (fun n d => n * 10 + (d.toNat - 48)) 0
  if 1 ≤ month && month ≤ 12 && 1 ≤ day && day ≤ daysIn year month then some cs else none

def time? (cs : List Char) : Option (List Char) := do
  let (hour, cs) ← oneOrTwo cs
  let cs ← expectChar ':' cs
  let (minute, cs) ← oneOrTwo cs
  let cs ← expectChar ':' cs
  let (second, cs) ← oneOrTwo cs
  if !(hour < 24 && minute < 60 && second < 60) then none
  match cs with
  | '.' :: ds | ',' :: ds =>
    let fraction := ds.takeWhile isDigit
    if fraction.isEmpty then some cs else some (ds.drop fraction.length)
  | _ => some cs

/-- A zone at the end: Z, or hours and minutes with a sign. -/
def isZone : List Char → Bool
  | ['Z'] => true
  | [s, a, b, ':', c, d] =>
    (s == '+' || s == '-') && [a, b, c, d].all isDigit &&
      (a.toNat - 48) * 10 + (b.toNat - 48) ≤ 24 && (c.toNat - 48) * 10 + (d.toNat - 48) ≤ 60
  | _ => false

def isTimestamp (cs : List Char) : Bool :=
  match date? cs with
  | none => false
  | some [] => true
  | some (t :: rest) =>
    match time? (if t == ' ' then rest.dropWhile (· == ' ') else rest) with
    | none => false
    | some zone => if t == ' ' then zone.isEmpty else (t == 'T' || t == 't') && isZone zone

/-- A number, date or time, without regard to underscores in numbers. -/
def ofNumeral (stamps : Bool) (cs : List Char) : Meaning :=
  if stamps && isTimestamp cs then .timestamp
  else
    let bare := cs.filter (· != '_')
    match whole? bare with
    | some i => .int i
    | none =>
      if isDecimal bare then
        match float? bare with
        | some x => .float x
        | none => .text
      else .text

/-- The meaning of a plain scalar; `stamps` tells whether dates are looked for. -/
def ofText (stamps : Bool) (s : String) : Meaning :=
  match s.toList with
  | [] => .null
  | c :: cs =>
    if c == '+' || c == '-' || isDigit c then
      (words.lookup s).getD (ofNumeral stamps (c :: cs))
    else if c == '.' then
      (words.lookup s).getD (((float? (c :: cs)).map .float).getD .text)
    else if "yYnNtTfFoO~".toList.contains c then (words.lookup s).getD .text
    else .text

/-- Words that may be said for true and false where one of them is expected. -/
def spokenBool? (s : String) : Option Bool :=
  if ["y", "Y", "yes", "Yes", "YES", "on", "On", "ON"].contains s then some true
  else if ["n", "N", "no", "No", "NO", "off", "Off", "OFF"].contains s then some false
  else none

end Meaning

end ReactiveModel.Yaml
