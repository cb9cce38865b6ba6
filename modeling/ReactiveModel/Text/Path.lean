/-! Slash-separated paths. -/

namespace ReactiveModel.Path

def parts (p : String) : List String := (p.toList.splitOn '/').map String.ofList

/-- One element after the elements `done`, which are kept in reverse: a dot stays, two dots go
back, and nothing is above the root. -/
def step (rooted : Bool) (done : List String) (e : String) : List String :=
  if e == "" || e == "." then done
  else if e == ".." then
    match done with
    | [] => if rooted then [] else [".."]
    | d :: rest => if d == ".." then ".." :: done else rest
  else e :: done

def isRooted (p : String) : Bool := p.toList.head? == some '/'

def elements (p : String) : List String :=
  ((parts p).foldl (step (isRooted p)) []).reverse

def ofElements (rooted : Bool) (es : List String) : String :=
  let body := "/".intercalate es
  if rooted then "/" ++ body else if body == "" then "." else body

def clean (p : String) : String := ofElements (isRooted p) (elements p)

/-- Joins elements into one shortest path; leading empty elements do not count. -/
def join (es : List String) : String :=
  match es.dropWhile (· == "") with
  | [] => ""
  | es => clean ("/".intercalate es)

/-- The last element, without slashes after it. -/
def base (p : String) : String :=
  if p == "" then "."
  else
    let body := (p.toList.reverse.dropWhile (· == '/')).takeWhile (· != '/')
    if body.isEmpty then "/" else String.ofList body.reverse

def parent (p : String) : String :=
  clean (String.ofList (p.toList.reverse.dropWhile (· != '/')).reverse)

/-- The last element from its last dot on. -/
def extension (p : String) : String :=
  let body := p.toList.reverse.takeWhile (· != '/')
  if body.contains '.' then String.ofList ('.' :: (body.takeWhile (· != '.')).reverse) else ""

end ReactiveModel.Path
