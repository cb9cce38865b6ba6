import ReactiveModel.Model.Table
import ReactiveModel.Text.Path

/-! Directories and files, by their absolute paths. Every entry but the root stands in a
directory. In directories that are locked for the user nothing can be made or removed; none is
unless it is said. -/

namespace ReactiveModel

inductive PathFault
  | missing | notDirectory | isDirectory | nameTooLong | notEmpty | invalid | occupied | denied
deriving DecidableEq, Inhabited

def PathFault.text : PathFault → String
  | .missing => "no such file or directory"
  | .notDirectory => "not a directory"
  | .isDirectory => "is a directory"
  | .nameTooLong => "file name too long"
  | .notEmpty => "directory not empty"
  | .invalid => "invalid argument"
  | .occupied => "file exists"
  | .denied => "permission denied"

structure FileFailure where
  action : String
  path : String
  fault : PathFault
deriving DecidableEq, Inhabited

def FileFailure.message (f : FileFailure) : String :=
  f.action ++ " " ++ f.path ++ ": " ++ f.fault.text

namespace Files

inductive Entry
  | directory
  | file (content : List UInt8)
deriving DecidableEq, Inhabited

end Files

structure Files where
  /-- Where paths start that are not absolute. -/
  workDir : String
  entries : Table String Files.Entry
deriving DecidableEq, Inhabited

namespace Files

def ofWorkDir (dir : String) : Files :=
  let es := Path.elements dir
  { workDir := dir
    entries := .ofPairs ((List.range es.length).map fun n =>
      ("/" ++ "/".intercalate (es.take (n + 1)), .directory)) }

def lookup? (f : Files) (place : String) : Option Entry :=
  if place == "/" then some .directory else f.entries.get? place

def set (f : Files) (place : String) (e : Entry) : Files :=
  { f with entries := f.entries.insert place e }

def unset (f : Files) (place : String) : Files := { f with entries := f.entries.erase place }

def child (place name : String) : String :=
  if place == "/" then "/" ++ name else place ++ "/" ++ name

def childNames (f : Files) (place : String) : List String :=
  (f.entries.keys.filter fun k => k != "/" && Path.parent k == place).map Path.base

/-- Steps from a place along the elements of a path. What is passed through is a directory; the
end need not exist. -/
def walk (f : Files) : String → List String → Except PathFault String
  | place, [] => .ok place
  | place, e :: es =>
    match f.lookup? place with
    | none => .error .missing
    | some (.file _) => .error .notDirectory
    | some .directory =>
      if e == "" || e == "." then walk f place es
      else if e == ".." then walk f (Path.parent place) es
      else if 255 < e.utf8ByteSize then .error .nameTooLong
      else walk f (child place e) es

/-- Whether an element of a path goes back, or nowhere. -/
def isBack (e : String) : Bool := e == "" || e == "." || e == ".."

/-- Where elements that go back lead from a place. Nothing has to be there, since the directory that
paths start from may have been removed. -/
def climb (place : String) (es : List String) : String :=
  es.foldl (fun place e => if e == ".." then Path.parent place else place) place

def locate (f : Files) (path : String) : Except PathFault String :=
  if path == "" then .error .missing
  else if path.toList.contains '\x00' then .error .invalid
  else if 4096 ≤ path.utf8ByteSize then .error .nameTooLong
  else
    let es := Path.parts path
    f.walk (climb (if Path.isRooted path then "/" else f.workDir) (es.takeWhile isBack))
      (es.dropWhile isBack)

def find (f : Files) (path : String) : Except PathFault Entry := do
  match f.lookup? (← f.locate path) with
  | some e => .ok e
  | none => .error .missing

def read (f : Files) (path : String) : Except FileFailure (List UInt8) :=
  match f.find path with
  | .ok (.file bs) => .ok bs
  | .ok .directory => .error ⟨"read", path, .isDirectory⟩
  | .error e => .error ⟨"open", path, e⟩

/-- Opens a file to write it, and empties it if it is there. -/
def create (f : Files) (path : String) (locked : List String := []) : Option FileFailure × Files :=
  match f.locate path with
  | .error e => (some ⟨"open", path, e⟩, f)
  | .ok place =>
    match f.lookup? place with
    | some .directory => (some ⟨"open", path, .isDirectory⟩, f)
    | e =>
      if locked.contains (Path.parent place) && e.isNone then (some ⟨"open", path, .denied⟩, f)
      else (none, f.set place (.file []))

/-- Writes from the start of an opened file. If something else was written there after it was opened
and is longer, the rest of that stays. -/
def write (f : Files) (path : String) (bs : List UInt8) : Option FileFailure × Files :=
  match f.locate path with
  | .error e => (some ⟨"write", path, e⟩, f)
  | .ok place =>
    match f.lookup? place with
    | some (.file old) => (none, f.set place (.file (bs ++ old.drop bs.length)))
    | some .directory => (some ⟨"write", path, .isDirectory⟩, f)
    | none => (some ⟨"write", path, .missing⟩, f)

def makeDirectory (f : Files) (path : String) (locked : List String := []) :
    Option FileFailure × Files :=
  match f.locate path with
  | .error e => (some ⟨"mkdir", path, e⟩, f)
  | .ok place =>
    match f.lookup? place with
    | some _ => (some ⟨"mkdir", path, .occupied⟩, f)
    | none =>
      if locked.contains (Path.parent place) then (some ⟨"mkdir", path, .denied⟩, f)
      else (none, f.set place .directory)

/-- Makes the first of some directories, each of which stands in the next. -/
def makeFirst (f : Files) : List String → (locked : List String := []) → Option FileFailure × Files
  | [], _ => (none, f)
  | p :: ps, locked =>
    match f.find p with
    | .ok .directory => (none, f)
    | .ok (.file _) => (some ⟨"mkdir", p, .notDirectory⟩, f)
    | .error _ =>
      match makeFirst f ps locked with
      | (some e, f) => (some e, f)
      | (none, f) => makeDirectory f p locked

/-- A path, and what is left of it when elements are taken away from its end. -/
def ancestry (path : String) : List String :=
  let es := Path.parts path
  let lead := if Path.isRooted path then "/" else ""
  let es := if Path.isRooted path then es.tail else es
  (List.range es.length).map fun n => lead ++ "/".intercalate (es.take (es.length - n))

def makeDirectories (f : Files) (path : String) (locked : List String := []) :
    Option FileFailure × Files :=
  f.makeFirst (ancestry path) locked

def remove (f : Files) (path : String) (locked : List String := []) : Option FileFailure × Files :=
  match f.locate path with
  | .error e => (some ⟨"remove", path, e⟩, f)
  | .ok place =>
    match f.lookup? place with
    | none => (some ⟨"remove", path, .missing⟩, f)
    | some (.file _) =>
      if locked.contains (Path.parent place) then (some ⟨"remove", path, .denied⟩, f)
      else (none, f.unset place)
    | some .directory =>
      if locked.contains (Path.parent place) then (some ⟨"remove", path, .denied⟩, f)
      else if (f.childNames place).isEmpty then (none, f.unset place)
      else (some ⟨"remove", path, .notEmpty⟩, f)

def list (f : Files) (path : String) : Except FileFailure (List String) :=
  match f.locate path with
  | .error e => .error ⟨"open", path, e⟩
  | .ok place =>
    match f.lookup? place with
    | none => .error ⟨"open", path, .missing⟩
    | some (.file _) => .error ⟨"readdirent", path, .notDirectory⟩
    | some .directory => .ok (f.childNames place)

def removeAll (f : Files) (path : String) : Files :=
  match f.locate path with
  | .error _ => f
  | .ok place =>
    { f with entries := f.entries.filter fun e => e.1 != place && !e.1.startsWith (child place "") }

def relative (f : Files) (place : String) : String :=
  let rec go : List String → List String → List String
    | a :: xs, b :: ys => if a == b then go xs ys else (a :: xs).map (fun _ => "..") ++ b :: ys
    | xs, ys => xs.map (fun _ => "..") ++ ys
  "/".intercalate (go (Path.elements f.workDir) (Path.elements place))

/-- What is in the directory around the work directory, by paths from the work directory: files
with their contents, and empty directories, whose paths end with a slash. The work directory itself
is not told. -/
def contents (f : Files) : List (String × Option (List UInt8)) :=
  let around := child (Path.parent f.workDir) ""
  f.entries.filterMap fun (k, e) =>
    if !k.startsWith around || k == f.workDir then none
    else
      match e with
      | .file bs => some (f.relative k, some bs)
      | .directory =>
        if (f.childNames k).isEmpty then some (f.relative k ++ "/", none) else none

end Files

end ReactiveModel
