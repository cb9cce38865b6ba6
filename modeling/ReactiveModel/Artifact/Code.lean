import ReactiveModel.Artifact.Basic

/-! Go code of an artifact, before layout. Names of other packages stand as such, because what
they are called depends on the file they appear in. -/

namespace ReactiveModel

inductive Code
  | word (t : Text)
  /-- A name of the package with the given import path. -/
  | qualified (path name : Text)
  /-- Parts with a blank between each two. -/
  | phrase (parts : List Code)
  /-- Parts between two marks, with a separator between each two; if they stack, each is on a line
  of its own. -/
  | group (opening separator closing : Text) (stacked : Bool) (parts : List Code)
deriving Inhabited

namespace Code

instance : Coe String Code := ⟨fun s => .word s⟩

instance : Coe Text Code := ⟨.word⟩

mutual

def paths : Code → List Text
  | .word _ => []
  | .qualified path _ => [path]
  | .phrase cs => pathsAll cs
  | .group _ _ _ _ cs => pathsAll cs

def pathsAll : List Code → List Text
  | [] => []
  | c :: cs => c.paths ++ pathsAll cs

end

mutual

def text (nameOf : Text → Text) : Code → Text
  | .word t => t
  | .qualified path name => nameOf path ++ "." ++ name
  | .phrase cs => Text.intercalate " " (texts nameOf cs)
  | .group opening separator closing stacked cs =>
    let parts := texts nameOf cs
    let parts := if stacked then parts.map fun (t : Text) => ("\n" : Text) ++ t else parts
    opening ++ Text.intercalate separator parts ++
      (if stacked && !parts.isEmpty && closing != "" then "\n" else "") ++ closing

def texts (nameOf : Text → Text) : List Code → List Text
  | [] => []
  | c :: cs => c.text nameOf :: texts nameOf cs

end

/-! Groups. -/

def params (cs : List Code) : Code := .group "(" "," ")" false cs

def block (cs : List Code) : Code := .group "\x7b" "" "\x7d" true cs

def record (cs : List Code) : Code := .group "struct\x7b" "" "\x7d" true cs

def interface (cs : List Code) : Code := .group "interface\x7b" "" "\x7d" true cs

def typeArgument (c : Code) : Code := .group "[" "," "]" false [c]

def callOf (function : String) (cs : List Code) : Code := .group (function ++ "(") "," ")" false cs

def ret (cs : List Code) : Code := .group "return " "," "" false cs

def head (keyword : String) (cs : List Code) : Code := .group (keyword ++ " ") ";" "" false cs

def declarations (cs : List Code) : Code := .group "" "" "" true cs

/-! Phrases. -/

/-- A blank line, when parts stack. -/
def gap : Code := "\n"

def dot (c : Code) (name : Text) : Code := .phrase [c, ".", name]

def call (c : Code) (args : List Code) : Code := .phrase [c, params args]

def assign (a b : Code) : Code := .phrase [a, "=", b]

/-- A comment with a text: a text that is a comment already is taken as it is, and one of several
lines is bracketed. -/
def commentText (t : Text) : Text :=
  if t.startsWith "//" || t.startsWith "/*" then t
  else if t.hasAny "\n" then
    "/*\n" ++ t ++ (if t.bytes.getLast? == some 10 then "*/" else "\n*/")
  else "// " ++ t

def comment (t : Text) : Code := .word (commentText t)

end Code

def TypeCode.code : TypeCode → Code
  | .pointer t => .phrase ["*", t.code]
  | .slice t => .phrase ["[]", t.code]
  | .verbatim s => s
  | .named path name => .qualified path name
  | .instantiated path name t => .phrase [.qualified path name, .typeArgument t.code]

namespace Field

def code (f : Field) : Code := .phrase [f.name, f.type.code]

end Field

def Maker.code : Maker → Code
  | .literal c => .phrase ["&", c, "\x7b\x7d"]
  | .verbatim s => s

namespace Artifact

open Code

def runtimeName (a : Artifact) (name : Text) : Code := .qualified a.runtime name

def member (a : Artifact) (name : Text) : Code := dot a.receiver name

def method (a : Artifact) (name : Text) (header : List Code) (body : List Code) : Code :=
  let front : List Code := ["func", params [.phrase [a.receiver, "*", a.className]], name]
  .phrase (front ++ header ++ [block body])

/-- The parameter of methods that acquire resources, and their result. -/
def managed (a : Artifact) : List Code :=
  [params [.phrase ["manager", a.runtimeName "ResourceManager"]], "error"]

/-- Does something that may fail, and then something else if it did. -/
def unlessDone (attempt : Code) (body : List Code) : Code :=
  .phrase [head "if" [attempt, .phrase ["err", "!=", "nil"]], block body]

def functionsCode (a : Artifact) : List Code :=
  if a.functions.isEmpty then []
  else
    let name := Naming.functionsInterface a.className
    [comment (name ++ " lists the functions of " ++ a.className ++ " implemented by hand."),
     .phrase ["type", name, interface (a.functions.map .word)],
     .phrase ["var", "_", name, "=", .group "(" "" ")" false [.phrase ["*", a.className]], "(nil)"]]

def signalsVariable (a : Artifact) : Code := Naming.signalsVar a.className

def signalsCode (a : Artifact) : List Code :=
  if a.signals.isEmpty then []
  else [.phrase ["var", a.signalsVariable, record (a.signals.map Field.code)]]

def spaced : List (List Code) → List Code
  | [] => []
  | [g] => g
  | g :: gs => g ++ (gap :: spaced gs)

theorem filterMap_spaced {α : Type} {f : Code → Option α} (h : f gap = none)
    (gs : List (List Code)) : (spaced gs).filterMap f = gs.flatten.filterMap f := by
  induction gs with
  | nil => rfl
  | cons g gs ih =>
    cases gs with
    | nil => simp [spaced]
    | cons g' gs =>
      have hspaced : spaced (g :: g' :: gs) = g ++ (gap :: spaced (g' :: gs)) := rfl
      rw [hspaced, List.filterMap_append, List.filterMap_cons_none h, ih, ← List.filterMap_append,
        ← List.flatten_cons]

def structCode (a : Artifact) : List Code :=
  [comment (a.className ++ " is generated from its model declaration."),
   .phrase ["type", a.className, record (spaced (a.fields.map (·.map Field.code)))]]

def passOn (a : Artifact) (name : Text) : Code :=
  unlessDone (.phrase ["err", ":=", call (a.member name) ["manager"]]) [ret ["err"]]

def initializeCode (a : Artifact) : List Code :=
  [comment "Initialize acquires the resources and builds the object tree.",
   comment "It panics when called twice.",
   a.method "Initialize" a.managed
     ([.phrase [head "if" [a.member "initialized"],
         block [callOf "panic" [Text.quoted (a.className ++ ": Initialize called twice")]]],
       a.passOn "initResources",
       call (a.member "initObjects") []] ++
     (if a.replications.isEmpty then [] else [a.passOn "initReplicators"]) ++
     (if a.eager then [call (a.member "evaluateBindings") []] else []) ++
     [assign (a.member "initialized") "true", ret ["nil"]])]

def rootCode (a : Artifact) : List Code :=
  [comment "Root returns the root object.",
   a.method "Root" [params [], a.root.type.code] [ret [a.member a.root.name]]]

def signalOf (a : Artifact) (name : Text) : Code := dot a.signalsVariable name

def signalCode (a : Artifact) (f : Field) : List Code :=
  [gap, a.method f.name [params [], "*", f.type.code] [ret [.phrase ["&", a.signalOf f.name]]]]

def propertyCode (a : Artifact) (p : Accessors) : List Code :=
  let storage := a.member p.storage
  let same : Code :=
    if p.comparable then .phrase [storage, "==", "value"]
    else call (.qualified "reflect" "DeepEqual") [storage, "value"]
  [gap,
   a.method p.getter [params [], p.type.code] [ret [storage]],
   gap,
   a.method p.setter [params [.phrase ["value", p.type.code]]]
     [.phrase [head "if" [same], block [ret []]],
      assign storage "value",
      call (dot (a.signalOf p.changed) "Emit") [a.receiver]]] ++
    a.signalCode ⟨p.changed, .named a.runtime "Signal"⟩

def failure (what : Text) : Code :=
  ret [call (.qualified "fmt" "Errorf") [Text.quoted (what ++ ": %w"), "err"]]

def acquisitionCode (a : Artifact) (r : Acquisition) : Code :=
  let targets : Code := .group "" "," "" false [a.member r.slot, "err"]
  let acquire : Code := .phrase [a.runtimeName "Acquire", typeArgument r.type.code,
    params ["manager", Text.quoted r.key]]
  unlessDone (assign targets acquire) [failure (a.className ++ ": acquire resource " ++ r.resource)]

def resourcesCode (a : Artifact) : List Code :=
  [gap,
   a.method "initResources" a.managed
     ((if a.acquisitions.isEmpty then [] else [.phrase ["var", "err", "error"]]) ++
       a.acquisitions.map a.acquisitionCode ++ [ret ["nil"]])]

def stepCode (a : Artifact) : ObjectStep → Code
  | .allocate slot alloc => assign (a.member slot) alloc
  | .set slot setter text => call (dot (a.member slot) setter) [text]
  | .assign handler expression => assign (a.member handler) (a.member expression)
  | .connect source signal handler =>
    call (dot (call (dot (a.member source) signal) []) "Connect")
      [a.member source, a.member handler]
  | .attach parent child => call (dot (a.member parent) "Append") [a.member child]

def objectsCode (a : Artifact) : List Code :=
  let deferred := a.construction.deferred.map a.stepCode
  [gap,
   a.method "initObjects" [params []]
     (spaced (a.construction.blocks.map (·.map a.stepCode)) ++
       if deferred.isEmpty then []
       else gap :: comment "bindings on objects allocated after their target" :: deferred)]

def evaluationCode (a : Artifact) (e : Evaluation) : List Code :=
  [gap, a.method e.method [params []] [call (dot (a.member e.slot) e.setter) [e.expression]]]

def replicationCode (a : Artifact) (r : Replication) : List Code :=
  let collection := a.member r.field
  [gap,
   comment ("replicator " ++ r.id),
   assign "count" (toString r.count),
   .phrase [head "for" [.phrase ["index", ":=", "0"], .phrase ["index", "<", "count"],
       .phrase ["index", "++"]],
     block (
       [.phrase ["instance", ":=", r.maker.code],
        unlessDone (.phrase ["err", ":=", call (dot "instance" "Initialize") ["manager"]])
          [failure (a.className ++ ": replicator " ++ r.id)],
        assign collection (callOf "append" [collection, "instance"])] ++
       (if r.initializor == "" then [] else [.word r.initializor]) ++
       [call (dot (a.member r.parent) "Append") [call (dot "instance" "Root") []]])]]

def replicationsCode (a : Artifact) : List Code :=
  if a.replications.isEmpty then []
  else [gap,
    a.method "initReplicators" a.managed
      (.phrase ["var", "count", "int"] :: a.replications.flatMap a.replicationCode ++
        [ret ["nil"]])]

def evaluateCode (a : Artifact) : List Code :=
  if a.eager then
    [gap, a.method "evaluateBindings" [params []]
      (a.evaluations.map fun e => call (a.member e.method) [])]
  else []

def code (a : Artifact) : Code :=
  declarations (a.functionsCode ++ a.signalsCode ++ a.structCode ++ a.initializeCode ++
    a.rootCode ++ a.properties.flatMap a.propertyCode ++ a.signalAccessors.flatMap a.signalCode ++
    a.resourcesCode ++ a.objectsCode ++ a.evaluations.flatMap a.evaluationCode ++
    a.replicationsCode ++ a.evaluateCode)

end Artifact

end ReactiveModel
