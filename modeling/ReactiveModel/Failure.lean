import ReactiveModel.Text.Quoted

/-! Failures and their texts. A failure may have a cause, and several may be joined; what kinds
stand somewhere in it decides how it is classified. -/

namespace ReactiveModel

inductive FailureKind | schema | config | reference | generation
deriving DecidableEq, Inhabited

def FailureKind.text : FailureKind → String
  | .schema => "rengen: invalid schema"
  | .config => "rengen: missing configuration"
  | .reference => "rengen: unresolved reference"
  | .generation => "rengen: code generation failed"

inductive Shown
  | string (s : String)
  | bool (b : Bool)
  | int (i : Int)
deriving DecidableEq, Inhabited

def Shown.text : Shown → String
  | .string s => s
  | .bool b => if b then "true" else "false"
  | .int i => toString i

inductive DecodeCause
  /-- A replicator count that is no number, with its line where lines are known. -/
  | count (line : Option Nat)
  /-- The document ends before it says anything, or where something should start. -/
  | ended
  | cut
  | syntactic
  /-- A value that does not fit where something else is expected. -/
  | type (expected : String)
  | unknownField (name : String)
  | types (messages : List String)
  | invalid
deriving DecidableEq, Inhabited

structure DecodeFailure where
  format : String
  file : Option String := none
  cause : DecodeCause
deriving DecidableEq, Inhabited

def DecodeFailure.message (d : DecodeFailure) : String :=
  "load: decode " ++ d.format ++ " description"

inductive Failure
  | plain (message : Text)
  | sentinel (kind : FailureKind)
  | schema (className member message : Text) (cause : Option Failure)
  | config (option : String) (value : Option Shown) (message : String)
  | reference (source kind target message : Text)
  | generation (className phase file message : Text) (cause : Option Failure)
  | load (className object message : Text) (cause : Option Failure)
  | decode (d : DecodeFailure)
  | join (parts : List Failure)

namespace Failure

instance : Inhabited Failure := ⟨.plain ""⟩

def about (t said : Text) : Text := if t == "" then "" else said

def qualify (label value : Text) : Text := about value (" " ++ label ++ " " ++ value)

def finish (message cause : Text) : Text :=
  about message (": " ++ message) ++ about cause (": " ++ cause)

mutual

def message : Failure → Text
  | .plain m => m
  | .sentinel k => k.text
  | .schema c m msg cause =>
    "rengen: schema error" ++ qualify "on class" c ++ qualify "member" m ++
      finish msg (causeText cause)
  | .config o v msg =>
    "rengen: config error for " ++ Text.quoted o ++
      (match v with
        | none => ""
        | some v => " (value: " ++ v.text ++ ")") ++ ": " ++ msg
  | .reference source kind target msg =>
    "rengen: unresolved" ++ about kind (" " ++ kind) ++ about target (" " ++ target.quoted) ++
      qualify "in class" source ++ finish msg ""
  | .generation c phase file msg cause =>
    "rengen: generation error" ++ qualify "for class" c ++ qualify "in phase" phase ++
      about file (" (file: " ++ file ++ ")") ++ finish msg (causeText cause)
  | .load c o msg cause =>
    "load:" ++ qualify "class" c ++ qualify "object" o ++
      (if c == "" && o == "" then "" else ":") ++ " " ++ msg ++
      (match cause with
        | none => ""
        | some f => ": " ++ f.message)
  | .decode d =>
    d.message ++ ": <cause>" ++
      (match d.file with
        | none => ""
        | some p => " (file: " ++ p ++ ")")
  | .join fs => Text.intercalate "\n" (messages fs)

def causeText : Option Failure → Text
  | none => ""
  | some f => f.message

def messages : List Failure → List Text
  | [] => []
  | f :: fs => f.message :: messages fs

end

/-- The failure that a failure was made from. Parts of a join are not singled out. -/
def cause? : Failure → Option Failure
  | .schema _ _ _ c | .generation _ _ _ _ c | .load _ _ _ c => c
  | _ => none

def join? (fs : List (Option Failure)) : Option Failure :=
  match fs.filterMap id with
  | [] => none
  | gs => some (.join gs)

def kind? : Failure → Option FailureKind
  | .schema .. => some .schema
  | .config .. => some .config
  | .reference .. => some .reference
  | .generation .. => some .generation
  | _ => none

mutual

def any (p : Failure → Bool) : Failure → Bool
  | .schema c m msg cause => p (.schema c m msg cause) || anyCause p cause
  | .generation c ph f msg cause => p (.generation c ph f msg cause) || anyCause p cause
  | .load c o msg cause => p (.load c o msg cause) || anyCause p cause
  | .join fs => p (.join fs) || anyPart p fs
  | f => p f

def anyCause (p : Failure → Bool) : Option Failure → Bool
  | none => false
  | some f => any p f

def anyPart (p : Failure → Bool) : List Failure → Bool
  | [] => false
  | f :: fs => any p f || anyPart p fs

end

def has (f : Failure) (k : FailureKind) : Bool := f.any (·.kind? == some k)

/-- It stands for the kind: a failure of the kind or the kind's own text is in it. -/
def stands (f : Failure) (k : FailureKind) : Bool :=
  f.any fun g =>
    g.kind? == some k ||
      match g with
      | .sentinel j => j == k
      | _ => false

end Failure

end ReactiveModel
