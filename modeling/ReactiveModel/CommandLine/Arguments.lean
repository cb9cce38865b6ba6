import ReactiveModel.CommandLine.Flag

/-! Arguments: flags come first, and what follows them is the model. -/

namespace ReactiveModel.CommandLine

inductive Halt
  | help
  | fault (message : String)
deriving DecidableEq

/-- A flag argument without its dashes: the name, and what stands behind an equals sign. -/
def splitValue (s : String) : String × Option String :=
  match s.toList with
  | [] => (s, none)
  | c :: cs =>
    let name := cs.takeWhile (· != '=')
    match cs.drop name.length with
    | [] => (s, none)
    | _ :: value => (String.ofList (c :: name), some (String.ofList value))

inductive Shape
  | operand
  | terminator
  | malformed
  | flag (name : String) (value : Option String)

def shape (arg : String) : Shape :=
  match arg.toList with
  | ['-', '-'] => .terminator
  | '-' :: c :: cs =>
    let rest := if c == '-' then cs else c :: cs
    match rest with
    | [] => .malformed
    | d :: _ =>
      if d == '-' || d == '=' then .malformed
      else
        let (name, value) := splitValue (String.ofList rest)
        .flag name value
  | _ => .operand

def readFlags : List String → Options → Except Halt (Options × List String)
  | [], o => .ok (o, [])
  | arg :: args, o =>
    match shape arg with
    | .operand => .ok (o, arg :: args)
    | .terminator => .ok (o, args)
    | .malformed => .error (.fault ("bad flag syntax: " ++ arg))
    | .flag name value =>
      match Flag.ofName? name with
      | none =>
        .error (if name == "help" || name == "h" then .help
          else .fault ("flag provided but not defined: -" ++ name))
      | some f =>
        match f.kind, value with
        | .switch, none => readFlags args (f.setSwitch true o)
        | .switch, some v =>
          match f.set v o with
          | .ok o => readFlags args o
          | .error e =>
            .error (.fault ("invalid boolean value " ++ Text.quoted v ++
              " for -" ++ name ++ ": " ++ e))
        | _, some v =>
          match f.set v o with
          | .ok o => readFlags args o
          | .error e => .error (.fault (invalid v name e))
        | _, none =>
          match args with
          | [] => .error (.fault ("flag needs an argument: -" ++ name))
          | v :: args =>
            match f.set v o with
            | .ok o => readFlags args o
            | .error e => .error (.fault (invalid v name e))
where
  invalid (value name e : String) : String :=
    "invalid value " ++ Text.quoted value ++ " for flag -" ++ name ++ ": " ++ e

end ReactiveModel.CommandLine
