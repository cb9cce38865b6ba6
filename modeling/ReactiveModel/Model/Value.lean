import ReactiveModel.Number.Spelling
import ReactiveModel.Text.Basic

/-! Values of properties. A value carries one payload, chosen by its kind: a literal, a number, or
a binding, that is an expression with the properties whose changes re-evaluate it. Values built by
hand may carry payloads that their kind does not select; `Value.fault?` finds those. -/

namespace ReactiveModel

structure Dependency where
  object : Text := ""
  property : Text := ""
deriving DecidableEq, Inhabited

structure Binding where
  expression : Text := ""
  dependencies : List Dependency := []
deriving DecidableEq, Inhabited

namespace Value

inductive Kind | string | number | binding | other (code : Nat)
deriving DecidableEq, Inhabited

def Kind.name : Kind → String
  | .string => "string"
  | .number => "number"
  | .binding => "binding"
  | .other _ => "invalid"

/-- The number that stands for a kind; zero stands for none. -/
def Kind.ofCode : Nat → Kind
  | 1 => .string
  | 2 => .number
  | 3 => .binding
  | n => .other n

end Value

structure Value where
  kind : Value.Kind := .other 0
  str : Text := ""
  num : Binary64 := .zero
  binding : Option Binding := none
deriving DecidableEq, Inhabited

namespace Value

def ofText (s : Text) : Value := { kind := .string, str := s }

def ofNumber (x : Binary64) : Value := { kind := .number, num := x }

def ofBinding (b : Binding) : Value := { kind := .binding, binding := some b }

def isBinding (v : Value) : Bool := v.kind == .binding

/-- Go text of the value: a literal as it stands, a number in its shortest form, a binding's
expression. -/
def text (v : Value) : Text :=
  match v.kind with
  | .string => v.str
  | .number => v.num.literal
  | .binding => (v.binding.map (·.expression)).getD ""
  | .other _ => ""

inductive CountFault
  | kind (k : Kind)
  | number (text : String)
deriving DecidableEq

def CountFault.message : CountFault → String
  | .kind k => "count must be a number, got " ++ k.name
  | .number t => "count must be a non-negative integer, got " ++ t

def maxCount : Nat := 2147483647

def count (v : Value) : Except CountFault Nat :=
  if v.kind = .number then
    match v.num.toNat? with
    | some n => if n ≤ maxCount then .ok n else .error (.number v.num.literal)
    | none => .error (.number v.num.literal)
  else .error (.kind v.kind)

inductive Fault
  | stringPayload | numberPayload | bindingPayload
  | notFinite (text : String)
  | noBinding | noExpression
  | kind (code : Nat)
deriving DecidableEq

def Fault.message : Fault → String
  | .stringPayload => "string value carries another payload"
  | .numberPayload => "number value carries another payload"
  | .bindingPayload => "binding value carries another payload"
  | .notFinite t => "number value " ++ t ++ " is not finite"
  | .noBinding => "binding value without binding"
  | .noExpression => "binding without expression"
  | .kind n => "unknown value kind " ++ toString n

/-- Nothing when exactly the payload that the kind selects is there and is usable. -/
def fault? (v : Value) : Option Fault :=
  match v.kind with
  | .string => if v.binding.isSome || !v.num.isZero then some .stringPayload else none
  | .number =>
    if v.binding.isSome || v.str != "" then some .numberPayload
    else if !v.num.isFinite then some (.notFinite v.num.literal)
    else none
  | .binding =>
    match v.binding with
    | none => some .noBinding
    | some b =>
      if v.str != "" || !v.num.isZero then some .bindingPayload
      else if b.expression == "" then some .noExpression
      else none
  | .other n => some (.kind n)

end Value

end ReactiveModel
