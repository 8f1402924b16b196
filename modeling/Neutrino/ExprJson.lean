import Neutrino.Expr
import Neutrino.Json

/-! The wire form of a typed expression and its reconstruction. -/

namespace Neutrino

mutual

/-- Members stand in the sorted order the JSON printer gives them. -/
def exprToJson : ExprNode → Json
  | .num value dtype =>
      .object [("dtype", .string (categoryName dtype)), ("kind", .string "num"),
        ("num", .number (.integer value))]
  | .var name dtype =>
      .object [("dtype", .string (categoryName dtype)), ("kind", .string "var"),
        ("name", .string name)]
  | .bin op lhs rhs dtype =>
      .object [("dtype", .string (categoryName dtype)), ("kind", .string "bin"),
        ("lhs", exprToJson lhs), ("op", .string op.toString), ("rhs", exprToJson rhs)]
  | .call name args dtype =>
      .object [("args", .array (exprsToJson args)),
        ("dtype", .string (categoryName dtype)), ("kind", .string "call"),
        ("name", .string name)]
  | .cmp op lhs rhs dtype =>
      .object [("dtype", .string (categoryName dtype)), ("kind", .string "cmp"),
        ("lhs", exprToJson lhs), ("op", .string op), ("rhs", exprToJson rhs)]

def exprsToJson : List ExprNode → List Json
  | [] => []
  | arg :: rest => exprToJson arg :: exprsToJson rest

end

def isCmpOp (op : String) : Bool :=
  op = "<" || op = "<=" || op = ">" || op = ">=" || op = "==" || op = "!="

/-- The single byte of a binary operator, when the text has exactly one. -/
def singleByte (text : String) : Option Char :=
  if text.utf8ByteSize = 1 then text.toList.head? else none

mutual

/-- A missing or mistyped scalar takes its default; a missing operand, a bad operator or an
unknown kind is malformed. -/
def exprFromJson (value : Json) : Except ExprError ExprNode :=
  match value with
  | .object members => exprFromObject members
  | _ => .error ⟨"spec.ast", "expression node is not an object"⟩
termination_by sizeOf value
decreasing_by simp

def exprFromObject (node : Json.Object) : Except ExprError ExprNode :=
  let dtype := classifyValueType ((node.getString "dtype").getD "extension")
  let kind := node.stringOr "kind"
  if kind = "num" then
    .ok (.num ((node.getInteger "num").getD 0) dtype)
  else if kind = "var" then
    .ok (.var (node.stringOr "name") dtype)
  else if kind = "bin" then
    match singleByte (node.stringOr "op") with
    | none => .error ⟨"spec.ast", "bin node op must be a single character"⟩
    | some op =>
        match _lhs : node.get "lhs", _rhs : node.get "rhs" with
        | some lhs, some rhs => do
            let lhs ← exprFromJson lhs
            let rhs ← exprFromJson rhs
            return .bin op lhs rhs dtype
        | _, _ => .error ⟨"spec.ast", "bin node needs lhs and rhs"⟩
  else if kind = "call" then
    match _args : node.getArray "args" with
    | none => .ok (.call (node.stringOr "name") [] dtype)
    | some args => do
        let args ← exprsFromJson args
        return .call (node.stringOr "name") args dtype
  else if kind = "cmp" then
    let op := node.stringOr "op"
    if isCmpOp op then
      match _lhs : node.get "lhs", _rhs : node.get "rhs" with
      | some lhs, some rhs => do
          let lhs ← exprFromJson lhs
          let rhs ← exprFromJson rhs
          return .cmp op lhs rhs dtype
      | _, _ => .error ⟨"spec.ast", "cmp node needs lhs and rhs"⟩
    else .error ⟨"spec.ast", "cmp node has an invalid operator"⟩
  else .error ⟨"spec.ast", "unknown expression node kind"⟩
termination_by sizeOf node
decreasing_by
  all_goals first
    | exact Json.Object.sizeOf_get ‹_›
    | exact Json.Object.sizeOf_getArray ‹_›

def exprsFromJson (elements : List Json) : Except ExprError (List ExprNode) :=
  match elements with
  | [] => .ok []
  | element :: rest => do
      let arg ← exprFromJson element
      let args ← exprsFromJson rest
      return arg :: args
termination_by sizeOf elements
decreasing_by all_goals simp +arith

end

end Neutrino
