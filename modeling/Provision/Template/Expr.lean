import Provision.Decimal.Binary64

namespace Provision.Template

inductive Failure where
  | malformed (what : String)
  | undefinedValue
  | unknownName (name : String)
  | unfit (what : String)
  | tooDeep
deriving DecidableEq, Repr

def Failure.message : Failure → String
  | .malformed what => "syntax error: " ++ what
  | .undefinedValue => "undefined value"
  | .unknownName name => "unknown name " ++ name
  | .unfit what => "invalid operation: " ++ what
  | .tooDeep => "recursion limit exceeded"

inductive Literal where
  | none
  | bool (value : Bool)
  | int (value : Nat)
  | float (value : Decimal.Binary64)
  | text (value : String)
  | absent
deriving DecidableEq, Repr

inductive BinaryOp where
  | or
  | and
  | equal
  | notEqual
  | less
  | lessEqual
  | greater
  | greaterEqual
  | isIn
  | notIn
  | add
  | sub
  | concat
  | mul
  | div
  | floorDiv
  | rem
  | pow
deriving DecidableEq, Repr

/-- How tightly an operator binds; the level between `and` and the comparisons is that of `not`. -/
def BinaryOp.level : BinaryOp → Nat
  | .or => 1
  | .and => 2
  | .equal | .notEqual | .less | .lessEqual | .greater | .greaterEqual | .isIn | .notIn => 4
  | .add | .sub => 5
  | .concat => 6
  | .mul | .div | .floorDiv | .rem => 7
  | .pow => 8

def notLevel : Nat := 3

inductive Expr where
  | literal (value : Literal)
  | var (name : String)
  | list (items : List Expr)
  | map (entries : List (Expr × Expr))
  | not (e : Expr)
  | neg (e : Expr)
  | binary (op : BinaryOp) (left right : Expr)
  | conditional (test yes no : Expr)
  | attribute (e : Expr) (name : String)
  | item (e key : Expr)
  | slice (e start stop step : Expr)
  | call (callee : Expr) (args : List (Option String × Expr))
  | filter (name : String) (e : Expr) (args : List (Option String × Expr))
  | test (name : String) (e : Expr) (args : List (Option String × Expr))
deriving Repr

inductive Target where
  | name (s : String)
  | parts (ts : List Target)
deriving Repr

inductive Stmt where
  | text (s : String)
  | print (e : Expr)
  | choice (test : Expr) (yes no : List Stmt)
  /-- Runs the body for each item that satisfies the condition, or the other branch if there is
  none. -/
  | loop (target : Target) (items condition : Expr) (body otherwise : List Stmt)
  | assign (target : Target) (value : Expr)
  /-- Assigns the expression, in which the text of the body has a name. -/
  | assignSection (target : String) (name : String) (e : Expr) (body : List Stmt)
  | within (bindings : List (Target × Expr)) (body : List Stmt)
  | filtered (name : String) (e : Expr) (body : List Stmt)
  | define (name : String) (params : List (String × Option Expr)) (body : List Stmt)
  | evaluate (e : Expr)
  | block (body : List Stmt)
  | other
deriving Repr

end Provision.Template
