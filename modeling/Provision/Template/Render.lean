import Provision.Template.Filter
import Provision.Template.Parser

namespace Provision.Template

abbrev Frame := List (String × Value)

/-- The frames, the innermost first, over the context. -/
structure Scope where
  frames : List Frame
  root : Value

namespace Scope

def ofContext (context : Value) : Scope := ⟨[[]], context⟩

def lookup (scope : Scope) (name : String) : Value :=
  match scope.frames.findSome? (·.lookup name) with
  | some v => v
  | none =>
    match scope.root with
    | .map entries => (Value.lookup? entries (.text name)).getD .undefined
    | _ => .undefined

def push (scope : Scope) (frame : Frame) : Scope := { scope with frames := frame :: scope.frames }

def pop (scope : Scope) : Scope := { scope with frames := scope.frames.drop 1 }

def set (scope : Scope) (name : String) (v : Value) : Scope :=
  match scope.frames with
  | [] => { scope with frames := [[(name, v)]] }
  | frame :: rest => { scope with frames := ((name, v) :: frame) :: rest }

/-- The scope that fragments see: the outermost frame and the context. -/
def base (scope : Scope) : Scope := { scope with frames := scope.frames.getLast?.toList }

mutual

def bind (scope : Scope) : Target → Value → Except Failure Scope
  | .name s, v => .ok (scope.set s v)
  | .parts ts, v =>
    match v with
    | .list items => bindParts scope ts items
    | .map entries => bindParts scope ts (entries.map (·.1))
    | _ => .error (.unfit "not a sequence")

def bindParts (scope : Scope) : List Target → List Value → Except Failure Scope
  | [], [] => .ok scope
  | t :: ts, v :: vs => do bindParts (← bind scope t v) ts vs
  | _, _ => .error (.unfit "sequence of wrong length")

end

end Scope

abbrev Caller :=
  Scope → String → List (String × Option Expr) → List Stmt → Given → Except Failure Value

def literalValue : Literal → Value
  | .none => .none
  | .bool b => .bool b
  | .int n => .int n
  | .float x => .float x
  | .text s => .text s
  | .absent => .absent

def rangeOf (start stop step : Int) : Except Failure Value :=
  if step = 0 then .error (.unfit "range")
  else
    let count := if 0 < step then (stop - start + step - 1) / step else (start - stop - step - 1) / -step
    if count > 100000 then .error (.unfit "range")
    else .ok (.list ((List.range count.toNat).map fun (i : Nat) => .int (start + step * i)))

def callFunction (name : String) (args : Given) : Except Failure Value :=
  match name, args.positional with
  | "range", [stop] => do rangeOf 0 (← numberOf stop) 1
  | "range", [start, stop] => do rangeOf (← numberOf start) (← numberOf stop) 1
  | "range", [start, stop, step] => do rangeOf (← numberOf start) (← numberOf stop) (← numberOf step)
  | "dict", [] => .ok (Value.mapOf (args.named.map fun (k, v) => (.text k, v)))
  | "dict", [.map entries] =>
    .ok (Value.mapOf (entries ++ args.named.map fun (k, v) => (.text k, v)))
  | _, _ => .error (.unknownName name)

/-- Calls a value, or where there is none the function of that name. -/
def callValue (caller : Caller) (scope : Scope) (name : String) (callee : Value) (args : Given) :
    Except Failure Value :=
  match callee with
  | .fragment name params body => caller scope name params body args
  | .undefined => callFunction name args
  | _ => .error (.unfit "call")

mutual

def evaluate (caller : Caller) (scope : Scope) : Expr → Except Failure Value
  | .literal l => .ok (literalValue l)
  | .var name => .ok (scope.lookup name)
  | .list items => do .ok (.list (← evaluateAll caller scope items))
  | .map entries => do .ok (Value.mapOf (← evaluateEntries caller scope entries))
  | .not e => do .ok (.bool (!(← condition (← evaluate caller scope e))))
  | .neg e => do negate (← evaluate caller scope e)
  | .binary op left right => do
    let a ← evaluate caller scope left
    match op with
    | .and => if ← condition a then evaluate caller scope right else .ok a
    | .or => if ← condition a then .ok a else evaluate caller scope right
    | op => applyOp op a (← evaluate caller scope right)
  | .conditional test yes no => do
    if ← condition (← evaluate caller scope test) then evaluate caller scope yes
    else evaluate caller scope no
  | .attribute e name => do lookInto (← evaluate caller scope e) (.text name)
  | .item e key => do
    let v ← evaluate caller scope e
    lookInto v (← evaluate caller scope key)
  | .slice e start stop step => do
    let v ← evaluate caller scope e
    let start ← evaluate caller scope start
    let stop ← evaluate caller scope stop
    slice v start stop (← evaluate caller scope step)
  | .call callee args => do
    let args ← evaluateArgs caller scope args
    match callee with
    | .var name => callValue caller scope name (scope.lookup name) args
    | .attribute e name => do
      match ← lookInto (← evaluate caller scope e) (.text name) with
      | .fragment name params body => caller scope name params body args
      | _ => .error (.unknownName name)
    | _ => .error (.unfit "call")
  | .filter name e args => do
    let v ← evaluate caller scope e
    applyNested name v (← evaluateArgs caller scope args)
  | .test name e args => do
    let v ← evaluate caller scope e
    .ok (.bool (← applyTest name v (← evaluateArgs caller scope args).positional))

def evaluateAll (caller : Caller) (scope : Scope) : List Expr → Except Failure (List Value)
  | [] => .ok []
  | e :: rest => do
    let v ← evaluate caller scope e
    .ok (v :: (← evaluateAll caller scope rest))

def evaluateEntries (caller : Caller) (scope : Scope) :
    List (Expr × Expr) → Except Failure (List (Value × Value))
  | [] => .ok []
  | (k, v) :: rest => do
    let k ← evaluate caller scope k
    let v ← evaluate caller scope v
    .ok ((k, v) :: (← evaluateEntries caller scope rest))

def evaluateArgs (caller : Caller) (scope : Scope) : List (Option String × Expr) → Except Failure Given
  | [] => .ok .none
  | (name, e) :: rest => do
    let v ← evaluate caller scope e
    let more ← evaluateArgs caller scope rest
    match name with
    | none => .ok { more with positional := v :: more.positional }
    | some name => .ok { more with named := (name, v) :: more.named }

end

def loopValue (depth : Nat) (items : List Value) (i : Nat) : Value :=
  let n := items.length
  let neighbour (name : String) (v : Option Value) : List (Value × Value) :=
    match v with
    | some v => [(.text name, v)]
    | none => []
  Value.mapOf ([(.text "index", .int (i + 1)), (.text "index0", .int i),
    (.text "revindex", .int (n - i : Nat)), (.text "revindex0", .int (n - i - 1 : Nat)),
    (.text "first", .bool (i == 0)), (.text "last", .bool (i + 1 == n)), (.text "length", .int n),
    (.text "depth", .int (depth + 1)), (.text "depth0", .int depth)] ++
    neighbour "previtem" (if i = 0 then none else items[i - 1]?) ++
    neighbour "nextitem" items[i + 1]?)

def Scope.loopDepth (scope : Scope) : Nat := scope.frames.countP fun f => (f.lookup "loop").isSome

/-- What rendering a part gives: the scope after it, and its text. -/
abbrev Rendered := Except Failure (Scope × String)

def runLoop (target : Target) (body : Scope → Rendered) (depth : Nat) (items : List Value) :
    Nat → List Value → Scope → Rendered
  | _, [], scope => .ok (scope, "")
  | i, v :: rest, scope => do
    let inner ← (scope.set "loop" (loopValue depth items i)).bind target v
    let (scope, text) ← body inner
    let (scope, more) ← runLoop target body depth items (i + 1) rest scope
    .ok (scope, text ++ more)

def printed (v : Value) : Except Failure String :=
  match v with
  | .undefined => .error .undefinedValue
  | v => .ok v.toText

/-- The frame of a section that gives names to values, each seen by those after it. -/
def bindAll (caller : Caller) : List (Target × Expr) → Scope → Except Failure Scope
  | [], scope => .ok scope
  | (t, e) :: rest, scope => do
    let v ← evaluate caller scope e
    bindAll caller rest (← scope.bind t v)

mutual

def renderStmt (caller : Caller) : Stmt → Scope → Rendered
  | .text s, scope => .ok (scope, s)
  | .print e, scope => do .ok (scope, ← printed (← evaluate caller scope e))
  | .choice test yes no, scope => do
    if ← condition (← evaluate caller scope test) then renderAll caller yes scope
    else renderAll caller no scope
  | .loop target items keep body otherwise, scope => do
    let all ← itemsOf (← evaluate caller scope items)
    let kept ← all.filterM fun v => do
      let inner ← (scope.push []).bind target v
      condition (← evaluate caller inner keep)
    if kept.isEmpty then renderAll caller otherwise scope
    else do
      let (inner, text) ← runLoop target (fun inner => renderAll caller body inner) scope.loopDepth
        kept 0 kept (scope.push [])
      .ok (inner.pop, text)
  | .assign target e, scope => do
    let v ← evaluate caller scope e
    .ok (← scope.bind target v, "")
  | .assignSection target name e body, scope => do
    let (scope, text) ← renderAll caller body scope
    let v ← evaluate caller (scope.push [(name, .text text)]) e
    .ok (scope.set target v, "")
  | .within bindings body, scope => do
    let inner ← bindAll caller bindings (scope.push [])
    let (inner, text) ← renderAll caller body inner
    .ok (inner.pop, text)
  | .filtered name e body, scope => do
    let (scope, text) ← renderAll caller body scope
    .ok (scope, ← printed (← evaluate caller (scope.push [(name, .text text)]) e))
  | .define name params body, scope => .ok (scope.set name (.fragment name params body), "")
  | .evaluate e, scope => do
    let _ ← evaluate caller scope e
    .ok (scope, "")
  | .block body, scope => do
    let (inner, text) ← renderAll caller body (scope.push [])
    .ok (inner.pop, text)
  | .other, _ => .error (.unfit "other templates")

def renderAll (caller : Caller) : List Stmt → Scope → Rendered
  | [], scope => .ok (scope, "")
  | s :: rest, scope => do
    let (scope, text) ← renderStmt caller s scope
    let (scope, more) ← renderAll caller rest scope
    .ok (scope, text ++ more)

end

def bindParams (caller : Caller) : List (String × Option Expr) → Given → Scope → Except Failure Scope
  | [], args, scope =>
    if args.positional.isEmpty then .ok scope else .error (.unfit "too many arguments")
  | (name, value) :: rest, args, scope => do
    let (v, args) ← match args.positional, args.get? name, value with
      | v :: more, none, _ => .ok (v, { args with positional := more })
      | [], some v, _ => .ok (v, args)
      | [], none, some e => do .ok (← evaluate caller scope e, args)
      | [], none, none => .ok (Value.undefined, args)
      | _, _, _ => .error (.unfit "duplicate argument")
    bindParams caller rest args (scope.set name v)

def callFragment : Nat → Caller
  | 0, _, _, _, _, _ => .error .tooDeep
  | depth + 1, scope, _, params, body, args => do
    if args.named.all fun (name, _) => (params.map (·.1)).contains name then do
      let inner ← bindParams (callFragment depth) params args (scope.base.push [])
      let (_, text) ← renderAll (callFragment depth) body inner
      .ok (.text text)
    else .error (.unfit "unknown argument")

def maxDepth : Nat := 100

def Expr.eval (e : Expr) (context : Json) : Except Failure Value :=
  evaluate (callFragment maxDepth) (.ofContext (.ofJson context)) e

def render (source : String) (context : Json) : Except Failure String := do
  let stmts ← parse source
  let (_, text) ← renderAll (callFragment maxDepth) stmts (.ofContext (.ofJson context))
  .ok text

/-- The text without one line feed at its end, and then without one carriage return. -/
def withoutFinalNewline (source : String) : String :=
  let cs := (Text.stripTail? "\n" source).getD source
  (Text.stripTail? "\r" cs).getD cs

end Provision.Template
