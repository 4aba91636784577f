import Provision.Template.Token

namespace Provision.Template

abbrev Args := List (Option String × Expr)

def binaryOp? : List Token → Option (BinaryOp × List Token)
  | .ident "or" :: ts => some (.or, ts)
  | .ident "and" :: ts => some (.and, ts)
  | .ident "in" :: ts => some (.isIn, ts)
  | .ident "not" :: .ident "in" :: ts => some (.notIn, ts)
  | .symbol s :: ts =>
    match s with
    | .equal => some (.equal, ts)
    | .notEqual => some (.notEqual, ts)
    | .less => some (.less, ts)
    | .lessEqual => some (.lessEqual, ts)
    | .greater => some (.greater, ts)
    | .greaterEqual => some (.greaterEqual, ts)
    | .plus => some (.add, ts)
    | .minus => some (.sub, ts)
    | .tilde => some (.concat, ts)
    | .star => some (.mul, ts)
    | .slash => some (.div, ts)
    | .floorDiv => some (.floorDiv, ts)
    | .percent => some (.rem, ts)
    | .power => some (.pow, ts)
    | _ => none
  | _ => none

def expect (s : Symbol) : List Token → Except Failure (List Token)
  | .symbol t :: ts => if s = t then .ok ts else .error (.malformed "unexpected symbol")
  | _ => .error (.malformed "unexpected token")

def expectName : List Token → Except Failure (String × List Token)
  | .ident name :: ts => .ok (name, ts)
  | _ => .error (.malformed "expected identifier")

/-- Whether a test takes the next token as its argument without brackets. -/
def startsArgument : List Token → Bool
  | .ident name :: _ => !(["and", "or", "else", "is"].contains name)
  | .text _ :: _ | .int _ :: _ | .float _ :: _ => true
  | .symbol s :: _ => s = .plus || s = .minus || s = .openBracket || s = .openBrace
  | [] => false

def nameExpr : String → Expr
  | "true" | "True" => .literal (.bool true)
  | "false" | "False" => .literal (.bool false)
  | "none" | "None" => .literal .none
  | name => .var name

mutual

def parseExpr : Nat → List Token → Except Failure (Expr × List Token)
  | 0, _ => .error .tooDeep
  | fuel + 1, ts => do
    let (e, ts) ← parseLevel fuel 1 ts
    parseCondition fuel e ts

def parseCondition : Nat → Expr → List Token → Except Failure (Expr × List Token)
  | 0, _, _ => .error .tooDeep
  | fuel + 1, e, .ident "if" :: ts => do
    let (test, ts) ← parseLevel fuel 1 ts
    match ts with
    | .ident "else" :: ts => do
      let (no, ts) ← parseExpr fuel ts
      parseCondition fuel (.conditional test e no) ts
    | ts => parseCondition fuel (.conditional test e (.literal .absent)) ts
  | _, e, ts => .ok (e, ts)

/-- An expression of operators that bind at least as tightly as the level says. -/
def parseLevel : Nat → Nat → List Token → Except Failure (Expr × List Token)
  | 0, _, _ => .error .tooDeep
  | fuel + 1, level, ts =>
    match ts, decide (level ≤ notLevel) with
    | .ident "not" :: ts, true => do
      let (e, ts) ← parseLevel fuel notLevel ts
      parseOperators fuel level (.not e) ts
    | ts, _ => do
      let (e, ts) ← parseOperand fuel ts
      parseOperators fuel level e ts

def parseOperators : Nat → Nat → Expr → List Token → Except Failure (Expr × List Token)
  | 0, _, _, _ => .error .tooDeep
  | fuel + 1, level, left, ts =>
    match binaryOp? ts with
    | none => .ok (left, ts)
    | some (op, rest) =>
      if op.level < level then .ok (left, ts)
      else do
        let (right, ts) ← parseLevel fuel (op.level + 1) rest
        parseOperators fuel level (.binary op left right) ts

def parseOperand : Nat → List Token → Except Failure (Expr × List Token)
  | 0, _ => .error .tooDeep
  | fuel + 1, ts => do
    let (e, ts) ← parseSigned fuel ts
    let (e, ts) ← parseAccess fuel e ts
    parseFilters fuel e ts

def parseSigned : Nat → List Token → Except Failure (Expr × List Token)
  | 0, _ => .error .tooDeep
  | fuel + 1, .symbol .minus :: ts => do
    let (e, ts) ← parseSigned fuel ts
    .ok (.neg e, ts)
  | fuel + 1, ts => parsePrimary fuel ts

def parseAccess : Nat → Expr → List Token → Except Failure (Expr × List Token)
  | 0, _, _ => .error .tooDeep
  | fuel + 1, e, .symbol .dot :: ts => do
    let (name, ts) ← expectName ts
    parseAccess fuel (.attribute e name) ts
  | fuel + 1, e, .symbol .openBracket :: ts => do
    let (sub, ts) ← parseSubscript fuel e ts
    parseAccess fuel sub ts
  | fuel + 1, e, .symbol .openParen :: ts => do
    let (args, ts) ← parseArgs fuel true ts
    parseAccess fuel (.call e args) ts
  | _, e, ts => .ok (e, ts)

/-- What stands in square brackets: a key, or up to three parts of a slice. -/
def parseSubscript : Nat → Expr → List Token → Except Failure (Expr × List Token)
  | 0, _, _ => .error .tooDeep
  | fuel + 1, e, ts => do
    let (start, ts) ← parseBound fuel ts
    match ts with
    | .symbol .colon :: ts => do
      let (stop, ts) ← parseBound fuel ts
      let (step, ts) ← match ts with
        | .symbol .colon :: ts => parseBound fuel ts
        | ts => .ok (none, ts)
      let ts ← expect .closeBracket ts
      let part (b : Option Expr) := b.getD (.literal .none)
      .ok (.slice e (part start) (part stop) (part step), ts)
    | ts => do
      let ts ← expect .closeBracket ts
      match start with
      | some key => .ok (.item e key, ts)
      | none => .error (.malformed "empty subscript")

def parseBound : Nat → List Token → Except Failure (Option Expr × List Token)
  | 0, _ => .error .tooDeep
  | _ + 1, .symbol .colon :: ts => .ok (none, .symbol .colon :: ts)
  | _ + 1, .symbol .closeBracket :: ts => .ok (none, .symbol .closeBracket :: ts)
  | fuel + 1, ts => do
    let (e, ts) ← parseExpr fuel ts
    .ok (some e, ts)

/-- Arguments up to the closing bracket, the opening one read already; named ones come last. -/
def parseArgs : Nat → Bool → List Token → Except Failure (Args × List Token)
  | 0, _, _ => .error .tooDeep
  | _ + 1, _, .symbol .closeParen :: ts => .ok ([], ts)
  | fuel + 1, positional, ts => do
    let (e, ts) ← parseExpr fuel ts
    let (arg, ts) ← match e, ts with
      | .var name, .symbol .assign :: ts => do
        let (e, ts) ← parseExpr fuel ts
        .ok ((some name, e), ts)
      | e, ts =>
        if positional then .ok ((none, e), ts)
        else .error (.malformed "positional after named argument")
    match ts with
    | .symbol .closeParen :: ts => .ok ([arg], ts)
    | ts => do
      let ts ← expect .comma ts
      let (more, ts) ← parseArgs fuel (positional && arg.1.isNone) ts
      .ok (arg :: more, ts)

def parseFilters : Nat → Expr → List Token → Except Failure (Expr × List Token)
  | 0, _, _ => .error .tooDeep
  | fuel + 1, e, .symbol .pipe :: ts => do
    let (name, ts) ← expectName ts
    let (args, ts) ← match ts with
      | .symbol .openParen :: ts => parseArgs fuel true ts
      | ts => .ok ([], ts)
    parseFilters fuel (.filter name e args) ts
  | fuel + 1, e, .ident "is" :: ts => do
    let (negated, ts) := match ts with
      | .ident "not" :: ts => (true, ts)
      | ts => (false, ts)
    let (name, ts) ← expectName ts
    let (args, ts) ← parseTestArgs fuel ts
    let test := Expr.test name e args
    parseFilters fuel (if negated then .not test else test) ts
  | _, e, ts => .ok (e, ts)

def parseTestArgs : Nat → List Token → Except Failure (Args × List Token)
  | 0, _ => .error .tooDeep
  | fuel + 1, .symbol .openParen :: ts => parseArgs fuel true ts
  | fuel + 1, ts =>
    if startsArgument ts then do
      let (e, ts) ← parseSigned fuel ts
      let (e, ts) ← parseAccess fuel e ts
      .ok ([(none, e)], ts)
    else .ok ([], ts)

def parsePrimary : Nat → List Token → Except Failure (Expr × List Token)
  | 0, _ => .error .tooDeep
  | _ + 1, .ident name :: ts => .ok (nameExpr name, ts)
  | _ + 1, .text s :: ts => .ok (.literal (.text s), ts)
  | _ + 1, .int n :: ts => .ok (.literal (.int n), ts)
  | _ + 1, .float x :: ts => .ok (.literal (.float x), ts)
  | _ + 1, .symbol .openParen :: .symbol .closeParen :: ts => .ok (.list [], ts)
  | fuel + 1, .symbol .openParen :: ts => do
    let (e, ts) ← parseExpr fuel ts
    match ts with
    | .symbol .comma :: ts => do
      let (items, ts) ← parseItems fuel .closeParen ts
      .ok (.list (e :: items), ts)
    | ts => do
      let ts ← expect .closeParen ts
      .ok (e, ts)
  | fuel + 1, .symbol .openBracket :: ts => do
    let (items, ts) ← parseItems fuel .closeBracket ts
    .ok (.list items, ts)
  | fuel + 1, .symbol .openBrace :: ts => do
    let (entries, ts) ← parseEntries fuel ts
    .ok (.map entries, ts)
  | _, _ => .error (.malformed "unexpected token, expected expression")

def parseItems : Nat → Symbol → List Token → Except Failure (List Expr × List Token)
  | 0, _, _ => .error .tooDeep
  | fuel + 1, close, ts =>
    match expect close ts with
    | .ok ts => .ok ([], ts)
    | .error _ => do
      let (e, ts) ← parseExpr fuel ts
      match expect close ts with
      | .ok ts => .ok ([e], ts)
      | .error _ => do
        let ts ← expect .comma ts
        let (more, ts) ← parseItems fuel close ts
        .ok (e :: more, ts)

def parseEntries : Nat → List Token → Except Failure (List (Expr × Expr) × List Token)
  | 0, _ => .error .tooDeep
  | _ + 1, .symbol .closeBrace :: ts => .ok ([], ts)
  | fuel + 1, ts => do
    let (k, ts) ← parseExpr fuel ts
    let ts ← expect .colon ts
    let (v, ts) ← parseExpr fuel ts
    match ts with
    | .symbol .closeBrace :: ts => .ok ([(k, v)], ts)
    | ts => do
      let ts ← expect .comma ts
      let (more, ts) ← parseEntries fuel ts
      .ok ((k, v) :: more, ts)

end

def exprFuel (ts : List Token) : Nat := 8 * ts.length + 8

def expression (ts : List Token) : Except Failure (Expr × List Token) := parseExpr (exprFuel ts) ts

def finish {α : Type} (r : α × List Token) : Except Failure α :=
  if r.2.isEmpty then .ok r.1 else .error (.malformed "unexpected token")

def wholeExpression (ts : List Token) : Except Failure Expr := do finish (← expression ts)

def Expr.parse (text : String) : Except Failure Expr := do
  let cs := text.toList
  let ts ← scanAll (cs.length + 1) cs
  wholeExpression ts

def reservedNames : List String :=
  ["true", "True", "false", "False", "none", "None", "loop", "self"]

def assignable (ts : List Token) : Except Failure (String × List Token) := do
  let (name, ts) ← expectName ts
  if reservedNames.contains name then .error (.malformed ("cannot assign to " ++ name))
  else .ok (name, ts)

def endsTargets : List Token → Bool
  | [] => true
  | .symbol .closeParen :: _ => true
  | .ident "in" :: _ => true
  | _ => false

mutual

def parseTarget : Nat → List Token → Except Failure (Target × List Token)
  | 0, _ => .error .tooDeep
  | fuel + 1, ts => do
    let (parts, isList, ts) ← parseParts fuel ts
    match parts, isList with
    | [t], false => .ok (t, ts)
    | parts, _ => .ok (.parts parts, ts)

def parseParts : Nat → List Token → Except Failure (List Target × Bool × List Token)
  | 0, _ => .error .tooDeep
  | fuel + 1, ts =>
    if endsTargets ts then .ok ([], true, ts)
    else do
      let (t, ts) ← match ts with
        | .symbol .openParen :: ts => do
          let (t, ts) ← parseTarget fuel ts
          let ts ← expect .closeParen ts
          .ok (t, ts)
        | ts => do
          let (name, ts) ← assignable ts
          .ok (Target.name name, ts)
      match ts with
      | .symbol .comma :: ts => do
        let (more, _, ts) ← parseParts fuel ts
        .ok (t :: more, true, ts)
      | ts => .ok ([t], false, ts)

end

def target (ts : List Token) : Except Failure (Target × List Token) :=
  parseTarget (2 * ts.length + 2) ts

def sectionFilters (name : String) (ts : List Token) : Except Failure Expr := do
  finish (← parseFilters (exprFuel ts) (.var name) (.symbol .pipe :: ts))

def parseParams : Nat → Bool → List Token → Except Failure (List (String × Option Expr) × List Token)
  | 0, _, _ => .error .tooDeep
  | _ + 1, _, .symbol .closeParen :: ts => .ok ([], ts)
  | fuel + 1, needsValue, ts => do
    let (name, ts) ← assignable ts
    let (value, ts) ← match ts with
      | .symbol .assign :: ts => do
        let (e, ts) ← expression ts
        .ok (some e, ts)
      | ts => if needsValue then .error (.malformed "expected a value") else .ok (none, ts)
    match ts with
    | .symbol .closeParen :: ts => .ok ([(name, value)], ts)
    | ts => do
      let ts ← expect .comma ts
      let (more, ts) ← parseParams fuel value.isSome ts
      .ok ((name, value) :: more, ts)

def bracketedTarget : List Token → Except Failure (Target × List Token)
  | .symbol .openParen :: ts => do
    let (t, ts) ← target ts
    let ts ← expect .closeParen ts
    .ok (t, ts)
  | ts => do
    let (name, ts) ← assignable ts
    .ok (.name name, ts)

def parseBindings : Nat → List Token → Except Failure (List (Target × Expr))
  | 0, _ => .error .tooDeep
  | fuel + 1, ts => do
    let (t, ts) ← bracketedTarget ts
    let ts ← expect .assign ts
    let (e, ts) ← expression ts
    match ts with
    | [] => .ok [(t, e)]
    | ts => do
      let ts ← expect .comma ts
      let more ← parseBindings fuel ts
      .ok ((t, e) :: more)

def loopHead (ts : List Token) : Except Failure (Target × Expr × Expr) := do
  let (t, ts) ← target ts
  match ts with
  | .ident "in" :: ts => do
    let (items, ts) ← parseLevel (exprFuel ts) 1 ts
    match ts with
    | .ident "if" :: ts => do
      let (condition, ts) ← expression ts
      finish ((t, items, condition), ts)
    | ts => finish ((t, items, .literal (.bool true)), ts)
  | _ => .error (.malformed "expected in")

/-- Statements up to a statement that starts with one of the closing words; that statement and
the pieces after it are left. At the top no word closes. -/
structure Body where
  stmts : List Stmt
  closing : List Token
  rest : List Piece

def afterName (name : String) : List Token → List Token
  | .ident s :: ts => if s = name then ts else .ident s :: ts
  | ts => ts

/-- Another template may be said to see the names of this one, or not; both mean the same. -/
def skipContext : List Token → Except Failure (List Token)
  | .ident "with" :: .ident "context" :: ts | .ident "without" :: .ident "context" :: ts => .ok ts
  | .ident "with" :: _ | .ident "without" :: _ => .error (.malformed "expected context")
  | ts => .ok ts

def sectionName : String := "section text"

mutual

def parseBody : Nat → List String → List Piece → Except Failure Body
  | 0, _, _ => .error .tooDeep
  | _ + 1, closers, [] =>
    if closers.isEmpty then .ok ⟨[], [], []⟩ else .error (.malformed "unexpected end of input")
  | fuel + 1, closers, .text s :: ps => do
    let body ← parseBody fuel closers ps
    .ok { body with stmts := .text s :: body.stmts }
  | fuel + 1, closers, .expression ts :: ps => do
    let e ← wholeExpression ts
    let body ← parseBody fuel closers ps
    .ok { body with stmts := .print e :: body.stmts }
  | fuel + 1, closers, .statement ts :: ps => do
    let (word, after) ← expectName ts
    if closers.contains word then .ok ⟨[], ts, ps⟩
    else do
      let (stmt, ps) ← parseStmt fuel word after ps
      let body ← parseBody fuel closers ps
      .ok { body with stmts := stmt :: body.stmts }

def parseUntil : Nat → String → List Piece → Except Failure (List Stmt × List Token × List Piece)
  | 0, _, _ => .error .tooDeep
  | fuel + 1, closer, ps => do
    let body ← parseBody fuel [closer] ps
    .ok (body.stmts, body.closing.drop 1, body.rest)

def parseChoice : Nat → List Token → List Piece → Except Failure (Stmt × List Piece)
  | 0, _, _ => .error .tooDeep
  | fuel + 1, ts, ps => do
    let test ← wholeExpression ts
    let yes ← parseBody fuel ["endif", "else", "elif"] ps
    match yes.closing with
    | .ident "elif" :: ts => do
      let (no, ps) ← parseChoice fuel ts yes.rest
      .ok (.choice test yes.stmts [no], ps)
    | [.ident "else"] => do
      let (no, after, ps) ← parseUntil fuel "endif" yes.rest
      finish ((.choice test yes.stmts no, ps), after)
    | closing => finish ((.choice test yes.stmts [], yes.rest), closing.drop 1)

def parseStmt : Nat → String → List Token → List Piece → Except Failure (Stmt × List Piece)
  | 0, _, _, _ => .error .tooDeep
  | fuel + 1, word, ts, ps =>
    match word with
    | "if" => parseChoice fuel ts ps
    | "for" => do
      let (t, items, condition) ← loopHead ts
      let body ← parseBody fuel ["endfor", "else"] ps
      match body.closing with
      | [.ident "else"] => do
        let (otherwise, after, ps) ← parseUntil fuel "endfor" body.rest
        finish ((.loop t items condition body.stmts otherwise, ps), after)
      | closing => finish ((.loop t items condition body.stmts [], body.rest), closing.drop 1)
    | "set" => do
      let (t, ts) ← bracketedTarget ts
      match t, ts with
      | t, .symbol .assign :: ts => do
        let e ← wholeExpression ts
        .ok (.assign t e, ps)
      | .name name, ts => do
        let e ← match ts with
          | [] => .ok (Expr.var sectionName)
          | .symbol .pipe :: ts => sectionFilters sectionName ts
          | _ => .error (.malformed "unexpected token")
        let (body, after, ps) ← parseUntil fuel "endset" ps
        finish ((.assignSection name sectionName e body, ps), after)
      | _, _ => .error (.malformed "unexpected token")
    | "with" => do
      let bindings ← if ts.isEmpty then .ok [] else parseBindings (ts.length + 1) ts
      let (body, after, ps) ← parseUntil fuel "endwith" ps
      finish ((.within bindings body, ps), after)
    | "filter" => do
      let e ← sectionFilters sectionName ts
      let (body, after, ps) ← parseUntil fuel "endfilter" ps
      finish ((.filtered sectionName e body, ps), after)
    | "macro" => do
      let (name, ts) ← assignable ts
      let ts ← expect .openParen ts
      let (params, ts) ← parseParams (ts.length + 1) false ts
      let (body, after, ps) ← parseUntil fuel "endmacro" ps
      finish ((.define name params body, ps), ts ++ afterName name after)
    | "do" => do
      let e ← wholeExpression ts
      match e with
      | .call _ _ => .ok (.evaluate e, ps)
      | _ => .error (.malformed "expected call expression")
    | "block" => do
      let (name, ts) ← expectName ts
      let (body, after, ps) ← parseUntil fuel "endblock" ps
      finish ((.block body, ps), ts ++ afterName name after)
    | "include" => do
      let (e, ts) ← expression ts
      match ← skipContext ts with
      | .ident "ignore" :: .ident "missing" :: ts => do finish ((.evaluate e, ps), ← skipContext ts)
      | ts => finish ((.other, ps), ts)
    | "import" => do
      let (_, ts) ← expression ts
      match ts with
      | .ident "as" :: ts => do
        let (_, ts) ← assignable ts
        finish ((.other, ps), ← skipContext ts)
      | _ => .error (.malformed "expected as")
    | "extends" => do
      let _ ← wholeExpression ts
      .ok (.other, ps)
    | _ => .error (.malformed ("unknown statement " ++ word))

end

def parse (text : String) : Except Failure (List Stmt) := do
  let pieces ← Piece.scan text.toList
  let body ← parseBody (3 * pieces.length + 3) [] pieces
  .ok body.stmts

end Provision.Template
