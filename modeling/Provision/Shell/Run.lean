import Provision.Files.Tree
import Provision.Shell.Script
import Provision.Host.Call

namespace Provision.Shell

inductive Ending where
  | exited (status : Nat)
  | killed
deriving DecidableEq, Repr

structure State where
  tree : FileTree
  place : Place
  vars : SortedMap String
  user : String
  status : Nat := 0
  output : String := ""
  errors : String := ""
  ending : Option Ending := none

structure Result where
  state : State
  status : Nat := 0
  output : String := ""
  errors : String := ""

inductive Sink where
  | output
  | errors
  | file (place : Place)
  | discarded
deriving DecidableEq, Repr

def processNumber : String := "4242"

def Reference.value (st : State) : Reference → String
  | .named name => (st.vars.get? name).getD ""
  | .status => Text.natText st.status
  | .process => processNumber

/-- The fields of a word; the second argument is the field that is not closed yet. -/
def fieldsOf (st : State) : Word → Option String → List String
  | [], pending => pending.toList
  | .text s :: rest, pending => fieldsOf st rest (some (pending.getD "" ++ s))
  | .reference r true :: rest, pending => fieldsOf st rest (some (pending.getD "" ++ r.value st))
  | .reference r false :: rest, pending =>
    let value := r.value st
    match Text.words value with
    | [] =>
      if value = "" then fieldsOf st rest pending else pending.toList ++ fieldsOf st rest none
    | first :: more =>
      let starts := value.toList.head?.any Text.isBlank
      let ends := value.toList.getLast?.any Text.isBlank
      let pieces := if starts then pending.toList ++ first :: more else (pending.getD "" ++ first) :: more
      if ends then pieces ++ fieldsOf st rest none
      else pieces.dropLast ++ fieldsOf st rest pieces.getLast?

def textOf (st : State) (w : Word) : String :=
  String.join (w.map fun
    | .text s => s
    | .reference r _ => r.value st)

def ok (st : State) (output : String) : Result := { state := st, output }

def failed (st : State) (status : Nat) (message : String) : Result :=
  { state := st, status, errors := message ++ "\n" }

/-- The text with the escapes of `echo` resolved; the flag says that it ends there. -/
def unescape : List Char → List Char × Bool
  | '\\' :: c :: rest =>
    let go (d : Char) := let (cs, stop) := unescape rest; (d :: cs, stop)
    match c with
    | 'n' => go '\n'
    | 't' => go '\t'
    | 'r' => go '\r'
    | 'a' => go '\x07'
    | 'b' => go '\x08'
    | 'f' => go '\x0c'
    | 'v' => go '\x0b'
    | '\\' => go '\\'
    | 'c' => ([], true)
    | c => let (cs, stop) := unescape rest; ('\\' :: c :: cs, stop)
  | c :: rest => let (cs, stop) := unescape rest; (c :: cs, stop)
  | [] => ([], false)

def echo (args : List String) (st : State) : Result :=
  let (args, ended) := match args with
    | "-n" :: rest => (rest, true)
    | args => (args, false)
  let (cs, stop) := unescape (Text.joinWith " " args).toList
  ok st (String.ofList cs ++ if ended || stop then "" else "\n")

def formatted : List Char → List String → List Char
  | '%' :: '%' :: rest, args => '%' :: formatted rest args
  | '%' :: c :: rest, args =>
    if c = 's' || c = 'd' then (args.head?.getD "").toList ++ formatted rest (args.drop 1)
    else '%' :: c :: formatted rest args
  | c :: rest, args => c :: formatted rest args
  | [], _ => []

def entryOf (st : State) (follow : Bool) (path : String) : Option FileEntry :=
  (st.tree.entry st.place follow path).toOption

def number? (s : String) : Option Int :=
  match s.toList with
  | '-' :: cs => (Text.parseDigits? cs).map fun n => -(n : Int)
  | cs => (Text.parseDigits? cs).map fun n => (n : Int)

def unaryTest (st : State) (op arg : String) : Option Bool :=
  match op with
  | "-n" => some (arg ≠ "")
  | "-z" => some (arg = "")
  | "-e" | "-r" | "-w" => some (entryOf st true arg).isSome
  | "-f" => some (match entryOf st true arg with | some (.file ..) => true | _ => false)
  | "-d" => some (entryOf st true arg == some .directory)
  | "-s" => some (match entryOf st true arg with | some (.file content _) => !content.isEmpty | e => e.isSome)
  | "-x" => some (match entryOf st true arg with
      | some (.file _ mode) => mode % 2 = 1
      | e => e.isSome)
  | "-L" | "-h" => some (match entryOf st false arg with | some (.link _) => true | _ => false)
  | _ => none

def binaryTest (a op b : String) : Option Bool :=
  let compare (f : Int → Int → Bool) : Option Bool := do
    let x ← number? a
    let y ← number? b
    some (f x y)
  match op with
  | "=" => some (a = b)
  | "!=" => some (a ≠ b)
  | "-eq" => compare fun x y => x = y
  | "-ne" => compare fun x y => x ≠ y
  | "-lt" => compare fun x y => x < y
  | "-le" => compare fun x y => x ≤ y
  | "-gt" => compare fun x y => x > y
  | "-ge" => compare fun x y => x ≥ y
  | _ => none

def evaluateTest (st : State) : List String → Option Bool
  | [] => some false
  | [a] => some (a ≠ "")
  | ["!", a] => some (a = "")
  | [op, a] => unaryTest st op a
  | [a, op, b] => if a = "!" then (unaryTest st op b).map (!·) else binaryTest a op b
  | ["!", a, op, b] => (binaryTest a op b).map (!·)
  | _ => none

def test (args : List String) (st : State) : Result :=
  match evaluateTest st args with
  | some holds => { state := st, status := if holds then 0 else 1 }
  | none => failed st 2 "test: unexpected operator"

def changeEach (name : String) (act : FileTree → String → Except FileError FileTree) (args : List String)
    (st : State) : Result :=
  args.foldl (fun r arg =>
    match act r.state.tree arg with
    | .ok tree => { r with state := { r.state with tree } }
    | .error e => { r with status := 1, errors := r.errors ++ name ++ ": " ++ arg ++ ": " ++ e.message ++ "\n" })
    { state := st }

def touch (base : Place) (tree : FileTree) (path : String) : Except FileError FileTree :=
  if tree.isDirectory base path then .ok tree else tree.store base path id

def removeTree (base : Place) (tree : FileTree) (path : String) : Except FileError FileTree := do
  let place ← tree.locate base false path
  match tree.at? place with
  | none => .error .notFound
  | some .directory =>
    let lead := FileTree.key place ++ "/"
    .ok ⟨(tree.erase place).entries.filter fun (k, _) => !Text.startsWith lead k⟩
  | some _ => .ok (tree.erase place)

def ignoreMissing (r : Except FileError FileTree) (tree : FileTree) : Except FileError FileTree :=
  match r with
  | .error .notFound => .ok tree
  | r => r

def options (args : List String) : List Char × List String :=
  let isOption (a : String) : Bool := Text.startsWith "-" a && a ≠ "-"
  ((args.takeWhile isOption).flatMap fun a => a.toList.drop 1, args.dropWhile isOption)

def remove (args : List String) (st : State) : Result :=
  let (flags, paths) := options args
  let act (tree : FileTree) (path : String) :=
    let r := if flags.contains 'r' || flags.contains 'R' then removeTree st.place tree path
      else tree.remove st.place path
    if flags.contains 'f' then ignoreMissing r tree else r
  changeEach "rm" act paths st

def makeDirectory (args : List String) (st : State) : Result :=
  let (flags, paths) := options args
  let act (tree : FileTree) (path : String) :=
    if flags.contains 'p' then tree.makeDirectories st.place (path.length + 1) path
    else tree.makeDirectory st.place path
  changeEach "mkdir" act paths st

def concatenate (args : List String) (input : String) (st : State) : Result :=
  if args.isEmpty then ok st input
  else args.foldl (fun r arg =>
    if arg = "-" then { r with output := r.output ++ input }
    else match st.tree.read st.place arg with
      | .ok content => { r with output := r.output ++ Text.decodeLenient content }
      | .error e => { r with status := 1, errors := r.errors ++ "cat: " ++ arg ++ ": " ++ e.message ++ "\n" })
    { state := st }

def search (args : List String) (input : String) (st : State) : Result :=
  let (flags, rest) := options args
  match rest with
  | [] => failed st 2 "grep: no pattern"
  | pattern :: paths =>
    let source := concatenate paths input st
    let found := (Text.splitAll "\n" source.output).filter fun line =>
      line ≠ "" && Text.containsText pattern line
    let output := if flags.contains 'q' then "" else String.join (found.map (· ++ "\n"))
    { state := st, status := if found.isEmpty then 1 else 0, output }

def owner (args : List String) (st : State) : Result :=
  match args with
  | "-c" :: "%U" :: paths =>
    if paths.all fun p => (entryOf st false p).isSome then ok st (String.join (paths.map fun _ => st.user ++ "\n"))
    else failed st 1 "stat: cannot statx: No such file or directory"
  | _ => failed st 1 "stat: unknown format"

def link (args : List String) (st : State) : Result :=
  match args with
  | ["-s", target, path] => changeEach "ln" (fun tree path => tree.makeLink st.place target path) [path] st
  | _ => failed st 1 "ln: only symbolic links are made"

def changeDirectory (path : String) (st : State) : Result :=
  match st.tree.locate st.place true path with
  | .ok place =>
    if st.tree.at? place == some .directory then { state := { st with place } }
    else failed st 2 ("cd: can't cd to " ++ path)
  | .error _ => failed st 2 ("cd: can't cd to " ++ path)

def exit (args : List String) (st : State) : Result :=
  let status := match args with
    | [] => some st.status
    | n :: _ => (Text.parseDigits? n.toList).map (· % 256)
  match status with
  | some status => { state := { st with ending := some (.exited status) }, status }
  | none => failed { st with ending := some (.exited 2) } 2 "exit: Illegal number"

def kill (args : List String) (st : State) : Result :=
  match args.reverse with
  | target :: signal =>
    if target ≠ processNumber then failed st 1 "kill: No such process"
    else if signal = ["-0"] then ok st ""
    else { state := { st with ending := some .killed } }
  | [] => failed st 2 "kill: no process"

def setAll (args : List String) (vars : SortedMap String) : SortedMap String :=
  (args.filterMap (Text.splitFirst? "=")).foldl (fun vars (name, value) => vars.insert name value) vars

def exportAll (args : List String) (st : State) : Result :=
  { state := { st with vars := setAll args st.vars } }

def utility? (name : String) : Option (List String → String → State → Result) :=
  match name with
  | "true" | ":" | "sleep" => some fun _ _ st => { state := st }
  | "false" => some fun _ _ st => { state := st, status := 1 }
  | "echo" => some fun args _ st => echo args st
  | "printf" => some fun args _ st =>
    ok st (String.ofList (formatted (unescape (args.head?.getD "").toList).1 (args.drop 1)))
  | "exit" => some fun args _ st => exit args st
  | "kill" => some fun args _ st => kill args st
  | "test" => some fun args _ st => test args st
  | "[" => some fun args _ st =>
    if args.getLast? == some "]" then test args.dropLast st else failed st 2 "[: missing ]"
  | "cd" => some fun args _ st => changeDirectory (args.head?.getD ((st.vars.get? "HOME").getD "")) st
  | "pwd" => some fun _ _ st => ok st ("/" ++ FileTree.key st.place ++ "\n")
  | "export" => some fun args _ st => exportAll args st
  | "unset" => some fun args _ st =>
    { state := { st with vars := args.foldl SortedMap.erase st.vars } }
  | "touch" => some fun args _ st => changeEach "touch" (touch st.place) (options args).2 st
  | "mkdir" => some fun args _ st => makeDirectory args st
  | "rm" => some fun args _ st => remove args st
  | "ln" => some fun args _ st => link args st
  | "cat" => some fun args input st => concatenate args input st
  | "grep" => some fun args input st => search args input st
  | "stat" => some fun args _ st => owner args st
  | "whoami" => some fun _ _ st => ok st (st.user ++ "\n")
  | _ => none

structure Streams where
  output : Sink := .output
  errors : Sink := .errors
  input : String

def devNull : String := "/dev/null"

def redirect (st : State) : List Redirection → Streams → FileTree → Except String (Streams × FileTree)
  | [], streams, tree => .ok (streams, tree)
  | .same stream other :: rest, streams, tree =>
    let sink := if other = 1 then streams.output else streams.errors
    redirect st rest (if stream = 1 then { streams with output := sink } else { streams with errors := sink }) tree
  | .input source :: rest, streams, tree =>
    let path := textOf st source
    if path = devNull then redirect st rest { streams with input := "" } tree
    else match tree.read st.place path with
      | .ok content => redirect st rest { streams with input := Text.decodeLenient content } tree
      | .error _ => .error ("cannot open " ++ path)
  | .output stream append target :: rest, streams, tree =>
    let path := textOf st target
    let opened : Except FileError (Sink × FileTree) :=
      if path = devNull then .ok (.discarded, tree)
      else do
        let place ← tree.locate st.place true path
        let tree ← tree.store st.place path fun content => if append then content else []
        .ok (.file place, tree)
    match opened with
    | .ok (sink, tree) =>
      redirect st rest (if stream = 1 then { streams with output := sink } else { streams with errors := sink }) tree
    | .error _ => .error ("cannot create " ++ path)

def State.write (st : State) (sink : Sink) (text : String) : State :=
  match sink with
  | .output => { st with output := st.output ++ text }
  | .errors => { st with errors := st.errors ++ text }
  | .discarded => st
  | .file place =>
    match st.tree.at? place with
    | some (.file content mode) =>
      { st with tree := st.tree.put place (.file (content ++ Text.encode text) mode) }
    | _ => st

def assign (assignments : List (String × Word)) (st : State) : State :=
  assignments.foldl (fun st (name, w) =>
    { st with vars := st.vars.insert name (textOf st w) }) st

def runSimple (c : SimpleCommand) (input : String) (st : State) : State :=
  let args := c.words.flatMap fun w => fieldsOf st w none
  match redirect st c.redirections { input } st.tree with
  | .error message => { st.write .errors ("sh: 1: " ++ message ++ "\n") with status := 2 }
  | .ok (streams, tree) =>
    let st := { st with tree }
    match args with
    | [] => { assign c.assignments st with status := 0 }
    | name :: args =>
      let before := st.vars
      let inner := assign c.assignments st
      let r := match utility? name with
        | some act => act args streams.input inner
        | none => failed inner 127 ("sh: 1: " ++ name ++ ": not found")
      let st := if c.assignments.isEmpty then r.state else { r.state with vars := before }
      { (st.write streams.output r.output).write streams.errors r.errors with status := r.status }

/-- The state after a subshell: files and what was written stay, all else is as before. -/
def leave (outer inner : State) : State :=
  let status := match inner.ending with
    | some (.exited n) => n
    | _ => inner.status
  { outer with
    tree := inner.tree, output := inner.output, errors := inner.errors, status
    ending := if inner.ending = some .killed then some .killed else none }

def Script.run : Script → String → State → State
  | .command c, input, st => if st.ending.isSome then st else runSimple c input st
  | .pipe a b, input, st =>
    if st.ending.isSome then st
    else
      let first := leave st (a.run input { st with output := "" })
      leave st (b.run first.output { st with tree := first.tree, errors := first.errors, ending := first.ending })
  | .both a b, input, st =>
    let st := a.run input st
    if st.status = 0 then b.run input st else st
  | .either a b, input, st =>
    let st := a.run input st
    if st.status = 0 then st else b.run input st
  | .sequence a b, input, st => b.run input (a.run input st)
  | .negation a, input, st =>
    let st := a.run input st
    { st with status := if st.status = 0 then 1 else 0 }
  | .subshell a, input, st => if st.ending.isSome then st else leave st (a.run input st)

/-- What a shell leaves that is given a text to run. -/
def execute (text : String) (st : State) : CommandOutput × FileTree :=
  match parse text with
  | none => (⟨2, "", "sh: 1: Syntax error\n"⟩, st.tree)
  | some none => (⟨0, "", ""⟩, st.tree)
  | some (some script) =>
    let st := script.run "" st
    let exit : Int := match st.ending with
      | some .killed => -1
      | some (.exited n) => n
      | none => st.status
    (⟨exit, st.output, st.errors⟩, st.tree)

end Provision.Shell
