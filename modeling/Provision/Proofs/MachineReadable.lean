import Provision.Proofs.LoadedResources
import Provision.Proofs.Program
import Provision.Proofs.ReportRoundTrip

namespace Provision

namespace Display.Output

@[simp] theorem none_append (out : Output) : Output.none ++ out = out := by
  change (⟨"" ++ out.stdout, "" ++ out.stderr⟩ : Output) = out
  rw [String.empty_append, String.empty_append]

@[simp] theorem append_none (out : Output) : out ++ Output.none = out := by
  change (⟨out.stdout ++ "", out.stderr ++ ""⟩ : Output) = out
  rw [String.append_empty, String.append_empty]

theorem line_stdout (text : String) : (lines [text]).stdout = text ++ "\n" := by
  simp [lines, String.join]

end Display.Output

namespace Execution

open Display (Output)

variable {σ : Type} {opts : ExecutionOptions}

section

variable (silent : opts.silent = true)

include silent

theorem whenShown_silent (out : Output) : whenShown opts out = .none := if_pos silent

theorem next_silent (preview : RunReport) :
    next opts preview = .stop .none ∨ next opts preview = .ask .none := by
  unfold next
  simp only [whenShown_silent silent]
  split
  · exact Or.inl rfl
  · split
    · exact Or.inr rfl
    · split
      · exact Or.inr rfl
      · exact Or.inl rfl

theorem proceed_silent (host : Host σ) (l : RunList) (w : World σ) :
    (w.run (proceed host l opts .none)).1.2 = .none := by
  unfold proceed
  rw [World.run_bind]
  rcases (w.run (converge host l (opts.run false)).run) with ⟨_ | report, next⟩
  · simp [whenShown_silent silent]
  · simp [whenShown_silent silent]

theorem execute_silent (yes : opts.yes = true) (host : Host σ) (consent : Consent) (l : RunList) (w : World σ) :
    (w.run (execute host consent l opts)).1.2 = .none := by
  unfold execute
  rw [World.run_bind]
  rcases (w.run (converge host l (opts.run true)).run) with ⟨_ | preview, mid⟩
  · rfl
  · have shown : previewOutput opts preview = .none := whenShown_silent silent _
    rcases next_silent silent preview with stop | ask
    · simp [stop, shown]
    · simp [ask, shown, yes, proceed_silent silent]

end

end Execution

namespace CommandLine

open Display (Output)

/-- The end of a run of a plan that shows nothing and asks nothing. -/
def silentRun (system : LocalSystem) (setting : Setting) (plan : Plan) (verbose dryRun : Bool) :
    Except ExecutionError Execution :=
  ((plan.world setting system).run (Execution.execute LocalSystem.host setting.consent plan.runList
    (plan.options verbose true dryRun true))).1.1

variable {system : LocalSystem} {setting : Setting} {run : RunArguments}

theorem run_json (json : run.json = true) (verbose quiet dryRun : Bool) :
    (CommandLine.run system setting verbose quiet run dryRun true).1 =
      match Plan.load system setting run with
      | .error e => refused e.message
      | .ok plan =>
        if plan.runList.isEmpty then ⟨.none, 0⟩
        else match silentRun system setting plan verbose dryRun with
          | .error e => ⟨Display.error (executionMessage e), loadErrorExit⟩
          | .ok e => ⟨.lines [(reportJson setting run e).pretty], e.exitCode⟩ := by
  unfold CommandLine.run
  simp only [json, Bool.true_or, Bool.not_true, Bool.and_false, Bool.false_eq_true, ↓reduceIte]
  cases Plan.load system setting run with
  | error e => rfl
  | ok plan =>
    have shown : ((plan.world setting system).run (Execution.execute LocalSystem.host setting.consent plan.runList
        (plan.options verbose true dryRun true))).1.2 = .none := Execution.execute_silent rfl rfl _ _ _ _
    simp only
    split
    · rfl
    · rw [silentRun]
      unfold World.run at shown ⊢
      generalize Execution.execute LocalSystem.host setting.consent plan.runList
        (plan.options verbose true dryRun true) (plan.world setting system) = ended at shown ⊢
      obtain ⟨⟨result, display⟩, last⟩ := ended
      obtain rfl : display = .none := shown
      cases result with
      | error e => simp
      | ok e => simp [closing, json]

/-- The command line asks for a run that prints its report as JSON and asks nothing: a real one or a dry run. -/
inductive AsksForReport (vars : SortedMap String) (args : List String) (run : RunArguments) :
    (verbose dryRun : Bool) → Prop
  | apply {verbose quiet : Bool} (parsed : Arguments.parse args vars = .ok ⟨verbose, quiet, .apply run true⟩)
    (json : run.json = true) : AsksForReport vars args run verbose false
  | diff {verbose quiet : Bool} (parsed : Arguments.parse args vars = .ok ⟨verbose, quiet, .diff run⟩)
    (json : run.json = true) : AsksForReport vars args run verbose true

/-- The output is one JSON document that holds the report of a run. -/
def HoldsReport (setting : Setting) (run : RunArguments) (e : Execution) (out : String) : Prop :=
  Json.parse? out = some (reportJson setting run e) ∧ RunReport.ofText? out = some e.report

theorem holdsReport_printed (setting : Setting) (run : RunArguments) (e : Execution) :
    HoldsReport setting run e (Output.lines [(reportJson setting run e).pretty]).stdout := by
  have parsed := parse?_reportJson setting run e
  rw [Output.line_stdout]
  refine ⟨parsed, ?_⟩
  rw [RunReport.ofText?, parsed]
  exact ofJson?_reportJson setting run e

theorem not_holdsReport_empty (setting : Setting) (run : RunArguments) (e : Execution) :
    ¬ HoldsReport setting run e "" := by
  rintro ⟨parsed, -⟩
  have nothing : Json.parse? "" = none := rfl
  rw [nothing] at parsed
  cases parsed

theorem AsksForReport.start_eq (system : LocalSystem) {args : List String} {verbose dryRun : Bool}
    (asks : AsksForReport setting.vars args run verbose dryRun) : run.json = true ∧
      ∃ quiet, (start system setting args).1 = (CommandLine.run system setting verbose quiet run dryRun true).1 := by
  cases asks with
  | apply parsed json => exact ⟨json, _, by rw [start, parsed]⟩
  | diff parsed json => exact ⟨json, _, by rw [start, parsed]⟩

theorem AsksForReport.prints {args : List String} {verbose dryRun : Bool}
    (asks : AsksForReport setting.vars args run verbose dryRun)
    (ran : (start system setting args).1.exit = 0 ∨ (start system setting args).1.exit = 1) :
    ∃ plan, Plan.load system setting run = .ok plan ∧
      ((∃ e, silentRun system setting plan verbose dryRun = .ok e ∧
          HoldsReport setting run e (start system setting args).1.output.stdout) ↔ plan.runList.isEmpty = false) := by
  obtain ⟨json, quiet, ending⟩ := asks.start_eq system
  rw [ending, run_json json] at ran ⊢
  cases loaded : Plan.load system setting run with
  | error e =>
    simp [loaded, refused, loadErrorExit] at ran
  | ok plan =>
    rw [loaded] at ran
    refine ⟨plan, rfl, ?_⟩
    cases empty : plan.runList.isEmpty with
    | true =>
      simp only [empty, ↓reduceIte, Bool.true_eq_false, iff_false]
      rintro ⟨e, -, holds⟩
      exact not_holdsReport_empty setting run e holds
    | false =>
      simp only [empty, Bool.false_eq_true, ↓reduceIte, iff_true] at ran ⊢
      cases ended : silentRun system setting plan verbose dryRun with
      | error e =>
        simp [ended, loadErrorExit] at ran
      | ok e => exact ⟨e, rfl, holdsReport_printed setting run e⟩

def askedFilter : Option String → Except Error Filter
  | some text => Filter.parse text
  | none => .ok .all

def found (system : LocalSystem) (kind : String) (filter : Option String) (path : String) :
    Except LoadError (List Record) := do
  let inventory ← Inventory.load system.tree system.base (some path)
  let asked ← (askedFilter filter).mapError .ofError
  .ok (inventory.query kind asked)

def queryOutput (quiet : Bool) (kind : String) (records : List Record) : Output :=
  (if records.isEmpty && !quiet then Display.warn ("No '" ++ kind ++ "' records match") else .none) ++
    .lines [(Json.array (records.map Record.toJson)).pretty]

theorem query_eq (system : LocalSystem) (quiet : Bool) (kind : String) (filter : Option String) (path : String) :
    query system quiet kind filter path =
      match found system kind filter path with
      | .error e => refused e.message
      | .ok records => ⟨queryOutput quiet kind records, 0⟩ := by
  cases filter <;> rfl

theorem found_eq_ok {kind path : String} {filter : Option String} {records : List Record} :
    found system kind filter path = .ok records ↔
      ∃ inventory asked, Inventory.load system.tree system.base (some path) = .ok inventory ∧
        askedFilter filter = .ok asked ∧ inventory.query kind asked = records := by
  simp only [found, bind_eq_ok, mapError_eq_ok, Except.ok.injEq]
  constructor
  · rintro ⟨inventory, loaded, asked, parsed, rfl⟩
    exact ⟨inventory, asked, loaded, parsed, rfl⟩
  · rintro ⟨inventory, asked, loaded, parsed, rfl⟩
    exact ⟨inventory, loaded, asked, parsed, rfl⟩

theorem read?_warn (message : String) (out : Output) :
    Source.read? (Display.warn message ++ out).stdout = none := by
  have shown : (Display.warn message ++ out).stdout.toList = '⚠' :: ' ' :: (message ++ "\n" ++ out.stdout).toList := by
    change ((Display.warn message).stdout ++ out.stdout).toList = _
    rw [Display.warn, Output.line_stdout]
    simp
  have stray : ∀ cs fuel, Source.readValue (fuel + 1) ('⚠' :: cs) = none := by
    intro cs fuel
    rw [Source.readValue, Source.skip_cons (by decide)]
    rfl
  simp only [Source.read?, shown, stray]

/-- The output is one JSON array of the records in their order. -/
def HoldsRecords (records : List Record) (out : String) : Prop :=
  Source.read? out = some (Json.array (records.map Record.toJson)).source

/-- Where no record holds a double, the array is read back as it was. -/
theorem HoldsRecords.parse? {records : List Record} {out : String} (holds : HoldsRecords records out)
    (plain : Json.Plain Source.maxDepth (.array (records.map Record.toJson))) :
    Json.parse? out = some (.array (records.map Record.toJson)) := by
  rw [Json.parse?, holds]
  exact plain.toJson?_source

theorem holdsRecords_iff (quiet : Bool) (kind : String) (records : List Record) :
    HoldsRecords records (queryOutput quiet kind records).stdout ↔ records ≠ [] ∨ quiet = true := by
  unfold queryOutput HoldsRecords
  cases warned : records.isEmpty && !quiet with
  | true =>
    obtain ⟨nothing, loud⟩ : records = [] ∧ quiet = false := by simpa using warned
    simp [read?_warn, nothing, loud]
  | false =>
    have printed := Json.read?_prettyLine (.array (records.map Record.toJson))
    have allowed : records ≠ [] ∨ quiet = true := by
      by_contra other
      simp_all
    simp [Output.line_stdout, printed, allowed]

/-- What the program prints for other programs. A run that is asked for its report prints it exactly when there is a
resource left to converge, and a query prints its records exactly when there are some or it is quiet. -/
theorem start_prints_json (system : LocalSystem) (setting : Setting) (args : List String) :
    (∀ run verbose dryRun, AsksForReport setting.vars args run verbose dryRun →
      (start system setting args).1.exit = 0 ∨ (start system setting args).1.exit = 1 →
      ∃ plan, Plan.load system setting run = .ok plan ∧
        ((∃ e, silentRun system setting plan verbose dryRun = .ok e ∧
          HoldsReport setting run e (start system setting args).1.output.stdout) ↔
            plan.runList.isEmpty = false)) ∧
    (∀ verbose quiet kind filter path,
      Arguments.parse args setting.vars = .ok ⟨verbose, quiet, .inventory kind filter path⟩ →
      (start system setting args).1.exit = 0 →
      ∃ inventory asked, Inventory.load system.tree system.base (some path) = .ok inventory ∧
        askedFilter filter = .ok asked ∧
        (HoldsRecords (inventory.query kind asked) (start system setting args).1.output.stdout ↔
          inventory.query kind asked ≠ [] ∨ quiet = true)) := by
  refine ⟨fun run verbose dryRun asks ran => asks.prints ran, ?_⟩
  intro verbose quiet kind filter path parsed ran
  have queried : (start system setting args).1 = query system quiet kind filter path := by rw [start, parsed]
  rw [queried, query_eq] at ran ⊢
  cases records : found system kind filter path with
  | error e => simp [records, refused, loadErrorExit] at ran
  | ok records =>
    obtain ⟨inventory, asked, loaded, filtered, rfl⟩ := found_eq_ok.mp records
    exact ⟨inventory, asked, loaded, filtered, holdsRecords_iff quiet kind _⟩

def siteText : String := "[[resource]]\nkind = \"execute\"\nname = \"a\"\ncommand = \"true\"\n"

def siteBytes : Text.Bytes := siteText.toList.map fun c => UInt8.ofNat c.toNat

def siteSystem : LocalSystem where
  tree := ⟨[("i.json", .file [0x7b, 0x7d] FileTree.newMode), ("r.toml", .file siteBytes FileTree.newMode)]⟩
  base := []
  user := "root"
  users := ["root"]
  groups := ["root"]
  programs := fun _ _ _ => none

def siteSetting : Setting := { vars := [], home := none, consent := .ok true }

theorem settings_usual {tree : FileTree} (bare : tree.at? ["etc"] = none) : Settings.load tree [] none none = .ok {} := by
  have steps : FileTree.steps Settings.systemFile = ["etc", "steward", "config.toml"] := by decide +kernel
  have walked : tree.walk true FileTree.maxLinks [] ["etc", "steward", "config.toml"] = .error .notFound := by
    rw [FileTree.walk, if_neg (by decide), if_neg (by decide), if_neg (by decide +kernel)]
    simp [bare]
  have located : tree.locate [] true Settings.systemFile = .error .notFound := by
    rw [FileTree.locate, steps, if_neg (by decide +kernel), if_neg (by decide +kernel), if_neg (by decide +kernel)]
    exact walked
  have absent : tree.exists? [] true Settings.systemFile = false := by
    rw [FileTree.exists?, FileTree.entry, located]
    rfl
  simp [Settings.load, absent]

theorem read_named {tree : FileTree} {name text : String} {bytes : Text.Bytes}
    (legal : (name.toList.contains '\x00' || name == "" || name == "." || name == ".." ||
      decide (FileTree.maxName < name.utf8ByteSize) || decide (FileTree.maxPath < name.utf8ByteSize)) = false)
    (steps : FileTree.steps name = [name]) (file : tree.at? [name] = some (.file bytes FileTree.newMode))
    (decoded : Text.decode? bytes = some text) : tree.readText [] name = .ok text := by
  simp only [Bool.or_eq_false_iff, beq_eq_false_iff_ne, decide_eq_false_iff_not] at legal
  obtain ⟨⟨⟨⟨⟨noNull, filled⟩, here⟩, above⟩, short⟩, fits⟩ := legal
  have walked : tree.walk true FileTree.maxLinks [] [name] = .ok [name] := by
    rw [FileTree.walk, if_neg here, if_neg above, if_neg short]
    simp [file]
  have located : tree.locate [] true name = .ok [name] := by
    rw [FileTree.locate, noNull, if_neg Bool.false_ne_true, if_neg filled, if_neg fits, steps, ite_self]
    exact walked
  simp [FileTree.readText, FileTree.read, FileTree.entry, located, file, bind, Except.bind, decoded]

theorem plan_site {recipe : Recipe} (base : system.base = []) (bare : system.tree.at? ["etc"] = none)
    (file : system.tree.at? ["r.toml"] = some (.file siteBytes FileTree.newMode))
    (parsed : Recipe.parse siteText .empty {} = .ok recipe) (target : Option String) (json : Bool) :
    Plan.load system siteSetting { recipe := "r.toml", target, json } =
      .ok ⟨{}, recipe, recipe.runList.filterByTarget target⟩ := by
  have read : system.tree.readText [] "r.toml" = .ok siteText :=
    read_named (by decide +kernel) (by decide +kernel) file (by decide +kernel)
  have load : Recipe.load system.tree [] "r.toml" .empty {} = .ok recipe := by
    rw [Recipe.load, read]
    simp [LoadError.ofFile, bind, Except.bind, parsed, Except.mapError]
  simp only [Plan.load, base, bind_eq_ok]
  exact ⟨_, settings_usual bare, _, rfl, _, load, rfl⟩

theorem inventory_site {tree : FileTree} {text : String} {bytes : Text.Bytes} {inventory : Inventory}
    (file : tree.at? ["i.json"] = some (.file bytes FileTree.newMode)) (decoded : Text.decode? bytes = some text)
    (parsed : Inventory.parse? text = some inventory) : Inventory.load tree [] (some "i.json") = .ok inventory := by
  have read : tree.readText [] "i.json" = .ok text := read_named (by decide +kernel) (by decide +kernel) file decoded
  simp [Inventory.load, read, LoadError.ofFile, Except.mapError, bind, Except.bind, parsed]

def shopText : String := "\x7b\"search\":\x7b\"app\":[\x7b\"id\":\"shop\"\x7d]\x7d\x7d"

def shopBytes : Text.Bytes := shopText.toList.map fun c => UInt8.ofNat c.toNat

/-- A system with the same recipe, an inventory of one record, and programs that all succeed. -/
def shopSystem : LocalSystem :=
  { siteSystem with
    tree := ⟨[("i.json", .file shopBytes FileTree.newMode), ("r.toml", .file siteBytes FileTree.newMode)]⟩
    programs := fun _ _ tree => some (⟨0, "", ""⟩, tree) }

def wholeRun : RunArguments := { recipe := "r.toml", json := true }

def shopRecord : Record := ⟨[("id", .string "shop")]⟩

theorem shopInventory_load : ∃ inventory, Inventory.load shopSystem.tree [] (some "i.json") = .ok inventory ∧
    inventory.query "app" .all = [shopRecord] ∧ inventory.query "nope" .all = [] := by
  have parsed : ((Inventory.parse? shopText).map fun inventory =>
      ((inventory.query "app" .all).map (·.attributes.map fun field => (field.1, field.2.asString?)),
        (inventory.query "nope" .all).isEmpty)) = some ([[("id", some "shop")]], true) := by decide +kernel
  obtain ⟨inventory, loads, facts⟩ := Option.map_eq_some_iff.mp parsed
  obtain ⟨one, none⟩ := Prod.mk.inj facts
  refine ⟨inventory, inventory_site rfl (by decide +kernel) loads, ?_, List.isEmpty_iff.mp none⟩
  obtain ⟨record, fields, records⟩ := List.map_eq_singleton_iff.mp one
  obtain ⟨⟨name, v⟩, field, entry⟩ := List.map_eq_singleton_iff.mp records
  obtain ⟨rfl, string⟩ := Prod.mk.inj entry
  obtain rfl : v = .string "shop" := Json.asString?_eq_some string
  rw [fields, shopRecord, ← field]

theorem start_prints_json_shop :
    ∃ plan, Plan.load shopSystem siteSetting wholeRun = .ok plan ∧
      (∃ e, silentRun shopSystem siteSetting plan false true = .ok e ∧
        HoldsReport siteSetting wholeRun e (start shopSystem siteSetting ["diff", "r.toml", "--json"]).1.output.stdout) ∧
      (∃ e, silentRun shopSystem siteSetting plan false false = .ok e ∧
        HoldsReport siteSetting wholeRun e
          (start shopSystem siteSetting ["apply", "r.toml", "--json", "--yes"]).1.output.stdout) ∧
      Json.parse? (start shopSystem siteSetting ["inventory", "app", "-i", "i.json"]).1.output.stdout =
        some (.array [shopRecord.toJson]) ∧
      Json.parse? (start shopSystem siteSetting ["inventory", "nope", "-i", "i.json", "-q"]).1.output.stdout =
        some (.array []) := by
  -- Only the plan and the ends of the two runs are computed; what they print follows.
  have facts : ((Recipe.parse siteText .empty {}).toOption.map fun recipe =>
      let plan : Plan := ⟨{}, recipe, recipe.runList.filterByTarget none⟩
      (plan.runList.isEmpty, (silentRun shopSystem siteSetting plan false true).toOption.map (·.exitCode),
        (silentRun shopSystem siteSetting plan false false).toOption.map (·.exitCode))) =
      some (false, some 0, some 0) := by decide +kernel
  obtain ⟨recipe, parsed, facts⟩ := Option.map_eq_some_iff.mp facts
  simp only [Prod.mk.injEq, Option.map_eq_some_iff, toOption_eq_some] at facts parsed
  obtain ⟨filled, ⟨previewed, dry, dryExit⟩, applied, real, realExit⟩ := facts
  let plan : Plan := ⟨{}, recipe, recipe.runList.filterByTarget none⟩
  have loaded : Plan.load shopSystem siteSetting wholeRun = .ok plan := plan_site rfl rfl rfl parsed none true
  obtain ⟨inventory, listed, one, none⟩ := shopInventory_load
  have reports : ∀ args dryRun, AsksForReport siteSetting.vars args wholeRun false dryRun →
      ∀ e, silentRun shopSystem siteSetting plan false dryRun = .ok e → e.exitCode = 0 →
        ∃ e, silentRun shopSystem siteSetting plan false dryRun = .ok e ∧
          HoldsReport siteSetting wholeRun e (start shopSystem siteSetting args).1.output.stdout := by
    intro args dryRun asks e ended exit
    have ran : (start shopSystem siteSetting args).1.exit = 0 := by
      obtain ⟨json, quiet, ending⟩ := asks.start_eq shopSystem
      rw [ending, run_json json, loaded]
      simp [plan, filled, ended, exit]
    obtain ⟨plan', found, reported⟩ := (start_prints_json shopSystem siteSetting args).1 _ _ _ asks (.inl ran)
    obtain rfl := Except.ok.inj (loaded.symm.trans found)
    exact reported.mpr filled
  have records : ∀ args quiet kind,
      Arguments.parse args siteSetting.vars = .ok ⟨false, quiet, .inventory kind .none "i.json"⟩ →
      inventory.query kind .all ≠ [] ∨ quiet = true →
        HoldsRecords (inventory.query kind .all) (start shopSystem siteSetting args).1.output.stdout := by
    intro args quiet kind parsed some
    have ran : (start shopSystem siteSetting args).1.exit = 0 := by
      have found : found shopSystem kind .none "i.json" = .ok (inventory.query kind .all) :=
        found_eq_ok.mpr ⟨inventory, .all, listed, rfl, rfl⟩
      have asked : (start shopSystem siteSetting args).1 = query shopSystem quiet kind .none "i.json" := by
        rw [start, parsed]
      rw [asked, query_eq, found]
    obtain ⟨inventory', asked, listed', filtered, holds⟩ :=
      (start_prints_json shopSystem siteSetting args).2 _ _ _ _ _ parsed ran
    obtain rfl := Except.ok.inj (listed.symm.trans listed')
    cases filtered
    exact holds.mpr some
  refine ⟨plan, loaded, reports _ _ (.diff rfl rfl) _ dry dryExit, reports _ _ (.apply rfl rfl) _ real realExit, ?_, ?_⟩
  · have holds := records ["inventory", "app", "-i", "i.json"] false "app" rfl (.inl (by simp [one]))
    rw [one] at holds
    refine holds.parse? (.array fun v member => ?_)
    rw [List.map_singleton, List.mem_singleton] at member
    rw [member]
    exact .object (List.nodup_singleton _) fun field member => by simp_all [shopRecord, Json.Plain.string]
  · have holds := records ["inventory", "nope", "-i", "i.json", "-q"] true "nope" rfl (.inr rfl)
    rw [none] at holds
    exact holds.parse? (.array nofun)

def siteRun : RunArguments := { recipe := "r.toml", target := some "nope", json := true }

def siteArgs : List String := ["diff", "r.toml", "-t", "nope", "--json"]

theorem sitePlan_empty : ∃ plan, Plan.load siteSystem siteSetting siteRun = .ok plan ∧ plan.runList.isEmpty = true := by
  have parsed : ((Recipe.parse siteText .empty {}).toOption.map fun recipe =>
      (recipe.runList.filterByTarget siteRun.target).isEmpty) = some true := by decide +kernel
  obtain ⟨recipe, loads, empty⟩ := Option.map_eq_some_iff.mp parsed
  exact ⟨_, plan_site rfl rfl rfl (toOption_eq_some.mp loads) (some "nope") true, empty⟩

theorem siteInventory_load : ∃ inventory, Inventory.load siteSystem.tree [] (some "i.json") = .ok inventory ∧
    inventory.query "nope" .all = [] := by
  have parsed : ((Inventory.parse? "\x7b\x7d").map fun inventory => (inventory.query "nope" .all).isEmpty) =
      some true := by decide +kernel
  obtain ⟨inventory, loads, empty⟩ := Option.map_eq_some_iff.mp parsed
  exact ⟨inventory, inventory_site rfl (by decide +kernel) loads, List.isEmpty_iff.mp empty⟩

/-- The dry run of a recipe whose only resource is not in the target succeeds and prints nothing. A query that finds
nothing succeeds and prints a warning before its array. -/
theorem start_prints_no_json :
    (AsksForReport siteSetting.vars siteArgs siteRun false true ∧
      (start siteSystem siteSetting siteArgs).1 = ⟨.none, 0⟩ ∧
      ∀ e, ¬ HoldsReport siteSetting siteRun e (start siteSystem siteSetting siteArgs).1.output.stdout) ∧
    (start siteSystem siteSetting ["inventory", "nope", "-i", "i.json"]).1 =
      ⟨.lines ["⚠ No 'nope' records match", "[]"], 0⟩ ∧
    ¬ HoldsRecords [] (start siteSystem siteSetting ["inventory", "nope", "-i", "i.json"]).1.output.stdout := by
  have parsed : Arguments.parse siteArgs siteSetting.vars = .ok ⟨false, false, .diff siteRun⟩ := rfl
  have asks : AsksForReport siteSetting.vars siteArgs siteRun false true := .diff parsed rfl
  have ended : (start siteSystem siteSetting siteArgs).1 = ⟨.none, 0⟩ := by
    obtain ⟨plan, loaded, empty⟩ := sitePlan_empty
    obtain ⟨json, quiet, ending⟩ := asks.start_eq siteSystem
    rw [ending, run_json json, loaded]
    simp [empty]
  have queried : (start siteSystem siteSetting ["inventory", "nope", "-i", "i.json"]).1 =
      ⟨queryOutput false "nope" [], 0⟩ := by
    obtain ⟨inventory, loaded, empty⟩ := siteInventory_load
    have records : found siteSystem "nope" none "i.json" = .ok [] :=
      found_eq_ok.mpr ⟨inventory, .all, loaded, rfl, empty⟩
    have asked : (start siteSystem siteSetting ["inventory", "nope", "-i", "i.json"]).1 =
        query siteSystem false "nope" none "i.json" := rfl
    rw [asked, query_eq, records]
  refine ⟨⟨asks, ended, fun e => ?_⟩, ?_, ?_⟩
  · rw [ended]
    exact not_holdsReport_empty siteSetting siteRun e
  · rw [queried]
    rfl
  · rw [queried, holdsRecords_iff]
    simp

end CommandLine

end Provision
