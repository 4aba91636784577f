import Provision.Proofs.LoadedResources
import Provision.Proofs.TemplateText

namespace Provision

open Text (isBlank trimChars trimStartChars trimEndChars)

theorem Text.trimChars_parts (cs : List Char) : ∃ lead after, cs = lead ++ (trimChars cs ++ after) ∧
    (∀ c ∈ lead, isBlank c = true) ∧ ∀ c ∈ after, isBlank c = true := by
  have front := List.takeWhile_append_dropWhile (p := isBlank) (l := cs)
  have back := List.takeWhile_append_dropWhile (p := isBlank) (l := (trimStartChars cs).reverse)
  refine ⟨cs.takeWhile isBlank, ((trimStartChars cs).reverse.takeWhile isBlank).reverse, ?_, ?_, ?_⟩
  · have whole : trimChars cs ++ ((trimStartChars cs).reverse.takeWhile isBlank).reverse = trimStartChars cs := by
      rw [trimChars, trimEndChars, ← List.reverse_append, back, List.reverse_reverse]
    rw [whole]
    exact front.symm
  · exact fun c member => List.mem_takeWhile_imp member
  · exact fun c member => List.mem_takeWhile_imp (List.mem_reverse.mp member)

theorem Text.stripLead?_eq_some {p s rest : String} (read : Text.stripLead? p s = some rest) :
    s.toList = p.toList ++ rest.toList := by
  obtain ⟨cs, found, rfl⟩ := Option.map_eq_some_iff.mp read
  rw [dropLead?_eq_some_iff.mp found, String.toList_ofList]

theorem Text.stripTail?_eq_some {p s rest : String} (read : Text.stripTail? p s = some rest) :
    s.toList = rest.toList ++ p.toList := by
  obtain ⟨cs, found, rfl⟩ := Option.map_eq_some_iff.mp read
  have whole := congrArg List.reverse (dropLead?_eq_some_iff.mp found)
  rwa [List.reverse_reverse, List.reverse_append, List.reverse_reverse,
    ← String.toList_ofList (l := cs.reverse)] at whole

theorem Text.stripTail?_prefix (p s : String) : ((Text.stripTail? p s).getD s).toList <+: s.toList := by
  cases found : Text.stripTail? p s with
  | none => exact List.prefix_rfl
  | some rest => exact ⟨p.toList, (Text.stripTail?_eq_some found).symm⟩

theorem Text.stripTail_blank {p s : String} {front after : List Char} (plain : '\x7d' ∉ p.toList)
    (whole : s.toList = front ++ '\x7d' :: after) (blank : ∀ c ∈ after, isBlank c = true) :
    ∃ shorter, ((Text.stripTail? p s).getD s).toList = front ++ '\x7d' :: shorter ∧
      ∀ c ∈ shorter, isBlank c = true := by
  cases taken : Text.stripTail? p s with
  | none => exact ⟨after, whole, blank⟩
  | some rest =>
    have parts := (Text.stripTail?_eq_some taken).symm.trans whole
    rcases List.append_eq_append_iff.mp parts with ⟨more, -, inside⟩ | ⟨more, kept, ending⟩
    · exact (plain (by rw [inside]; simp)).elim
    · cases more with
      | nil =>
        rw [List.nil_append] at ending
        exact (plain (by rw [← ending]; exact List.mem_cons_self)).elim
      | cons c shorter =>
        obtain ⟨rfl, same⟩ := List.cons.inj ending
        refine ⟨shorter, kept, fun d member => blank d ?_⟩
        rw [same]
        exact List.mem_append_left _ member

theorem Template.withoutFinalNewline_blank {s : String} {front after : List Char}
    (whole : s.toList = front ++ '\x7d' :: after) (blank : ∀ c ∈ after, isBlank c = true) :
    ∃ shorter, (Template.withoutFinalNewline s).toList = front ++ '\x7d' :: shorter ∧
      ∀ c ∈ shorter, isBlank c = true := by
  obtain ⟨shorter, first, inner⟩ := Text.stripTail_blank (p := "\n") (by decide +kernel) whole blank
  exact Text.stripTail_blank (p := "\r") (by decide +kernel) first inner

def Spec.command? : Spec → Option Command
  | .command c => some c
  | _ => none

theorem Spec.command?_eq_some {spec : Spec} {c : Command} : spec.command? = some c ↔ spec = .command c := by
  cases spec <;> simp [command?]

namespace Recipe

variable {scope : Scope} {s : String}

/-- Evaluated as a template, the string prints, tests or looks into what is not there. -/
def Misses (scope : Scope) (s : String) : Prop :=
  Template.render (Template.withoutFinalNewline s) (.object scope) = .error .undefinedValue

/-- A single expression that starts with a minus sign. As a template it drops the blanks before it, by itself it
negates. -/
def Signed (s : String) : Prop :=
  (soleExpression? s).isSome ∧ Text.startsWith "\x7b\x7b-" (Text.trim s)

/-- A single expression whose own value is not there. -/
def Unprinted (scope : Scope) (s : String) : Prop :=
  ∃ text e, soleExpression? s = some text ∧ Template.Expr.parse text = .ok e ∧ e.eval (.object scope) = .ok .undefined

theorem soleExpression?_parts {text : String} (found : soleExpression? s = some text) :
    ∃ lead pre post after, Template.Sole (Template.withoutFinalNewline s).toList lead [] pre text.toList post after ∧
      (Text.trim s).toList = '\x7b' :: '\x7b' :: (pre ++ (text.toList ++ (post ++ ['\x7d', '\x7d']))) := by
  unfold soleExpression? at found
  obtain ⟨opened, first, found⟩ := Option.bind_eq_some_iff.mp found
  obtain ⟨inner, last, found⟩ := Option.bind_eq_some_iff.mp found
  split at found
  · cases found
  · cases found
    obtain ⟨pre, post, parts, preBlank, postBlank⟩ := Text.trimChars_parts inner.toList
    obtain ⟨lead, after, outer, leadBlank, afterBlank⟩ := Text.trimChars_parts s.toList
    have trimmed : trimChars s.toList =
        '\x7b' :: '\x7b' :: (pre ++ ((Text.trim inner).toList ++ (post ++ ['\x7d', '\x7d']))) := by
      have whole := Text.stripLead?_eq_some first
      rw [Text.stripTail?_eq_some last, parts, Text.trim, String.toList_ofList] at whole
      rw [whole, Text.trim, String.toList_ofList]
      simp [openMark, closeMark]
    have marked : s.toList = (lead ++ '\x7b' :: '\x7b' :: (pre ++ ((Text.trim inner).toList ++ (post ++ ['\x7d'])))) ++
        '\x7d' :: after := by
      rw [outer, trimmed]
      simp
    obtain ⟨shorter, kept, shorterBlank⟩ := Template.withoutFinalNewline_blank marked afterBlank
    refine ⟨lead, pre, post, shorter, ⟨?_, .inl rfl, leadBlank, preBlank, postBlank, shorterBlank⟩, ?_⟩
    · rw [kept]
      simp
    · rw [Text.trim, String.toList_ofList, trimmed]

theorem Signed.of_head {text : String} {pre rest : List Char} (sole : soleExpression? s = some text)
    (trimmed : (Text.trim s).toList = '\x7b' :: '\x7b' :: (pre ++ (text.toList ++ rest)))
    (minus : (pre ++ text.toList).head? = some '-') : Signed s := by
  refine ⟨by rw [sole]; rfl, ?_⟩
  rw [← List.append_assoc] at trimmed
  cases inner : pre ++ text.toList with
  | nil =>
    rw [inner] at minus
    cases minus
  | cons c more =>
    rw [inner] at minus trimmed
    cases minus
    rw [Text.startsWith, trimmed]
    rfl

theorem Signed.parts {text : String} (signed : Signed s) (sole : soleExpression? s = some text) :
    ∃ plain lead post after, text.toList = '-' :: plain ∧
      Template.Sole (Template.withoutFinalNewline s).toList lead ['-'] [] plain post after := by
  obtain ⟨lead, pre, post, after, parts, trimmed⟩ := soleExpression?_parts sole
  obtain ⟨rest, opened⟩ := Option.isSome_iff_exists.mp signed.2
  have first := Text.dropLead?_eq_some_iff.mp opened
  have mark : "\x7b\x7b-".toList = ['\x7b', '\x7b', '-'] := by decide +kernel
  rw [trimmed, mark] at first
  have first : pre ++ (text.toList ++ (post ++ ['\x7d', '\x7d'])) = '-' :: rest := by simpa using first
  cases pre with
  | cons c pre =>
    obtain ⟨rfl, -⟩ := List.cons.inj first
    exact absurd (parts.pre '-' List.mem_cons_self) (by decide)
  | nil =>
    cases filled : text.toList with
    | nil =>
      rw [filled] at first
      cases post with
      | nil => cases first
      | cons c post =>
        obtain ⟨rfl, -⟩ := List.cons.inj first
        exact absurd (parts.post '-' List.mem_cons_self) (by decide)
    | cons c plain =>
      rw [filled] at first parts
      obtain ⟨rfl, -⟩ := List.cons.inj first
      exact ⟨plain, lead, post, after, rfl, ⟨parts.whole, .inr rfl, parts.lead, nofun, parts.post, parts.after⟩⟩

theorem Unprinted.render (unprinted : Unprinted scope s) : renderString scope s = .ok .null := by
  obtain ⟨text, e, found, parsed, value⟩ := unprinted
  simp [renderString, found, evaluate, parsed, value, Except.mapError, Template.Value.toJson?, bind, Except.bind]

theorem withoutFinalNewline_part (s : String) : (Template.withoutFinalNewline s).toList <:+: s.toList :=
  ((Text.stripTail?_prefix "\r" _).trans (Text.stripTail?_prefix "\n" s)).isInfix

theorem unmarked_of_plain (plain : isTemplate s = false) :
    Template.Unmarked (Template.withoutFinalNewline s).toList := by
  simp only [isTemplate, Text.containsText, Bool.or_eq_false_iff, Option.isSome_eq_false_iff, Option.isNone_iff_eq_none]
    at plain
  have whole : Template.Unmarked s.toList :=
    ⟨Text.not_infix_of_splitFirstChars plain.1, Text.not_infix_of_splitFirstChars plain.2⟩
  exact whole.part (withoutFinalNewline_part s)

theorem Misses.render (misses : Misses scope s) (unsigned : ¬ Signed s) :
    (∃ e, renderString scope s = .error e) ∨ Unprinted scope s := by
  cases sole : soleExpression? s with
  | none =>
    left
    cases marked : isTemplate s with
    | false => exact (Template.render_unmarked (unmarked_of_plain marked) _ misses).elim
    | true =>
      unfold renderString renderTemplate
      rw [sole, misses]
      simp [marked, Except.mapError, Except.map]
  | some text =>
    obtain ⟨lead, pre, post, after, parts, trimmed⟩ := soleExpression?_parts sole
    cases parsed : Template.Expr.parse text with
    | error failure =>
      left
      simp [renderString, sole, evaluate, parsed, Except.mapError, bind, Except.bind]
    | ok e =>
      have sign : (pre ++ text.toList).head? ≠ some '-' := mt (Signed.of_head sole trimmed) unsigned
      rw [← String.ofList_toList (s := text)] at parsed
      rcases parts.missed parsed (fun _ => sign) misses with failed | value
      · left
        rw [String.ofList_toList] at parsed
        simp [renderString, sole, evaluate, parsed, failed, Except.mapError, bind, Except.bind]
      · rw [String.ofList_toList] at parsed
        exact .inr ⟨text, e, sole, parsed, value⟩

/-- What the template misses is the expression behind the sign; the string stands for the expression with it. -/
theorem Signed.render (signed : Signed s) (misses : Misses scope s) :
    ∃ text plain, soleExpression? s = some text ∧ text.toList = '-' :: plain.toList ∧
      renderString scope s = evaluate scope text ∧ ∀ e, Template.Expr.parse plain = .ok e →
        e.eval (.object scope) = .error .undefinedValue ∨ e.eval (.object scope) = .ok .undefined := by
  obtain ⟨text, sole⟩ := Option.isSome_iff_exists.mp signed.1
  obtain ⟨plain, lead, post, after, minus, parts⟩ := signed.parts sole
  refine ⟨text, String.ofList plain, sole, by rw [minus, String.toList_ofList], ?_, fun e parsed => ?_⟩
  · rw [renderString, sole]
  · exact parts.missed parsed nofun misses

mutual

def stringsOf : Json → List String
  | .string s => [s]
  | .array items => stringsOfItems items
  | .object fields => stringsOfFields fields
  | _ => []

def stringsOfItems : List Json → List String
  | [] => []
  | v :: rest => stringsOf v ++ stringsOfItems rest

def stringsOfFields : List (String × Json) → List String
  | [] => []
  | (_, v) :: rest => stringsOf v ++ stringsOfFields rest

end

theorem mem_stringsOfFields {fields : Fields} {key : String} {v : Json} (field : (key, v) ∈ fields)
    (member : s ∈ stringsOf v) : s ∈ stringsOfFields fields := by
  induction fields with
  | nil => cases field
  | cons first rest ih =>
    rcases List.mem_cons.mp field with rfl | later
    · exact List.mem_append_left _ member
    · exact List.mem_append_right _ (ih later)

mutual

theorem render_strings : ∀ {v out : Json}, render scope v = .ok out →
    ∀ s ∈ stringsOf v, ∃ w, renderString scope s = .ok w
  | .string text, out => by
    intro rendered s member
    cases List.mem_singleton.mp member
    exact ⟨out, rendered⟩
  | .array items, out => by
    intro rendered
    obtain ⟨outs, inner, -⟩ := map_eq_ok.mp rendered
    exact renderItems_strings inner
  | .object fields, out => by
    intro rendered
    obtain ⟨outs, inner, -⟩ := map_eq_ok.mp rendered
    exact renderFields_strings inner
  | .null, out | .bool _, out | .number _, out => by simp [stringsOf]

theorem renderItems_strings : ∀ {items outs : List Json}, renderItems scope items = .ok outs →
    ∀ s ∈ stringsOfItems items, ∃ w, renderString scope s = .ok w
  | [], outs => by simp [stringsOfItems]
  | v :: rest, outs => by
    intro rendered s member
    obtain ⟨out, here, rendered⟩ := bind_eq_ok.mp rendered
    obtain ⟨more, later, -⟩ := bind_eq_ok.mp rendered
    rcases List.mem_append.mp member with inside | inside
    · exact render_strings here s inside
    · exact renderItems_strings later s inside

theorem renderFields_strings : ∀ {fields : List (String × Json)} {outs : Fields}, renderFields scope fields = .ok outs →
    ∀ s ∈ stringsOfFields fields, ∃ w, renderString scope s = .ok w
  | [], outs => by simp [stringsOfFields]
  | (k, v) :: rest, outs => by
    intro rendered s member
    obtain ⟨out, here, rendered⟩ := bind_eq_ok.mp rendered
    obtain ⟨more, later, -⟩ := bind_eq_ok.mp rendered
    rcases List.mem_append.mp member with inside | inside
    · exact render_strings here s inside
    · exact renderFields_strings later s inside

end

/-- A string of a document and the scope it is evaluated in: that of the variables before its own, or of all. -/
inductive Holds (document : Fields) (inventory : Inventory) : Scope → String → Prop
  | binding {start scope : Scope} {before after : List (String × Json)} {name s : String} {value : Json} :
      searchScope document inventory = .ok start →
      document.get? "vars" = some (.object (before ++ (name, value) :: after)) → bindVars before start = .ok scope →
      s ∈ stringsOf value → Holds document inventory scope s
  | property {scope : Scope} {table : Fields} {key s : String} {value : Json} : scopeOf document inventory = .ok scope →
      table ∈ tablesOf (topTables document) → (key, value) ∈ table → key ≠ "children" → s ∈ stringsOf value →
      Holds document inventory scope s

theorem bindVars_render {start scope last : Scope} {before after : List (String × Json)} {name : String} {value : Json}
    (first : bindVars before start = .ok scope) (all : bindVars (before ++ (name, value) :: after) start = .ok last) :
    ∃ out, render scope value = .ok out := by
  induction before generalizing start with
  | nil =>
    cases first
    obtain ⟨out, here, -⟩ := bind_eq_ok.mp all
    exact ⟨out, mapError_eq_ok.mp here⟩
  | cons entry before ih =>
    obtain ⟨key, v⟩ := entry
    obtain ⟨out, here, first⟩ := bind_eq_ok.mp first
    obtain ⟨same, there, all⟩ := bind_eq_ok.mp all
    cases here.symm.trans there
    exact ih first all

variable {document : Fields} {inventory : Inventory}

theorem Holds.rendered {text : String} {settings : Settings} {recipe : Recipe} (held : Holds document inventory scope s)
    (read : Toml.parse? text = some document) (accepted : parse text inventory settings = .ok recipe) :
    ∃ w, renderString scope s = .ok w := by
  obtain ⟨document, last, same, distinct, scoping, mirrored⟩ := parse_eq_ok accepted
  cases read.symm.trans same
  cases held with
  | binding searched vars bound member =>
    unfold scopeOf at scoping
    obtain ⟨from_, found, scoping⟩ := bind_eq_ok.mp scoping
    cases searched.symm.trans found
    rw [vars] at scoping
    obtain ⟨out, rendered⟩ := bindVars_render bound scoping
    exact render_strings rendered s member
  | property whole inside field other member =>
    cases whole.symm.trans scoping
    -- The loader takes `children` out of the table before it renders the rest.
    obtain ⟨resource?, rendered, entry, rendering, -⟩ := eachOf mirrored _ inside
    have kept := (Fields.mem_swapRemove_of_ne other).mpr field
    exact renderFields_strings rendering s (mem_stringsOfFields kept member)

/-- A recipe with a string that misses a name is refused, unless the string is an expression whose own value is
missing: that is null. A string that starts with `{{-` stands for the expression together with the sign. -/
theorem parse_misses {text : String} {settings : Settings} (read : Toml.parse? text = some document)
    (held : Holds document inventory scope s) (misses : Misses scope s) :
    (¬ Signed s → ¬ Unprinted scope s → ∃ e, parse text inventory settings = .error e) ∧
      (Unprinted scope s → renderString scope s = .ok .null) ∧
      (Signed s → ∃ negated plain, soleExpression? s = some negated ∧ negated.toList = '-' :: plain.toList ∧
        renderString scope s = evaluate scope negated ∧
        ((∃ e, evaluate scope negated = .error e) → ∃ e, parse text inventory settings = .error e) ∧
        ∀ e, Template.Expr.parse plain = .ok e →
          e.eval (.object scope) = .error .undefinedValue ∨ e.eval (.object scope) = .ok .undefined) := by
  have refused : (∃ e, renderString scope s = .error e) → ∃ e, parse text inventory settings = .error e := by
    rintro ⟨e, failed⟩
    cases loaded : parse text inventory settings with
    | error e => exact ⟨e, rfl⟩
    | ok recipe =>
      obtain ⟨w, value⟩ := held.rendered read loaded
      cases failed.symm.trans value
  refine ⟨fun unsigned printed => ?_, Unprinted.render, fun signed => ?_⟩
  · exact refused ((misses.render unsigned).resolve_right printed)
  · obtain ⟨negated, plain, sole, minus, stands, behind⟩ := signed.render misses
    exact ⟨negated, plain, sole, minus, stands, fun failed => refused (stands ▸ failed), behind⟩

/-- The minus sign of an expression is not that of the marker. -/
example : Misses [("x", .int 1)] "\x7b\x7b- x == 1 and m \x7d\x7d" ∧
    (renderString [("x", .int 1)] "\x7b\x7b- x == 1 and m \x7d\x7d").toOption.bind Json.asBool? = some false := by
  unfold Misses
  decide +kernel

def printedText : String := "[vars]\nr=\"/\x7b\x7b m \x7d\x7d\"\n"

theorem parse_misses_printed :
    ∃ document scope s, Toml.parse? printedText = some document ∧ Holds document .empty scope s ∧ Misses scope s ∧
      ¬ Signed s ∧ ¬ Unprinted scope s ∧ ∃ e, parse printedText .empty {} = .error e := by
  have facts : ((Toml.parse? printedText).map fun document => ((document.get? "search").isNone,
      (document.need? "vars" Json.asObject?).map (·.map fun p => (p.1, p.2.asString?)))) =
      some (true, some [("r", some "/\x7b\x7b m \x7d\x7d")]) := by decide +kernel
  obtain ⟨document, read, facts⟩ := Option.map_eq_some_iff.mp facts
  obtain ⟨search, vars⟩ := Prod.mk.inj facts
  obtain ⟨bindings, object, single⟩ := Option.map_eq_some_iff.mp vars
  obtain ⟨⟨name, value⟩, rfl, entry⟩ := List.map_eq_singleton_iff.mp single
  obtain ⟨rfl, string⟩ := Prod.mk.inj entry
  cases Json.asString?_eq_some string
  have started : searchScope document .empty = .ok [("node", .object [])] := by
    unfold searchScope
    rw [Option.isNone_iff_eq_none.mp search]
    rfl
  have entries : document.get? "vars" = some (.object ([] ++ ("r", .string "/\x7b\x7b m \x7d\x7d") :: [])) :=
    Fields.need?_object object
  have held : Holds document .empty [("node", .object [])] "/\x7b\x7b m \x7d\x7d" :=
    .binding started entries rfl List.mem_cons_self
  have misses : Misses [("node", .object [])] "/\x7b\x7b m \x7d\x7d" := by
    unfold Misses
    decide +kernel
  have mixed : soleExpression? "/\x7b\x7b m \x7d\x7d" = none := by decide +kernel
  have unsigned : ¬ Signed "/\x7b\x7b m \x7d\x7d" := fun signed => by simp [Signed, mixed] at signed
  have printed : ¬ Unprinted [("node", .object [])] "/\x7b\x7b m \x7d\x7d" := by
    rintro ⟨text, e, found, -⟩
    simp [mixed] at found
  exact ⟨document, _, _, read, held, misses, unsigned, printed, (parse_misses read held misses).1 unsigned printed⟩

def misspeltText : String :=
  "[[resource]]\nkind=\"exec\"\nname=\"d\"\ncommand=\"d\"\nuser=\"\x7b\x7b node.usr \x7d\x7d\"\n"

def deployNode : Inventory := ⟨[("user", .string "www-data")], []⟩

/-- The command is loaded without a user. -/
theorem parse_loads_misspelt :
    ∃ recipe document scope r c, parse misspeltText deployNode {} = .ok recipe ∧
      Toml.parse? misspeltText = some document ∧ Holds document deployNode scope "\x7b\x7b node.usr \x7d\x7d" ∧
        Misses scope "\x7b\x7b node.usr \x7d\x7d" ∧ recipe.runList.resources = [r] ∧ r.spec = .command c ∧
          c.user = none := by
  have loaded : (parse misspeltText deployNode {}).toOption.map (·.runList.resources.map fun r =>
      r.spec.command?.map (·.user)) = some [some none] := by decide +kernel
  have facts : ((Toml.parse? misspeltText).map fun document => ((document.get? "search").isNone,
      (document.get? "vars").isNone, (tablesOf (topTables document)).map fun table =>
        (table.get? "user").bind Json.asString?)) =
      some (true, true, [some "\x7b\x7b node.usr \x7d\x7d"]) := by decide +kernel
  obtain ⟨recipe, accepted, users⟩ := Option.map_eq_some_iff.mp loaded
  obtain ⟨document, read, facts⟩ := Option.map_eq_some_iff.mp facts
  obtain ⟨search, facts⟩ := Prod.mk.inj facts
  obtain ⟨vars, tables⟩ := Prod.mk.inj facts
  obtain ⟨table, single, user⟩ := List.map_eq_singleton_iff.mp tables
  obtain ⟨r, alone, spec⟩ := List.map_eq_singleton_iff.mp users
  have scoping : scopeOf document deployNode = .ok [("node", deployNode.nodeJson)] := by
    unfold scopeOf searchScope
    rw [Option.isNone_iff_eq_none.mp search, Option.isNone_iff_eq_none.mp vars]
    rfl
  have field : ("user", .string "\x7b\x7b node.usr \x7d\x7d") ∈ table := Toml.mem_of_lookup (Fields.need?_string user)
  have held : Holds document deployNode [("node", deployNode.nodeJson)] "\x7b\x7b node.usr \x7d\x7d" :=
    .property scoping (by rw [single]; exact List.mem_cons_self) field (by decide) List.mem_cons_self
  have misses : Misses [("node", deployNode.nodeJson)] "\x7b\x7b node.usr \x7d\x7d" := by
    unfold Misses
    decide +kernel
  rw [toOption_eq_some] at accepted
  obtain ⟨c, command, user⟩ := Option.map_eq_some_iff.mp spec
  exact ⟨recipe, document, _, r, c, accepted, read, held, misses, alone, Spec.command?_eq_some.mp command, user⟩

end Recipe

end Provision
