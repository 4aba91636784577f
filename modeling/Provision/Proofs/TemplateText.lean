import Provision.Proofs.TokenScanning
import Provision.Template.Render

namespace Provision

open Text (isBlank)

theorem Text.not_infix_of_splitFirstChars {sep cs : List Char} (none : Text.splitFirstChars sep cs = none) :
    ¬ sep <:+: cs := by
  induction cs with
  | nil =>
    intro part
    rw [List.infix_nil] at part
    subst part
    cases none
  | cons c cs ih =>
    unfold splitFirstChars at none
    split at none
    · cases none
    · rename_i lead
      intro part
      rcases List.infix_cons_iff.mp part with ⟨after, whole⟩ | inside
      · rw [dropLead?_eq_some_iff.mpr whole.symm] at lead
        cases lead
      · exact ih (Option.map_eq_none_iff.mp none) inside

namespace Template

variable {cs lead rest : List Char} {c : Char}

theorem marker?_blank (blank : isBlank c = true) (cs : List Char) : marker? (c :: cs) = none := by
  unfold marker?
  split <;> simp_all [isBlank]

theorem findMarker_blanks (blank : ∀ c ∈ lead, isBlank c = true) (rest : List Char) :
    findMarker (lead ++ rest) = (findMarker rest).map fun (text, m, r) => (lead ++ text, m, r) := by
  induction lead with
  | nil => simp
  | cons c lead ih =>
    obtain ⟨own, later⟩ := List.forall_mem_cons.mp blank
    simp [findMarker, marker?_blank own, ih later, Function.comp_def]

def Unmarked (cs : List Char) : Prop := ¬ ['\x7b', '\x7b'] <:+: cs ∧ ¬ ['\x7b', '%'] <:+: cs

theorem Unmarked.part {part : List Char} (unmarked : Unmarked cs) (inside : part <:+: cs) : Unmarked part :=
  ⟨fun found => unmarked.1 (found.trans inside), fun found => unmarked.2 (found.trans inside)⟩

theorem Unmarked.comment {m : Marker} (unmarked : Unmarked cs) (found : findMarker cs = some (lead, m, rest)) :
    m = .comment ∧ rest <:+ cs := by
  induction cs generalizing lead with
  | nil => cases found
  | cons c cs ih =>
    unfold findMarker at found
    split at found
    · rename_i here
      cases found
      unfold marker? at here
      split at here
      · rename_i r whole
        exact absurd ⟨[], r, whole.symm⟩ unmarked.1
      · rename_i r whole
        exact absurd ⟨[], r, whole.symm⟩ unmarked.2
      · rename_i r whole
        cases here
        exact ⟨rfl, ['\x7b', '#'], whole.symm⟩
      · cases here
    · obtain ⟨⟨text, m, r⟩, later, same⟩ := Option.map_eq_some_iff.mp found
      cases same
      obtain ⟨comment, part⟩ := ih (unmarked.part (List.suffix_cons c cs).isInfix) later
      exact ⟨comment, part.trans (List.suffix_cons c cs)⟩

theorem textPiece_eq (cs : List Char) : ∃ texts : List String, textPiece cs = texts.map .text := by
  unfold textPiece
  split
  · exact ⟨[], rfl⟩
  · exact ⟨[_], rfl⟩

theorem openingSign_suffix (cs : List Char) : (openingSign cs).2 <:+ cs := by
  unfold openingSign
  split
  · exact List.suffix_cons _ _
  · exact List.suffix_cons _ _
  · exact List.suffix_rfl

theorem scanPieces_unmarked (fuel : Nat) (trim : Bool) (unmarked : Unmarked cs) :
    (∃ texts : List String, scanPieces fuel trim cs = .ok (texts.map .text)) ∨
      ∃ what, scanPieces fuel trim cs = .error (.malformed what) := by
  induction fuel generalizing trim cs with
  | zero => exact .inl ⟨[], rfl⟩
  | succ fuel ih =>
    have kept : (if trim then Text.trimStartChars cs else cs) <:+ cs := by
      split
      · exact List.dropWhile_suffix isBlank
      · exact List.suffix_rfl
    unfold scanPieces
    dsimp only
    generalize (if trim then Text.trimStartChars cs else cs) = start at kept
    have clean := unmarked.part kept.isInfix
    split
    · obtain ⟨texts, same⟩ := textPiece_eq start
      exact .inl ⟨texts, by rw [same]⟩
    · rename_i lead m rest found
      obtain ⟨rfl, part⟩ := clean.comment found
      dsimp only
      split
      · exact .inr ⟨_, rfl⟩
      · rename_i comment after closed
        have inside : after <:+ (openingSign rest).2 := ⟨_, (Text.splitFirstChars_eq_some closed).symm⟩
        have whole := (inside.trans (openingSign_suffix rest)).trans part
        obtain ⟨before, same⟩ := textPiece_eq (if (openingSign rest).1 then Text.trimEndChars lead else lead)
        rw [same]
        rcases ih (comment.getLast? = some '-') (clean.part whole.isInfix) with ⟨texts, later⟩ | ⟨what, later⟩
        · exact .inl ⟨before ++ texts, by rw [later, List.map_append]; rfl⟩
        · exact .inr ⟨what, by rw [later]; rfl⟩

theorem parseBody_texts (n : Nat) (closers : List String) (texts : List String) (ps : List Piece) :
    parseBody (n + texts.length) closers (texts.map .text ++ ps) =
      (parseBody n closers ps).map fun body => { body with stmts := texts.map .text ++ body.stmts } := by
  induction texts with
  | nil =>
    change parseBody n closers ps = _
    cases parseBody n closers ps <;> rfl
  | cons text texts ih =>
    rw [List.length_cons, ← Nat.add_assoc, List.map_cons, List.cons_append, parseBody, ih]
    cases parseBody n closers ps <;> rfl

theorem renderAll_texts (caller : Caller) (texts : List String) (stmts : List Stmt) (scope : Scope) :
    renderAll caller (texts.map .text ++ stmts) scope =
      (renderAll caller stmts scope).map fun (after, text) => (after, texts.foldr (· ++ ·) text) := by
  induction texts with
  | nil =>
    change renderAll caller stmts scope = _
    cases renderAll caller stmts scope <;> rfl
  | cons text texts ih =>
    change (renderAll caller (texts.map .text ++ stmts) scope >>= fun (scope, more) => .ok (scope, text ++ more)) = _
    rw [ih]
    cases renderAll caller stmts scope <;> rfl

theorem parseBody_onlyTexts (n : Nat) (texts : List String) :
    parseBody (n + 1 + texts.length) [] (texts.map .text) = .ok ⟨texts.map .text, [], []⟩ := by
  have body := parseBody_texts (n + 1) [] texts []
  rw [List.append_nil] at body
  rw [body]
  simp [parseBody, Except.map]

theorem parse_eq {source : String} {pieces : List Piece} (scanned : Piece.scan source.toList = .ok pieces) :
    parse source = (parseBody (3 * pieces.length + 3) [] pieces).map Body.stmts := by
  unfold parse
  rw [scanned]
  change (parseBody (3 * pieces.length + 3) [] pieces >>= fun body => .ok body.stmts) = _
  cases parseBody (3 * pieces.length + 3) [] pieces <;> rfl

theorem parse_texts {source : String} {texts : List String}
    (scanned : Piece.scan source.toList = .ok (texts.map .text)) : parse source = .ok (texts.map .text) := by
  have size : 3 * (texts.map Piece.text).length + 3 = 2 * texts.length + 2 + 1 + texts.length := by
    rw [List.length_map]
    omega
  rw [parse_eq scanned, size, parseBody_onlyTexts]
  rfl

theorem parse_sole {source : String} {before after : List String} {ts : List Token} {e : Expr}
    (scanned : Piece.scan source.toList = .ok (before.map .text ++ .expression ts :: after.map .text))
    (whole : wholeExpression ts = .ok e) : parse source = .ok (before.map .text ++ .print e :: after.map .text) := by
  have size : 3 * (before.map Piece.text ++ Piece.expression ts :: after.map Piece.text).length + 3 =
      2 * before.length + 2 * after.length + 4 + 1 + after.length + 1 + before.length := by
    simp only [List.length_append, List.length_map, List.length_cons]
    omega
  rw [parse_eq scanned, size, parseBody_texts, parseBody, whole]
  change (Except.map _ (parseBody _ [] (after.map .text) >>= fun body => _)).map _ = _
  rw [parseBody_onlyTexts]
  rfl

theorem render_unmarked {source : String} (unmarked : Unmarked source.toList) (context : Json) :
    render source context ≠ .error .undefinedValue := by
  unfold render
  rcases scanPieces_unmarked (source.toList.length + 1) false unmarked with ⟨texts, scanned⟩ | ⟨what, scanned⟩
  · have rendered := renderAll_texts (callFragment maxDepth) texts [] (.ofContext (.ofJson context))
    rw [List.append_nil] at rendered
    rw [parse_texts scanned]
    change (renderAll _ (texts.map .text) _ >>= fun r => _) ≠ _
    rw [rendered]
    nofun
  · have parsed : parse source = .error (.malformed what) := by
      unfold parse Piece.scan
      rw [scanned]
      rfl
    rw [parsed]
    nofun

theorem findMarker_blank {cs : List Char} (blank : ∀ c ∈ cs, isBlank c = true) : findMarker cs = none := by
  have found := findMarker_blanks blank []
  rw [List.append_nil] at found
  exact found

theorem openingSign_none (plain : ∀ c ∈ cs.head?, c ≠ '-' ∧ c ≠ '+') : openingSign cs = (false, cs) := by
  unfold openingSign
  split
  · exact absurd rfl (plain _ rfl).1
  · exact absurd rfl (plain _ rfl).2
  · rfl

/-- A text that holds one expression and blanks, and perhaps a minus sign at the opening marker. -/
structure Sole (source lead sign pre e post after : List Char) : Prop where
  whole : source = lead ++ '\x7b' :: '\x7b' :: (sign ++ (pre ++ (e ++ (post ++ '\x7d' :: '\x7d' :: after))))
  sign : sign = [] ∨ sign = ['-']
  lead : ∀ c ∈ lead, isBlank c = true
  pre : ∀ c ∈ pre, isBlank c = true
  post : ∀ c ∈ post, isBlank c = true
  after : ∀ c ∈ after, isBlank c = true

variable {source sign pre e post after : List Char} {ts : List Token}

theorem Sole.unsigned (sole : Sole source lead sign pre e post after) (plain : ∀ c ∈ (pre ++ e).head?, c ≠ '-' ∧ c ≠ '+') :
    ∀ c ∈ (pre ++ (e ++ (post ++ '\x7d' :: '\x7d' :: after))).head?, c ≠ '-' ∧ c ≠ '+' := by
  rw [← List.append_assoc]
  cases filled : pre ++ e with
  | nil =>
    intro c first
    have code := (stops_closing sole.post ('\x7d' :: after) c first).code
    constructor <;>
    · rintro rfl
      exact absurd code (by decide)
  | cons d inner =>
    rw [filled] at plain
    exact plain

theorem Sole.opens (sole : Sole source lead sign pre e post after)
    (plain : sign = [] → ∀ c ∈ (pre ++ e).head?, c ≠ '-' ∧ c ≠ '+') :
    ∃ trimBefore, openingSign (sign ++ (pre ++ (e ++ (post ++ '\x7d' :: '\x7d' :: after)))) =
      (trimBefore, pre ++ (e ++ (post ++ '\x7d' :: '\x7d' :: after))) := by
  rcases sole.sign with rfl | rfl
  · exact ⟨false, openingSign_none (sole.unsigned (plain rfl))⟩
  · exact ⟨true, rfl⟩

theorem Sole.scan (sole : Sole source lead sign pre e post after) {n : Nat} (scanned : scanAll n e = .ok ts)
    (level : nesting 0 ts = some 0) (ending : ts.getLast? ≠ some (.symbol .minus))
    (plain : sign = [] → ∀ c ∈ (pre ++ e).head?, c ≠ '-' ∧ c ≠ '+') :
    (∃ before after : List String, Piece.scan source = .ok (before.map .text ++ .expression ts :: after.map .text)) ∨
      ∃ what, Piece.scan source = .error (.malformed what) := by
  have found : findMarker source =
      some (lead, .expression, sign ++ (pre ++ (e ++ (post ++ '\x7d' :: '\x7d' :: after)))) := by
    rw [sole.whole, findMarker_blanks sole.lead]
    change some (lead ++ [], _, _) = _
    rw [List.append_nil]
  obtain ⟨trimBefore, opens⟩ := sole.opens plain
  have tokens : ∀ fuel, (scanTokens .expression fuel 0 (pre ++ (e ++ (post ++ '\x7d' :: '\x7d' :: after))) =
      .ok ⟨ts, false, after⟩) ∨
      ∃ what, scanTokens .expression fuel 0 (pre ++ (e ++ (post ++ '\x7d' :: '\x7d' :: after))) =
        .error (.malformed what) := by
    intro fuel
    rcases scanTokens_blanks fuel 0 sole.pre (e ++ (post ++ '\x7d' :: '\x7d' :: after)) with skipped | stuck
    · rw [skipped]
      exact scanTokens_behind sole.post after fuel scanned level ending
    · exact .inr stuck
  have later : ∀ fuel, ∃ texts : List String, scanPieces fuel false after = .ok (texts.map .text) := by
    intro fuel
    cases fuel with
    | zero => exact ⟨[], rfl⟩
    | succ fuel =>
      obtain ⟨texts, same⟩ := textPiece_eq after
      refine ⟨texts, ?_⟩
      rw [← same]
      simp [scanPieces, findMarker_blank sole.after]
  obtain ⟨before, first⟩ := textPiece_eq (if trimBefore then Text.trimEndChars lead else lead)
  unfold Piece.scan
  simp only [scanPieces, Bool.false_eq_true, ↓reduceIte, found, opens, first]
  rcases tokens _ with read | ⟨what, stuck⟩
  · obtain ⟨texts, same⟩ := later source.length
    exact .inl ⟨before, texts, by rw [read]; simp [bind, Except.bind, same]⟩
  · exact .inr ⟨what, by rw [stuck]; rfl⟩

theorem renderAll_print (caller : Caller) (e : Expr) (texts : List String) (scope : Scope)
    (missed : renderAll caller (.print e :: texts.map .text) scope = .error .undefinedValue) :
    evaluate caller scope e = .error .undefinedValue ∨ evaluate caller scope e = .ok .undefined := by
  rw [renderAll, renderStmt] at missed
  cases value : evaluate caller scope e with
  | error failure =>
    rw [value] at missed
    cases missed
    exact .inl rfl
  | ok v =>
    rw [value] at missed
    cases v with
    | undefined => exact .inr rfl
    | _ =>
      have rendered := renderAll_texts caller texts [] scope
      rw [List.append_nil] at rendered
      simp [bind, Except.bind, printed, rendered, renderAll, Except.map] at missed

/-- An expression that starts with a plus sign is none, so no sign is left to the template. -/
theorem Sole.plain {n : Nat} {expr : Expr} (sole : Sole source lead sign pre e post after) (scanned : scanAll n e = .ok ts)
    (parsed : wholeExpression ts = .ok expr) (unsigned : (pre ++ e).head? ≠ some '-') :
    ∀ c ∈ (pre ++ e).head?, c ≠ '-' ∧ c ≠ '+' := by
  intro c first
  refine ⟨fun minus => unsigned (minus ▸ first), ?_⟩
  rintro rfl
  cases pre with
  | cons d pre =>
    cases first
    exact absurd (sole.pre '+' List.mem_cons_self) (by decide)
  | nil =>
    cases e with
    | nil => cases first
    | cons d e =>
      cases first
      cases n with
      | zero => cases scanned
      | succ n =>
        obtain ⟨others, -, same⟩ := bind_eq_ok.mp scanned
        cases same
        exact wholeExpression_plus _ _ parsed

/-- Where a template of one expression misses a name, the expression does, or its own value is what is missing. -/
theorem Sole.missed {source : String} {expr : Expr} {context : Json} (sole : Sole source.toList lead sign pre e post after)
    (parsed : Expr.parse (String.ofList e) = .ok expr) (plain : sign = [] → (pre ++ e).head? ≠ some '-')
    (missed : render source context = .error .undefinedValue) :
    expr.eval context = .error .undefinedValue ∨ expr.eval context = .ok .undefined := by
  obtain ⟨ts, scanned, whole⟩ := bind_eq_ok.mp parsed
  rw [String.toList_ofList] at scanned
  obtain ⟨level, ending⟩ := wholeExpression_tokens whole
  unfold render at missed
  rcases sole.scan scanned level ending (fun bare => sole.plain scanned whole (plain bare)) with
    ⟨before, texts, scan⟩ | ⟨what, scan⟩
  · rw [parse_sole scan whole] at missed
    have rendered := renderAll_texts (callFragment maxDepth) before (.print expr :: texts.map .text)
      (.ofContext (.ofJson context))
    change (renderAll _ (before.map .text ++ .print expr :: texts.map .text) _ >>= fun r => Except.ok r.2) = _ at missed
    rw [rendered] at missed
    refine renderAll_print _ expr texts _ ?_
    cases inner : renderAll (callFragment maxDepth) (.print expr :: texts.map .text) (.ofContext (.ofJson context)) with
    | error failure =>
      rw [inner] at missed
      cases missed
      rfl
    | ok out =>
      rw [inner] at missed
      cases missed
  · have malformed : parse source = .error (.malformed what) := by
      unfold parse
      rw [scan]
      rfl
    rw [malformed] at missed
    cases missed

end Template

end Provision
