import Mathlib.Data.List.DropRight
import Provision.Proofs.UndefinedNames

namespace Provision

namespace Template

variable {cs lead rest : List Char}

def commentMark : List Char := ['\x7b', '#']

theorem marker?_comment (found : marker? cs = some (.comment, rest)) : cs = commentMark ++ rest := by
  unfold marker? at found
  split at found <;> cases found
  rfl

theorem findMarker_comment (found : findMarker cs = some (lead, .comment, rest)) : cs = lead ++ commentMark ++ rest := by
  induction cs generalizing lead with
  | nil => cases found
  | cons c cs ih =>
    unfold findMarker at found
    split at found
    · rename_i here
      cases found
      exact marker?_comment here
    · obtain ⟨⟨text, m, r⟩, later, same⟩ := Option.map_eq_some_iff.mp found
      cases same
      rw [ih later]
      rfl

theorem findMarker_isSome (here : commentMark <:+: cs) : (findMarker cs).isSome := by
  induction cs with
  | nil => simp [commentMark] at here
  | cons c cs ih =>
    unfold findMarker
    split
    · rfl
    · rename_i unmarked
      rw [Option.isSome_map]
      rcases List.infix_cons_iff.mp here with ⟨after, whole⟩ | inside
      · rw [← whole] at unmarked
        cases unmarked
      · exact ih inside

theorem findMarker_eq_none (unmarked : Unmarked cs) (uncommented : ¬ commentMark <:+: cs) : findMarker cs = none := by
  cases found : findMarker cs with
  | none => rfl
  | some parts =>
    obtain ⟨lead, m, rest⟩ := parts
    obtain ⟨rfl, -⟩ := unmarked.comment found
    rw [findMarker_comment found] at uncommented
    exact absurd ⟨lead, rest, rfl⟩ uncommented

def Piece.length : Piece → Nat
  | .text s => s.toList.length
  | _ => 0

def textLength : List Piece → Nat
  | [] => 0
  | p :: ps => p.length + textLength ps

theorem textLength_append (ps qs : List Piece) : textLength (ps ++ qs) = textLength ps + textLength qs := by
  induction ps with
  | nil => simp [textLength]
  | cons p ps ih => rw [List.cons_append, textLength, ih, textLength, Nat.add_assoc]

theorem textLength_textPiece (cs : List Char) : textLength (textPiece cs) = cs.length := by
  unfold textPiece
  split
  · rename_i empty
    rw [List.isEmpty_iff.mp empty]
    rfl
  · simp [textLength, Piece.length]

def opened (trim : Bool) (cs : List Char) : List Char := if trim then Text.trimStartChars cs else cs

theorem opened_suffix (trim : Bool) (cs : List Char) : opened trim cs <:+ cs := by
  unfold opened
  split
  · exact List.dropWhile_suffix Text.isBlank
  · exact List.suffix_rfl

/-- A round of scanning an unmarked text ends it, or leaves a comment out. -/
theorem scanPieces_round {fuel : Nat} {trim : Bool} {ps : List Piece} (unmarked : Unmarked cs)
    (scanned : scanPieces (fuel + 1) trim cs = .ok ps) :
    findMarker (opened trim cs) = none ∧ ps = textPiece (opened trim cs) ∨
      ∃ lead kept rest after again more, opened trim cs = lead ++ commentMark ++ rest ∧ kept <+: lead ∧
        after <:+ rest ∧ scanPieces fuel again after = .ok more ∧ ps = textPiece kept ++ more := by
  have clean := unmarked.part (opened_suffix trim cs).isInfix
  have text : (if trim then Text.trimStartChars cs else cs) = opened trim cs := rfl
  unfold scanPieces at scanned
  simp only [text] at scanned
  split at scanned
  · rename_i none
    cases scanned
    exact .inl ⟨none, rfl⟩
  · rename_i lead m rest found
    obtain ⟨rfl, -⟩ := clean.comment found
    dsimp only at scanned
    split at scanned
    · cases scanned
    · rename_i comment after closed
      obtain ⟨more, later, same⟩ := bind_eq_ok.mp scanned
      cases same
      have behind : after <:+ (openingSign rest).2 := ⟨_, (Text.splitFirstChars_eq_some closed).symm⟩
      refine .inr ⟨lead, _, rest, after, _, more, findMarker_comment found, ?_, behind.trans (openingSign_suffix rest),
        later, rfl⟩
      split
      · exact List.rdropWhile_prefix Text.isBlank lead
      · exact List.prefix_rfl

theorem scanPieces_length {fuel : Nat} {trim : Bool} {ps : List Piece} (unmarked : Unmarked cs)
    (scanned : scanPieces fuel trim cs = .ok ps) : textLength ps ≤ cs.length := by
  induction fuel generalizing trim cs ps with
  | zero =>
    cases scanned
    exact Nat.zero_le _
  | succ fuel ih =>
    have short := (opened_suffix trim cs).length_le
    rcases scanPieces_round unmarked scanned with ⟨-, rfl⟩ | ⟨lead, kept, rest, after, again, more, whole, front, behind,
      later, rfl⟩
    · rw [textLength_textPiece]
      exact short
    · have inside : after <:+: cs :=
        behind.isInfix.trans ((whole ▸ List.suffix_append _ _ : rest <:+ opened trim cs).isInfix.trans
          (opened_suffix trim cs).isInfix)
      have left := ih (unmarked.part inside) later
      rw [textLength_append, textLength_textPiece]
      rw [whole] at short
      simp only [List.length_append] at short
      have one := front.length_le
      have two := behind.length_le
      omega

theorem scan_shorter {ps : List Piece} (unmarked : Unmarked cs) (commented : commentMark <:+: cs)
    (scanned : Piece.scan cs = .ok ps) : textLength ps < cs.length := by
  have opens : opened false cs = cs := rfl
  rcases scanPieces_round unmarked scanned with ⟨none, -⟩ | ⟨lead, kept, rest, after, again, more, whole, front, behind,
    later, rfl⟩
  · have some := findMarker_isSome commented
    rw [opens] at none
    rw [none] at some
    cases some
  · rw [opens] at whole
    have inside : after <:+: cs := behind.isInfix.trans (whole ▸ (List.suffix_append _ _).isInfix)
    have left := scanPieces_length (unmarked.part inside) later
    have whole := congrArg List.length whole
    have mark : commentMark.length = 2 := rfl
    rw [textLength_append, textLength_textPiece]
    simp only [List.length_append, mark] at whole
    have one := front.length_le
    have two := behind.length_le
    omega

theorem length_foldr (texts : List String) :
    (texts.foldr (· ++ ·) "").toList.length = textLength (texts.map .text) := by
  induction texts with
  | nil => rfl
  | cons text texts ih =>
    rw [List.foldr_cons, String.toList_append, List.length_append, ih]
    rfl

theorem render_texts {source : String} {texts : List String}
    (scanned : Piece.scan source.toList = .ok (texts.map .text)) (context : Json) :
    render source context = .ok (texts.foldr (· ++ ·) "") := by
  have rendered := renderAll_texts (callFragment maxDepth) texts [] (.ofContext (.ofJson context))
  rw [List.append_nil] at rendered
  unfold render
  rw [parse_texts scanned]
  change (renderAll _ (texts.map .text) _ >>= fun r => _) = _
  rw [rendered]
  rfl

theorem render_plain {source : String} (unmarked : Unmarked source.toList)
    (uncommented : ¬ commentMark <:+: source.toList) (context : Json) : render source context = .ok source := by
  have scanned : Piece.scan source.toList = .ok (textPiece source.toList) := by
    simp [Piece.scan, scanPieces, findMarker_eq_none unmarked uncommented]
  by_cases empty : source.toList = []
  · obtain rfl : source = "" := String.toList_eq_nil_iff.mp empty
    have nothing : Piece.scan "".toList = .ok (List.map .text []) := scanned
    exact render_texts nothing context
  · have single : textPiece source.toList = [source].map .text := by
      simp [textPiece, empty]
    rw [single] at scanned
    rw [render_texts scanned]
    simp

theorem render_commented {source : String} (unmarked : Unmarked source.toList)
    (commented : commentMark <:+: source.toList) (context : Json) :
    (∃ e, render source context = .error e) ∨
      ∃ text, render source context = .ok text ∧ text.toList.length < source.toList.length := by
  rcases scanPieces_unmarked (source.toList.length + 1) false unmarked with ⟨texts, scanned⟩ | ⟨what, scanned⟩
  · refine .inr ⟨_, render_texts scanned context, ?_⟩
    rw [length_foldr]
    exact scan_shorter unmarked commented scanned
  · have parsed : parse source = .error (.malformed what) := by
      unfold parse Piece.scan
      rw [scanned]
      rfl
    unfold render
    rw [parsed]
    exact .inl ⟨_, rfl⟩

theorem stripTail?_eq_none_iff {p s : String} {c : Char} (single : p.toList = [c]) :
    Text.stripTail? p s = none ↔ s.toList.getLast? ≠ some c := by
  rw [Text.stripTail?, Option.map_eq_none_iff, single, List.reverse_singleton, ← List.head?_reverse]
  cases s.toList.reverse with
  | nil => simp [Text.dropLead?]
  | cons d cs =>
    by_cases same : c = d
    · simp [Text.dropLead?, same]
    · simp [Text.dropLead?, same, Ne.symm same]

theorem withoutFinalNewline_eq_iff {s : String} :
    withoutFinalNewline s = s ↔ ∀ c ∈ s.toList.getLast?, c ≠ '\n' ∧ c ≠ '\r' := by
  have feed : "\n".toList = ['\n'] := by decide +kernel
  have back : "\r".toList = ['\r'] := by decide +kernel
  have uncut : withoutFinalNewline s = s ↔ Text.stripTail? "\n" s = none ∧ Text.stripTail? "\r" s = none := by
    unfold withoutFinalNewline
    dsimp only
    constructor
    · intro same
      cases first : Text.stripTail? "\n" s with
      | none =>
        rw [first] at same
        refine ⟨rfl, ?_⟩
        cases second : Text.stripTail? "\r" s with
        | none => rfl
        | some rest =>
          have longer := Text.stripTail?_eq_some second
          rw [Option.getD_none, second, Option.getD_some] at same
          simp [same, back] at longer
      | some rest =>
        have longer := congrArg List.length (Text.stripTail?_eq_some first)
        have shorter := (Text.stripTail?_prefix "\r" rest).length_le
        rw [first, Option.getD_some] at same
        rw [same] at shorter
        simp only [feed, List.length_append, List.length_singleton] at longer
        omega
    · rintro ⟨first, second⟩
      rw [first]
      exact congrArg (Option.getD · s) second
  rw [uncut, stripTail?_eq_none_iff feed, stripTail?_eq_none_iff back]
  cases s.toList.getLast? <;> simp

end Template

namespace Recipe

variable {scope : Scope} {s : String}

theorem render_unmarked_string (mixed : soleExpression? s = none) (plain : isTemplate s = false) :
    render scope (.string s) = .ok (.string s) := by
  change renderString scope s = _
  unfold renderString
  rw [mixed]
  exact if_neg (by simp [plain])

/-- The template of a string that is no single expression gives what the string stands for exactly if the string has
marks of its own, or no comment and no line break at its end. -/
theorem render_string_iff (mixed : soleExpression? s = none) :
    render scope (.string s) = (renderTemplate scope s).map .string ↔
      isTemplate s = true ∨
        ¬ Template.commentMark <:+: s.toList ∧ ∀ c ∈ s.toList.getLast?, c ≠ '\n' ∧ c ≠ '\r' := by
  cases marked : isTemplate s with
  | true =>
    refine iff_of_true ?_ (.inl rfl)
    change renderString scope s = _
    unfold renderString
    rw [mixed]
    exact if_pos marked
  | false =>
    rw [render_unmarked_string mixed marked, ← Template.withoutFinalNewline_eq_iff]
    have unmarked := unmarked_of_plain marked
    have part := withoutFinalNewline_part s
    unfold renderTemplate
    -- With a comment the rendering fails or is shorter than the string.
    by_cases commented : Template.commentMark <:+: (Template.withoutFinalNewline s).toList
    · refine iff_of_false ?_ (by simp [commented.trans part])
      rcases Template.render_commented unmarked commented (.object scope) with ⟨e, failed⟩ | ⟨text, done, shorter⟩
      · rw [failed]
        nofun
      · rw [done]
        intro same
        obtain rfl : s = text := Json.string.inj (Except.ok.inj same)
        have long := part.length_le
        omega
    · rw [Template.render_plain unmarked commented]
      constructor
      · intro same
        have whole : s = Template.withoutFinalNewline s := Json.string.inj (Except.ok.inj same)
        rw [← whole] at commented
        exact .inr ⟨commented, whole.symm⟩
      · rintro (marked | ⟨-, whole⟩)
        · cases marked
        · rw [whole]
          rfl

theorem render_string_iff_mixed :
    soleExpression? "a \x7b# b \x7b\x7b c \x7d\x7d #\x7d\n" = none ∧ ∀ scope,
      render scope (.string "a \x7b# b \x7b\x7b c \x7d\x7d #\x7d\n") =
        (renderTemplate scope "a \x7b# b \x7b\x7b c \x7d\x7d #\x7d\n").map .string := by
  have mixed : soleExpression? "a \x7b# b \x7b\x7b c \x7d\x7d #\x7d\n" = none := by decide +kernel
  exact ⟨mixed, fun scope => (render_string_iff mixed).mpr (.inl (by decide +kernel))⟩

/-- A comment is part of a command, and its template leaves it out. -/
theorem render_keeps_comment :
    soleExpression? "echo a\x7b# note #\x7d" = none ∧
      render [] (.string "echo a\x7b# note #\x7d") = .ok (.string "echo a\x7b# note #\x7d") ∧
        (renderTemplate [] "echo a\x7b# note #\x7d").toOption = some "echo a" := by
  have mixed : soleExpression? "echo a\x7b# note #\x7d" = none := by decide +kernel
  exact ⟨mixed, render_unmarked_string mixed (by decide +kernel), by decide +kernel⟩

end Recipe

end Provision
