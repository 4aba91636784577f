import Provision.Pattern.Replace
import Provision.Proofs.Bindings

namespace Provision

namespace Text

theorem consPiece_append (c : Char) {ps : List (List Char)} (filled : ps ≠ []) (qs : List (List Char)) :
    consPiece c (ps ++ qs) = consPiece c ps ++ qs := by
  cases ps with
  | nil => exact absurd rfl filled
  | cons p ps => rfl

theorem piecesChars_ne_nil {cs : List Char} (filled : cs ≠ []) : piecesChars cs ≠ [] := by
  cases cs with
  | nil => exact absurd rfl filled
  | cons c cs =>
    unfold piecesChars
    split
    · simp
    · cases piecesChars cs <;> simp [consPiece]

theorem piecesChars_append (a b : List Char) :
    piecesChars (a ++ '\n' :: b) = piecesChars (a ++ ['\n']) ++ piecesChars b := by
  induction a with
  | nil => simp [piecesChars]
  | cons c a ih =>
    simp only [List.cons_append, piecesChars]
    split
    · rw [ih]
      rfl
    · rw [ih]
      exact consPiece_append c (piecesChars_ne_nil (by simp)) _

theorem piecesChars_line {line : List Char} (single : '\n' ∉ line) :
    piecesChars (line ++ ['\n']) = [line ++ ['\n']] := by
  induction line with
  | nil => simp [piecesChars]
  | cons c line ih =>
    rw [List.mem_cons, not_or] at single
    simp only [List.cons_append, piecesChars]
    rw [if_neg (Ne.symm single.1), ih single.2]
    rfl

theorem piecesChars_last {line : List Char} (single : '\n' ∉ line) (filled : line ≠ []) :
    piecesChars line = [line] := by
  induction line with
  | nil => exact absurd rfl filled
  | cons c line ih =>
    rw [List.mem_cons, not_or] at single
    rw [piecesChars, if_neg (Ne.symm single.1)]
    cases line with
    | nil => rfl
    | cons d line =>
      rw [ih single.2 (by simp)]
      rfl

def Closed (cs : List Char) : Prop := cs = [] ∨ ∃ before, cs = before ++ ['\n']

theorem piecesChars_closed {whole : List Char} (closed : Closed whole) (rest : List Char) :
    piecesChars (whole ++ rest) = piecesChars whole ++ piecesChars rest := by
  rcases closed with rfl | ⟨before, rfl⟩
  · rfl
  · rw [List.append_assoc, List.singleton_append, piecesChars_append]

theorem exists_last_line (cs : List Char) : ∃ whole last, cs = whole ++ last ∧ Closed whole ∧ '\n' ∉ last := by
  induction cs with
  | nil => exact ⟨[], [], rfl, Or.inl rfl, List.not_mem_nil⟩
  | cons c cs ih =>
    obtain ⟨whole, last, rfl, closed, single⟩ := ih
    rcases closed with rfl | ⟨before, rfl⟩
    · by_cases feed : c = '\n'
      · subst feed
        exact ⟨['\n'], last, rfl, Or.inr ⟨[], rfl⟩, single⟩
      · exact ⟨[], c :: last, rfl, Or.inl rfl, by simp [Ne.symm feed, single]⟩
    · exact ⟨c :: before ++ ['\n'], last, by simp, Or.inr ⟨c :: before, rfl⟩, single⟩

theorem pieces_single (cs : List Char) :
    ∀ piece ∈ piecesChars cs, ∃ body, '\n' ∉ body ∧ (piece = body ∨ piece = body ++ ['\n']) := by
  induction cs with
  | nil => simp [piecesChars]
  | cons c cs ih =>
    unfold piecesChars
    by_cases feed : c = '\n'
    · rw [if_pos feed]
      intro piece member
      rcases List.mem_cons.mp member with rfl | member
      · exact ⟨[], List.not_mem_nil, Or.inr rfl⟩
      · exact ih piece member
    · rw [if_neg feed]
      intro piece member
      cases pieces : piecesChars cs with
      | nil =>
        rw [pieces] at member
        rw [List.mem_singleton.mp member]
        exact ⟨[c], by simpa using Ne.symm feed, Or.inl rfl⟩
      | cons first rest =>
        rw [pieces] at member ih
        rcases List.mem_cons.mp member with rfl | member
        · obtain ⟨body, single, ends⟩ := ih first List.mem_cons_self
          have longer : '\n' ∉ c :: body := by simp [Ne.symm feed, single]
          rcases ends with rfl | rfl
          · exact ⟨c :: first, longer, Or.inl rfl⟩
          · exact ⟨c :: body, longer, Or.inr rfl⟩
        · exact ih piece (List.mem_cons_of_mem _ member)

theorem feed_toList : "\n".toList = ['\n'] := by decide +kernel

theorem stripTerminator_last {line : List Char} (single : '\n' ∉ line) : stripTerminator line = line := by
  unfold stripTerminator
  split
  · rename_i rest reversed
    have member : '\n' ∈ line.reverse := by simp [reversed]
    exact absurd (List.mem_reverse.mp member) single
  · rename_i rest _ reversed
    have member : '\n' ∈ line.reverse := by simp [reversed]
    exact absurd (List.mem_reverse.mp member) single
  · rfl

theorem stripTerminator_line (line : List Char) :
    stripTerminator (line ++ ['\n']) = line ∨
      ∃ before, line = before ++ ['\r'] ∧ stripTerminator (line ++ ['\n']) = before := by
  unfold stripTerminator
  rw [List.reverse_append]
  cases reversed : line.reverse with
  | nil =>
    rw [List.reverse_eq_nil_iff.mp reversed]
    exact Or.inl rfl
  | cons c rest =>
    have back : line = rest.reverse ++ [c] := by
      rw [← List.reverse_reverse line, reversed, List.reverse_cons]
    by_cases ret : c = '\r'
    · subst ret
      exact Or.inr ⟨rest.reverse, back, rfl⟩
    · left
      rw [back]
      simp [ret]

end Text

open Text

def SingleLine (s : String) : Prop := '\n' ∉ s.toList

instance (s : String) : Decidable (SingleLine s) := inferInstanceAs (Decidable ('\n' ∉ s.toList))

namespace LineSyntax

theorem single_lead (syn : LineSyntax) {key : String} (single : SingleLine key) : '\n' ∉ syn.lead key := by
  have exported : '\n' ∉ "export ".toList := by decide +kernel
  have equals : '\n' ∉ ['='] := by decide
  intro member
  cases syn with
  | exported =>
    rcases List.mem_append.mp member with member | member
    · rcases List.mem_append.mp member with member | member
      · exact exported member
      · exact single member
    · exact equals member
  | plain =>
    rcases List.mem_append.mp member with member | member
    · exact single member
    · exact equals member

theorem lead_ends (syn : LineSyntax) (key : String) : ∃ front, syn.lead key = front ++ ['='] := by
  cases syn
  · exact ⟨"export ".toList ++ key.toList, rfl⟩
  · exact ⟨key.toList, rfl⟩

theorem valueOf?_return (syn : LineSyntax) (key : String) (line : List Char) :
    syn.valueOf? key (String.ofList (line ++ ['\r'])) = syn.valueOf? key (String.ofList line) := by
  unfold valueOf?
  rw [String.toList_ofList, String.toList_ofList]
  cases found : dropLead? (syn.lead key) line with
  | some rest =>
    have longer : dropLead? (syn.lead key) (line ++ ['\r']) = some (rest ++ ['\r']) := by
      rw [dropLead?_eq_some_iff] at found ⊢
      rw [found, List.append_assoc]
    have blank : isBlank '\r' = true := by decide
    rw [longer]
    simp [trimEndChars, blank]
  | none =>
    cases longer : dropLead? (syn.lead key) (line ++ ['\r']) with
    | none => rfl
    | some rest =>
      rw [dropLead?_eq_some_iff] at longer
      obtain ⟨front, ends⟩ := syn.lead_ends key
      rcases List.eq_nil_or_concat rest with rfl | ⟨before, c, rfl⟩
      · rw [ends, List.append_nil] at longer
        have last := (List.append_inj' longer rfl).2
        simp at last
      · rw [List.concat_eq_append, ← List.append_assoc] at longer
        have here := (List.append_inj' longer rfl).1
        rw [dropLead?_eq_some_iff.mpr here] at found
        cases found

theorem valueOf?_lineFor (syn : LineSyntax) (b : Binding) : syn.valueOf? b.key (syn.lineFor b) = some b.value := by
  have found : dropLead? (syn.lead b.key) (syn.lineFor b).toList = some ('"' :: b.value.toList ++ ['"']) := by
    rw [dropLead?_eq_some_iff, lineFor, String.toList_ofList, List.append_assoc]
  have blank : isBlank '"' = false := by decide
  unfold valueOf?
  rw [found]
  simp [trimEndChars, blank, unquote, between?]

end LineSyntax

/-- A line that reading does not cut and does not shorten. -/
structure TidyLine (line : String) : Prop where
  single : SingleLine line
  ended : ∀ before, line.toList ≠ before ++ ['\r']

structure Binding.Single (b : Binding) : Prop where
  key : SingleLine b.key
  value : SingleLine b.value

instance (b : Binding) : Decidable b.Single :=
  decidable_of_iff (SingleLine b.key ∧ SingleLine b.value)
    ⟨fun ⟨key, value⟩ => ⟨key, value⟩, fun single => ⟨single.key, single.value⟩⟩

theorem Binding.Single.tidy {b : Binding} (single : b.Single) (syn : LineSyntax) : TidyLine (syn.lineFor b) := by
  have text : (syn.lineFor b).toList = (syn.lead b.key ++ '"' :: b.value.toList) ++ ['"'] := by
    rw [LineSyntax.lineFor, String.toList_ofList]
  have lead := syn.single_lead single.key
  have value : '\n' ∉ b.value.toList := single.value
  constructor
  · unfold SingleLine
    rw [text]
    simp [lead, value]
  · intro before same
    rw [text] at same
    have last := (List.append_inj' same rfl).2
    simp at last

theorem TidyLine.strip {line : String} (tidy : TidyLine line) : stripTerminator (line.toList ++ ['\n']) = line.toList := by
  rcases stripTerminator_line line.toList with kept | ⟨before, same, -⟩
  · exact kept
  · exact absurd same (tidy.ended before)

theorem Text.piecesChars_written {ls : List String} (single : ∀ line ∈ ls, SingleLine line) :
    piecesChars (ls.flatMap fun line => line.toList ++ ['\n']) = ls.map fun line => line.toList ++ ['\n'] := by
  induction ls with
  | nil => rfl
  | cons line rest ih =>
    have later := ih fun other member => single other (List.mem_cons_of_mem _ member)
    rw [List.flatMap_cons, piecesChars_closed (Or.inr ⟨line.toList, rfl⟩), piecesChars_line (single line List.mem_cons_self),
      later]
    rfl

theorem Text.linesChars_written {whole : List Char} (closed : Closed whole) {added : List String}
    (single : ∀ line ∈ added, SingleLine line) :
    linesChars (whole ++ added.flatMap fun line => line.toList ++ ['\n']) =
      linesChars whole ++ added.map fun line => stripTerminator (line.toList ++ ['\n']) := by
  unfold linesChars
  rw [piecesChars_closed closed, piecesChars_written single, List.map_append, List.map_map]
  rfl

theorem Text.lines_single {text line : String} (member : line ∈ lines text) : SingleLine line := by
  obtain ⟨cs, read, rfl⟩ := List.mem_map.mp member
  obtain ⟨piece, cut, rfl⟩ := List.mem_map.mp read
  obtain ⟨body, single, ends⟩ := pieces_single _ piece cut
  unfold SingleLine
  rw [String.toList_ofList]
  rcases ends with rfl | rfl
  · rwa [stripTerminator_last single]
  · rcases stripTerminator_line body with kept | ⟨before, whole, shorter⟩
    · rwa [kept]
    · rw [shorter]
      rw [whole] at single
      exact fun member => single (List.mem_append_left _ member)

namespace Binding

/-- The lines of a text as a table of bindings: the first line that sets a key decides. -/
def lineTable (syn : LineSyntax) : BindingTable (List String) :=
  ⟨fun known key => known.findSome? (syn.valueOf? key), fun known b => known ++ [syn.lineFor b]⟩

theorem lineTable_lawful (syn : LineSyntax) : (lineTable syn).Lawful where
  look_put known b absent := by
    change known.findSome? _ = none at absent
    change (known ++ [syn.lineFor b]).findSome? _ = _
    rw [List.findSome?_append, absent]
    simp [syn.valueOf?_lineFor b]
  keeps known b key value found := by
    change known.findSome? _ = some value at found
    change (known ++ [syn.lineFor b]).findSome? _ = _
    rw [List.findSome?_append, found]
    rfl

theorem look_eq_find (syn : LineSyntax) (known : List String) (key : String) :
    (lineTable syn).look known key =
      (known.find? (syn.sets key)).map fun line => (syn.valueOf? key line).getD "" := by
  change known.findSome? _ = _
  induction known with
  | nil => rfl
  | cons line rest ih =>
    rw [List.findSome?_cons, List.find?_cons]
    have both : syn.sets key line = (syn.valueOf? key line).isSome := by
      simp [LineSyntax.sets, LineSyntax.valueOf?]
    rw [both]
    cases sets : syn.valueOf? key line with
    | none => exact ih
    | some value => simp [sets]

theorem lineStep_eq (syn : LineSyntax) (pass : LinePass) (b : Binding) :
    ((LinePass.step syn pass b).known, (LinePass.step syn pass b).account) =
      (lineTable syn).step (pass.known, pass.account) b := by
  unfold LinePass.step BindingTable.step
  rw [look_eq_find]
  cases pass.known.find? (syn.sets b.key) <;> rfl

theorem lineSteps_eq (syn : LineSyntax) (bindings : List Binding) (pass : LinePass) :
    ((bindings.foldl (LinePass.step syn) pass).known, (bindings.foldl (LinePass.step syn) pass).account) =
      bindings.foldl (lineTable syn).step (pass.known, pass.account) := by
  induction bindings generalizing pass with
  | nil => rfl
  | cons b rest ih => rw [List.foldl_cons, List.foldl_cons, ih, lineStep_eq]

theorem lineSteps_added (syn : LineSyntax) (bindings : List Binding) (pass : LinePass) :
    ∃ new, (bindings.foldl (LinePass.step syn) pass).known = pass.known ++ new ∧
      (bindings.foldl (LinePass.step syn) pass).added = pass.added ++ new ∧
      ∀ line ∈ new, ∃ b ∈ bindings, line = syn.lineFor b := by
  induction bindings generalizing pass with
  | nil => exact ⟨[], by simp, by simp, by simp⟩
  | cons b rest ih =>
    obtain ⟨new, known, added, each⟩ := ih (LinePass.step syn pass b)
    cases found : pass.known.find? (syn.sets b.key) with
    | some line =>
      have step : LinePass.step syn pass b =
          { pass with account := pass.account.addExisting b ((syn.valueOf? b.key line).getD "") } := by
        simp [LinePass.step, found]
      rw [List.foldl_cons, known, added, step]
      refine ⟨new, rfl, rfl, ?_⟩
      intro line member
      obtain ⟨c, present, same⟩ := each line member
      exact ⟨c, List.mem_cons_of_mem _ present, same⟩
    | none =>
      have step : LinePass.step syn pass b = ⟨pass.known ++ [syn.lineFor b], pass.added ++ [syn.lineFor b],
          pass.account.addInserted b.key⟩ := by
        simp [LinePass.step, found]
      rw [List.foldl_cons, known, added, step]
      refine ⟨syn.lineFor b :: new, by simp, by simp, ?_⟩
      intro line member
      rcases List.mem_cons.mp member with rfl | member
      · exact ⟨b, List.mem_cons_self, rfl⟩
      · obtain ⟨c, present, same⟩ := each line member
        exact ⟨c, List.mem_cons_of_mem _ present, same⟩

theorem endsWith_feed {content : String} : endsWith "\n" content = true ↔ ∃ before, content.toList = before ++ ['\n'] := by
  unfold endsWith
  rw [Option.isSome_iff_exists]
  rw [feed_toList, List.reverse_singleton]
  constructor
  · rintro ⟨rest, found⟩
    rw [dropLead?_eq_some_iff] at found
    refine ⟨rest.reverse, ?_⟩
    rw [← List.reverse_reverse content.toList, found]
    simp
  · rintro ⟨before, text⟩
    exact ⟨before.reverse, dropLead?_eq_some_iff.mpr (by simp [text])⟩

theorem linesChars_tidy {added : List String} (tidy : ∀ line ∈ added, TidyLine line) :
    linesChars (added.flatMap fun line => line.toList ++ ['\n']) = added.map String.toList := by
  have written := linesChars_written (Or.inl rfl) fun line member => (tidy line member).single
  rw [List.nil_append] at written
  rw [written]
  exact List.map_congr_left fun line member => (tidy line member).strip

theorem appendLines_toList (content : String) (added : List String) :
    (appendLines content added).toList =
      (if content = "" ∨ endsWith "\n" content then content.toList else content.toList ++ ['\n']) ++
        added.flatMap fun line => line.toList ++ ['\n'] := by
  unfold appendLines
  rw [String.toList_append, String.toList_join, List.flatMap_map]
  simp only [String.toList_append, feed_toList]
  split <;> simp [feed_toList]

theorem look_terminated (reader : LineSyntax) (key : String) {whole last : List Char} (closed : Closed whole)
    (single : '\n' ∉ last) (filled : last ≠ []) :
    (lineTable reader).look ((linesChars (whole ++ last ++ ['\n'])).map String.ofList) key =
      (lineTable reader).look ((linesChars (whole ++ last)).map String.ofList) key := by
  have open_ : linesChars (whole ++ last) = linesChars whole ++ [last] := by
    unfold linesChars
    rw [piecesChars_closed closed, piecesChars_last single filled, List.map_append, List.map_singleton,
      stripTerminator_last single]
  have ended : linesChars (whole ++ last ++ ['\n']) = linesChars whole ++ [stripTerminator (last ++ ['\n'])] := by
    unfold linesChars
    rw [List.append_assoc, piecesChars_closed closed, piecesChars_line single, List.map_append, List.map_singleton]
  have same : reader.valueOf? key (String.ofList (stripTerminator (last ++ ['\n']))) =
      reader.valueOf? key (String.ofList last) := by
    rcases stripTerminator_line last with kept | ⟨before, rfl, stripped⟩
    · rw [kept]
    · rw [stripped, reader.valueOf?_return]
  rw [open_, ended]
  change List.findSome? _ _ = List.findSome? _ _
  rw [List.map_append, List.map_append, List.findSome?_append, List.findSome?_append]
  simp only [List.map_cons, List.map_nil, List.findSome?_cons, same]

theorem linesChars_closed {whole : List Char} (closed : Closed whole) (rest : List Char) :
    linesChars (whole ++ rest) = linesChars whole ++ linesChars rest := by
  unfold linesChars
  rw [piecesChars_closed closed, List.map_append]

theorem look_appended (reader : LineSyntax) (key content : String) (added : List String) :
    (lineTable reader).look (lines (appendLines content added)) key = (lineTable reader).look
      (lines content ++ (linesChars (added.flatMap fun line => line.toList ++ ['\n'])).map String.ofList) key := by
  obtain ⟨whole, last, text, closed, single⟩ := exists_last_line content.toList
  unfold lines
  rw [appendLines_toList]
  by_cases whole_ : last = []
  · subst whole_
    rw [List.append_nil] at text
    have ended : content = "" ∨ endsWith "\n" content = true := by
      rcases closed with rfl | ⟨before, rfl⟩
      · exact Or.inl (String.toList_eq_nil_iff.mp text)
      · exact Or.inr (endsWith_feed.mpr ⟨before, text⟩)
    rw [if_pos ended, text, linesChars_closed closed, List.map_append]
  · have notEnded : ¬ (content = "" ∨ endsWith "\n" content = true) := by
      rintro (empty | ended)
      · rw [empty] at text
        exact whole_ (List.append_eq_nil_iff.mp text.symm).2
      · obtain ⟨before, ended⟩ := endsWith_feed.mp ended
        obtain ⟨front, c, rfl⟩ := (List.eq_nil_or_concat last).resolve_left whole_
        rw [text, List.concat_eq_append, ← List.append_assoc] at ended
        have feed := (List.append_inj' ended rfl).2
        simp only [List.concat_eq_append, feed] at single
        simp at single
    rw [if_neg notEnded, text, linesChars_closed (Or.inr ⟨whole ++ last, rfl⟩), List.map_append]
    change List.findSome? _ _ = List.findSome? _ _
    rw [List.findSome?_append, List.findSome?_append]
    exact congrArg (Option.or · _) (look_terminated reader key closed single whole_)

theorem look_appendLines (reader : LineSyntax) (key content : String) {added : List String}
    (tidy : ∀ line ∈ added, TidyLine line) :
    (lineTable reader).look (lines (appendLines content added)) key =
      (lineTable reader).look (lines content ++ added) key := by
  have back : (added.map String.toList).map String.ofList = added := by simp
  rw [look_appended, linesChars_tidy tidy, back]

/-- Whatever is appended, what a text gives a key it still gives it. -/
theorem look_appendLines_keeps {reader : LineSyntax} {key content value : String} (added : List String)
    (found : (lineTable reader).look (lines content) key = some value) :
    (lineTable reader).look (lines (appendLines content added)) key = some value := by
  rw [look_appended]
  change List.findSome? _ _ = _ at found
  change List.findSome? _ _ = _
  rw [List.findSome?_append, found]
  rfl

theorem insertLines_eq (content : String) (bindings : List Binding) (syn : LineSyntax) :
    ∃ new, ((lineTable syn).pass (lines content) bindings).1 = lines content ++ new ∧
      (∀ line ∈ new, ∃ b ∈ bindings, line = syn.lineFor b) ∧
      insertLines content bindings syn =
        (if ((lineTable syn).pass (lines content) bindings).2.isChanged then appendLines content new else content,
          ((lineTable syn).pass (lines content) bindings).2) := by
  have pass := lineSteps_eq syn bindings ⟨lines content, [], .none⟩
  obtain ⟨new, known, added, each⟩ := lineSteps_added syn bindings ⟨lines content, [], .none⟩
  have same : (lineTable syn).pass (lines content) bindings =
      ((bindings.foldl (LinePass.step syn) ⟨lines content, [], .none⟩).known,
        (bindings.foldl (LinePass.step syn) ⟨lines content, [], .none⟩).account) := pass.symm
  rw [same]
  refine ⟨new, known, each, ?_⟩
  unfold insertLines
  dsimp only
  rw [added, List.nil_append]
  split <;> rfl

theorem insertLines_account (content : String) (bindings : List Binding) (syn : LineSyntax) :
    (insertLines content bindings syn).2 = ((lineTable syn).pass (lines content) bindings).2 := by
  obtain ⟨new, -, -, result⟩ := insertLines_eq content bindings syn
  rw [result]

/-- A pass over a text gives the keys the values that the pass over its lines gave them, whoever reads. -/
theorem insertLines_look (content : String) {bindings : List Binding} (syn reader : LineSyntax) (key : String)
    (single : ∀ b ∈ bindings, b.Single) :
    (lineTable reader).look (lines (insertLines content bindings syn).1) key =
      (lineTable reader).look ((lineTable syn).pass (lines content) bindings).1 key := by
  obtain ⟨new, known, each, result⟩ := insertLines_eq content bindings syn
  rw [result]
  cases changed : ((lineTable syn).pass (lines content) bindings).2.isChanged with
  | false =>
    rw [BindingTable.pass_unchanged changed]
    rfl
  | true =>
    have tidy : ∀ line ∈ new, TidyLine line := by
      intro line member
      obtain ⟨b, present, rfl⟩ := each line member
      exact (single b present).tidy syn
    rw [known]
    exact look_appendLines reader key content tidy

theorem insertLines_keeps {content : String} {bindings : List Binding} {syn reader : LineSyntax} {key value : String}
    (single : ∀ b ∈ bindings, b.Single) (found : (lineTable reader).look (lines content) key = some value) :
    (lineTable reader).look (lines (insertLines content bindings syn).1) key = some value := by
  obtain ⟨new, known, -, -⟩ := insertLines_eq content bindings syn
  rw [insertLines_look content syn reader key single, known]
  change (lines content ++ new).findSome? _ = some value
  change (lines content).findSome? _ = some value at found
  rw [List.findSome?_append, found]
  rfl

end Binding

namespace Text

theorem exists_first_line (cs : List Char) :
    '\n' ∉ cs ∨ ∃ line rest, cs = line ++ '\n' :: rest ∧ '\n' ∉ line := by
  induction cs with
  | nil => exact Or.inl List.not_mem_nil
  | cons c cs ih =>
    by_cases feed : c = '\n'
    · subst feed
      exact Or.inr ⟨[], cs, rfl, List.not_mem_nil⟩
    · rcases ih with single | ⟨line, rest, rfl, single⟩
      · exact Or.inl (by simp [Ne.symm feed, single])
      · exact Or.inr ⟨c :: line, rest, rfl, by simp [Ne.symm feed, single]⟩

end Text

namespace Pattern

theorem cutPiece_line (line : List Char) : cutPiece (line ++ ['\n']) = (line, ['\n']) := by
  simp [cutPiece]

theorem cutPiece_last {line : List Char} (single : '\n' ∉ line) : cutPiece line = (line, []) := by
  unfold cutPiece
  split
  · rename_i rest reversed
    have member : '\n' ∈ line.reverse := by simp [reversed]
    exact absurd (List.mem_reverse.mp member) single
  · rfl

def replaceLine (p : Pattern) (replacement line : List Char) : List Char :=
  if p.changes replacement line then replacement else line

theorem replaceLine_settled (p : Pattern) (replacement line : List Char) :
    p.changes replacement (p.replaceLine replacement line) = false := by
  unfold replaceLine
  by_cases change : p.changes replacement line = true
  · rw [if_pos change]
    simp [changes]
  · rw [if_neg change]
    exact Bool.eq_false_iff.mpr change

theorem replaceLine_single (p : Pattern) {replacement line : List Char} (single : '\n' ∉ replacement)
    (singleLine : '\n' ∉ line) : '\n' ∉ p.replaceLine replacement line := by
  unfold replaceLine
  split
  · exact single
  · exact singleLine

theorem replacePiece_line (p : Pattern) (replacement line : List Char) :
    p.replacePiece replacement (line ++ ['\n']) = p.replaceLine replacement line ++ ['\n'] := by
  simp [replacePiece, cutPiece_line, replaceLine]

theorem replacePiece_last (p : Pattern) (replacement : List Char) {line : List Char} (single : '\n' ∉ line) :
    p.replacePiece replacement line = p.replaceLine replacement line := by
  simp [replacePiece, cutPiece_last single, replaceLine]

theorem pieces_replaced (p : Pattern) {replacement : List Char} (single : '\n' ∉ replacement) (cs : List Char) :
    ∃ gone, (gone = [] ∨ gone = [[]]) ∧ (piecesChars cs).map (p.replacePiece replacement) =
      piecesChars ((piecesChars cs).flatMap (p.replacePiece replacement)) ++ gone := by
  -- The text is taken apart at its first line feed.
  induction length : cs.length using Nat.strongRecOn generalizing cs with
  | ind n ih =>
    rcases exists_first_line cs with one | ⟨line, rest, rfl, one⟩
    · by_cases empty : cs = []
      · subst empty
        exact ⟨[], Or.inl rfl, rfl⟩
      · have stillOne := p.replaceLine_single single one
        rw [piecesChars_last one empty, List.map_singleton, List.flatMap_singleton, p.replacePiece_last _ one]
        by_cases gone : p.replaceLine replacement cs = []
        · exact ⟨[[]], Or.inr rfl, by rw [gone]; rfl⟩
        · exact ⟨[], Or.inl rfl, by rw [piecesChars_last stillOne gone, List.append_nil]⟩
    · have stillOne := p.replaceLine_single single one
      have shorter : rest.length < n := by
        rw [← length]
        simp
        omega
      obtain ⟨gone, few, later⟩ := ih rest.length shorter rest rfl
      have pieces : piecesChars (line ++ '\n' :: rest) = (line ++ ['\n']) :: piecesChars rest := by
        rw [piecesChars_append, piecesChars_line one, List.singleton_append]
      refine ⟨gone, few, ?_⟩
      rw [pieces, List.map_cons, List.flatMap_cons, later, p.replacePiece_line,
        piecesChars_closed (Or.inr ⟨_, rfl⟩), piecesChars_line stillOne]
      rfl

theorem replaced_settled (p : Pattern) {replacement : List Char} (single : '\n' ∉ replacement) (cs : List Char) :
    ∀ piece ∈ piecesChars ((piecesChars cs).flatMap (p.replacePiece replacement)),
      p.changes replacement (cutPiece piece).1 = false := by
  intro piece member
  obtain ⟨gone, -, replaced⟩ := p.pieces_replaced single cs
  have among : piece ∈ (piecesChars cs).map (p.replacePiece replacement) := by
    rw [replaced]
    exact List.mem_append_left _ member
  obtain ⟨before, old, rfl⟩ := List.mem_map.mp among
  obtain ⟨line, one, rfl | rfl⟩ := pieces_single cs before old
  · rw [p.replacePiece_last replacement one, cutPiece_last (p.replaceLine_single single one)]
    exact p.replaceLine_settled replacement before
  · rw [p.replacePiece_line, cutPiece_line]
    exact p.replaceLine_settled replacement line

theorem replaceLines?_getD (p : Pattern) (replacement content : String) :
    ((p.replaceLines? replacement content).getD content).toList =
      (piecesChars content.toList).flatMap (p.replacePiece replacement.toList) := by
  unfold replaceLines?
  dsimp only
  split
  · exact String.toList_ofList
  · rename_i unchanged
    rw [List.any_eq_true] at unchanged
    have same : ∀ piece ∈ piecesChars content.toList, p.replacePiece replacement.toList piece = piece := by
      intro piece member
      have still : p.changes replacement.toList (cutPiece piece).1 = false :=
        Bool.eq_false_iff.mpr fun change => unchanged ⟨piece, member, change⟩
      obtain ⟨line, one, rfl | rfl⟩ := pieces_single content.toList piece member
      · rw [cutPiece_last one] at still
        simp [p.replacePiece_last _ one, replaceLine, still]
      · rw [cutPiece_line] at still
        simp [p.replacePiece_line, replaceLine, still]
    rw [List.flatMap_def, List.map_congr_left same, List.map_id', flatten_piecesChars]
    rfl

theorem replaceLines?_settled {p : Pattern} {replacement content updated : String} (single : SingleLine replacement)
    (replaced : p.replaceLines? replacement content = some updated) :
    p.replaceLines? replacement updated = none := by
  have settled := p.replaced_settled single content.toList
  have text := p.replaceLines?_getD replacement content
  rw [replaced, Option.getD_some] at text
  unfold replaceLines?
  dsimp only
  rw [if_neg]
  rw [text, List.any_eq_true]
  rintro ⟨piece, member, change⟩
  rw [settled piece member] at change
  cases change

end Pattern

end Provision
