import Provision.Proofs.Lines
import Provision.Proofs.MachineHost
import Provision.Proofs.Standstill

namespace Provision

open Text

variable {σ : Type}

namespace Text

/-- The line of a piece, as guards read it. -/
def lineOf (piece : String) : String := String.ofList (stripTerminator piece.toList)

/-- The line of a piece, as replacements read it. -/
def bodyOf (piece : String) : String := String.ofList (Pattern.cutPiece piece.toList).1

theorem lines_eq (content : String) : lines content = (pieces content).map lineOf := by
  simp [lines, linesChars, pieces, lineOf, Function.comp_def]

theorem return_toList : "\r\n".toList = ['\r', '\n'] := by decide +kernel

theorem append_return (line : String) : line ++ "\r\n" = line ++ "\r" ++ "\n" := by
  rw [String.append_assoc]
  rfl

theorem bodyOf_line (line : String) : bodyOf (line ++ "\n") = line := by
  rw [bodyOf, String.toList_append, feed_toList, Pattern.cutPiece_line, String.ofList_toList]

theorem bodyOf_last {line : String} (single : SingleLine line) : bodyOf line = line := by
  rw [bodyOf, Pattern.cutPiece_last single, String.ofList_toList]

theorem lineOf_last {line : String} (single : SingleLine line) : lineOf line = line := by
  rw [lineOf, stripTerminator_last single, String.ofList_toList]

theorem lineOf_line {line : String} (tidy : TidyLine line) : lineOf (line ++ "\n") = line := by
  rw [lineOf, String.toList_append, feed_toList, tidy.strip, String.ofList_toList]

theorem lineOf_return (line : String) : lineOf (line ++ "\r\n") = line := by
  have cut : stripTerminator (line.toList ++ ['\r', '\n']) = line.toList := by simp [stripTerminator]
  rw [lineOf, String.toList_append, return_toList, cut, String.ofList_toList]

theorem tidy_of_lineOf {line : String} (single : SingleLine line) (same : lineOf (line ++ "\n") = line) :
    TidyLine line := by
  refine ⟨single, fun before ends => ?_⟩
  have cut : stripTerminator (before ++ ['\r'] ++ ['\n']) = before := by simp [stripTerminator]
  have shorter : before = before ++ ['\r'] := by
    rw [lineOf, String.toList_append, feed_toList, ends, cut, ← String.toList_inj, String.toList_ofList, ends] at same
    exact same
  have length := congrArg List.length shorter
  simp at length

def returned (content : String) : List String := (lines content).filter fun line => line ++ "\r\n" ∈ pieces content

theorem mem_returned {content line : String} : line ∈ returned content ↔ line ++ "\r\n" ∈ pieces content := by
  rw [returned, List.mem_filter, decide_eq_true_iff, lines_eq]
  refine ⟨And.right, fun member => ⟨?_, member⟩⟩
  exact List.mem_map.mpr ⟨_, member, lineOf_return line⟩

theorem tidy_or_return {line : String} (single : SingleLine line) :
    TidyLine line ∨ ∃ before, SingleLine before ∧ line = before ++ "\r" := by
  by_cases ends : ∃ before, line.toList = before ++ ['\r']
  · obtain ⟨before, ends⟩ := ends
    have back : "\r".toList = ['\r'] := by decide +kernel
    refine Or.inr ⟨String.ofList before, ?_, ?_⟩
    · unfold SingleLine at single ⊢
      rw [ends, List.mem_append, not_or] at single
      rw [String.toList_ofList]
      exact single.1
    · rw [← String.toList_inj, String.toList_append, String.toList_ofList, back, ends]
  · exact Or.inl ⟨single, fun before same => ends ⟨before, same⟩⟩

theorem pieces_cases {content piece : String} (member : piece ∈ pieces content) :
    (∃ line, SingleLine line ∧ piece = line ++ "\r\n") ∨ (∃ line, TidyLine line ∧ piece = line ++ "\n") ∨
      SingleLine piece := by
  obtain ⟨cs, cut, rfl⟩ := List.mem_map.mp member
  obtain ⟨body, single, rfl | rfl⟩ := pieces_single _ cs cut
  · right; right
    unfold SingleLine
    rwa [String.toList_ofList]
  · have one : SingleLine (String.ofList body) := by
      unfold SingleLine
      rwa [String.toList_ofList]
    have ended : String.ofList (body ++ ['\n']) = String.ofList body ++ "\n" := by
      rw [← String.toList_inj, String.toList_append, String.toList_ofList, String.toList_ofList, feed_toList]
    rw [ended]
    rcases tidy_or_return one with tidy | ⟨before, single, same⟩
    · exact Or.inr (Or.inl ⟨_, tidy, rfl⟩)
    · exact Or.inl ⟨before, single, by rw [same, append_return]⟩

theorem bodyOf_return (line : String) : bodyOf (line ++ "\r\n") = line ++ "\r" := by
  rw [append_return, bodyOf_line]

/-- Only a carriage return and a line feed make a difference between the readings. -/
theorem readings_cases {content piece : String} (member : piece ∈ pieces content) :
    lineOf piece = bodyOf piece ∨ ∃ line, piece = line ++ "\r\n" := by
  rcases pieces_cases member with ⟨line, -, rfl⟩ | ⟨line, tidy, rfl⟩ | single
  · exact Or.inr ⟨line, rfl⟩
  · exact Or.inl (by rw [lineOf_line tidy, bodyOf_line])
  · exact Or.inl (by rw [lineOf_last single, bodyOf_last single])

end Text

namespace Pattern

variable (p : Pattern) (replacement content : String)

def Considers : Prop := ∃ piece ∈ pieces content, p.isMatch (bodyOf piece) = true

/-- Lines on which the readings differ are not alone: another line makes up for each. -/
structure SeenAlike : Prop where
  shorter : ∀ line ∈ returned content, p.isMatch line = true → p.isMatch (line ++ "\r") = false →
    p.Considers content
  longer : ∀ line ∈ returned content, p.isMatch (line ++ "\r") = true → p.isMatch line = false →
    p.matchesLineOf content = true

/-- Every line that matches, as guards read it, is now the replacement; every other is the same to its last byte. -/
def Overwritten (text : String) : Prop :=
  ∀ (i : Nat) (piece : String), (pieces content)[i]? = some piece →
    (p.isMatch (lineOf piece) = true → lineOf ((pieces text)[i]?.getD "") = replacement) ∧
      (p.isMatch (lineOf piece) = false → (pieces text)[i]?.getD "" = piece)

/-- Where the readings differ, it makes no difference to what is written. -/
structure Consistent : Prop where
  shorter : ∀ line ∈ returned content, p.isMatch line = true → p.isMatch (line ++ "\r") = false →
    line = replacement
  longer : ∀ line ∈ returned content, p.isMatch (line ++ "\r") = true → p.isMatch line = false →
    line ++ "\r" = replacement
  ended : ¬ TidyLine replacement → ∀ line, line ++ "\n" ∈ pieces content →
    p.isMatch (lineOf (line ++ "\n")) = true → p.isMatch line = false

theorem matchesLineOf_iff : p.matchesLineOf content = true ↔ ∃ piece ∈ pieces content, p.isMatch (lineOf piece) = true := by
  rw [matchesLineOf, lines_eq, List.any_map, List.any_eq_true]
  rfl

theorem seenAlike_iff : (p.matchesLineOf content = true ↔ p.Considers content) ↔ p.SeenAlike content := by
  rw [matchesLineOf_iff]
  constructor
  · intro agree
    constructor
    · intro line member shorter _
      exact agree.mp ⟨_, mem_returned.mp member, by rwa [lineOf_return]⟩
    · intro line member longer _
      exact (p.matchesLineOf_iff content).mpr (agree.mpr ⟨_, mem_returned.mp member, by rwa [bodyOf_return]⟩)
  · intro alike
    constructor
    · rintro ⟨piece, member, here⟩
      rcases readings_cases member with same | ⟨line, rfl⟩
      · exact ⟨piece, member, by rwa [same] at here⟩
      · rw [lineOf_return] at here
        cases longer : p.isMatch (line ++ "\r") with
        | true => exact ⟨_, member, by rwa [bodyOf_return]⟩
        | false => exact alike.shorter line (mem_returned.mpr member) here longer
    · rintro ⟨piece, member, here⟩
      rcases readings_cases member with same | ⟨line, rfl⟩
      · exact ⟨piece, member, by rwa [same]⟩
      · rw [bodyOf_return] at here
        cases shorter : p.isMatch line with
        | true => exact ⟨_, member, by rwa [lineOf_return]⟩
        | false => exact (p.matchesLineOf_iff content).mp (alike.longer line (mem_returned.mpr member) here shorter)

def instead (piece : String) : String := String.ofList (p.replacePiece replacement.toList piece.toList)

theorem replaceLine_eq (line : List Char) : p.replaceLine replacement.toList line =
    if p.isMatch (String.ofList line) = true then replacement.toList else line := by
  unfold replaceLine changes
  by_cases same : line = replacement.toList
  · simp [same]
  · simp [same]

theorem instead_line (line : String) : p.instead replacement (line ++ "\n") =
    (if p.isMatch line = true then replacement else line) ++ "\n" := by
  rw [instead, String.toList_append, feed_toList, replacePiece_line, replaceLine_eq, String.ofList_toList,
    ← String.toList_inj, String.toList_ofList, String.toList_append, feed_toList]
  split <;> rfl

theorem instead_last {piece : String} (single : SingleLine piece) : p.instead replacement piece =
    if p.isMatch piece = true then replacement else piece := by
  rw [instead, p.replacePiece_last _ single, replaceLine_eq, String.ofList_toList]
  split <;> exact String.ofList_toList

theorem instead_return (line : String) : p.instead replacement (line ++ "\r\n") =
    (if p.isMatch (line ++ "\r") = true then replacement else line ++ "\r") ++ "\n" := by
  rw [append_return, instead_line]

theorem pieces_left {replacement : String} (single : SingleLine replacement) {i : Nat} {piece : String}
    (here : (pieces content)[i]? = some piece) :
    (pieces ((p.replaceLines? replacement content).getD content))[i]?.getD "" = p.instead replacement piece := by
  obtain ⟨gone, few, replaced⟩ := p.pieces_replaced single content.toList
  rw [← p.replaceLines?_getD] at replaced
  unfold pieces at here ⊢
  rw [List.getElem?_map] at here ⊢
  obtain ⟨cs, old, rfl⟩ := Option.map_eq_some_iff.mp here
  have place : (piecesChars ((p.replaceLines? replacement content).getD content).toList ++ gone)[i]? =
      some (p.replacePiece replacement.toList cs) := by
    rw [← replaced, List.getElem?_map, old]
    rfl
  rw [instead, String.toList_ofList]
  by_cases bound : i < (piecesChars ((p.replaceLines? replacement content).getD content).toList).length
  · rw [List.getElem?_append_left bound] at place
    rw [place]
    rfl
  · have beyond := Nat.le_of_not_lt bound
    rw [List.getElem?_append_right beyond] at place
    have empty : p.replacePiece replacement.toList cs = [] := by
      rcases few with rfl | rfl
      · cases place
      · exact List.mem_singleton.mp (List.mem_of_getElem? place)
    rw [empty, List.getElem?_eq_none beyond]
    rfl

def Serves (piece : String) : Prop :=
  (p.isMatch (lineOf piece) = true → lineOf (p.instead replacement piece) = replacement) ∧
    (p.isMatch (lineOf piece) = false → p.instead replacement piece = piece)

variable {p} {replacement} {content}

theorem overwritten_iff_serves (single : SingleLine replacement) :
    p.Overwritten replacement content ((p.replaceLines? replacement content).getD content) ↔
      ∀ piece ∈ pieces content, p.Serves replacement piece := by
  constructor
  · intro overwrites piece member
    obtain ⟨i, here⟩ := List.mem_iff_getElem?.mp member
    have after := overwrites i piece here
    rwa [p.pieces_left content single here] at after
  · intro serves i piece here
    rw [p.pieces_left content single here]
    exact serves piece (List.mem_of_getElem? here)

theorem consistent_of_serves (single : SingleLine replacement)
    (serves : ∀ piece ∈ pieces content, p.Serves replacement piece) : p.Consistent replacement content := by
  constructor
  · intro line member shorter longer
    have after := (serves _ (mem_returned.mp member)).1 (by rwa [lineOf_return])
    rwa [instead_return, longer, if_neg Bool.false_ne_true, ← append_return, lineOf_return] at after
  · intro line member longer shorter
    have after := (serves _ (mem_returned.mp member)).2 (by rwa [lineOf_return])
    rw [instead_return, if_pos longer, append_return] at after
    exact ((String.append_left_inj "\n").mp after).symm
  · intro untidy line member sees
    refine Bool.eq_false_iff.mpr fun considers => untidy ?_
    have after := (serves _ member).1 sees
    rw [instead_line, if_pos considers] at after
    exact tidy_of_lineOf single after

theorem Consistent.tidy (consistent : p.Consistent replacement content) {line : String}
    (member : line ++ "\n" ∈ pieces content) (considers : p.isMatch line = true)
    (sees : p.isMatch (lineOf (line ++ "\n")) = true) : TidyLine replacement := by
  by_cases tidy : TidyLine replacement
  · exact tidy
  · rw [consistent.ended tidy line member sees] at considers
    cases considers

theorem Consistent.serves_return (consistent : p.Consistent replacement content) {line : String}
    (member : line ++ "\r\n" ∈ pieces content) : p.Serves replacement (line ++ "\r\n") := by
  unfold Serves
  rw [lineOf_return, instead_return]
  cases longer : p.isMatch (line ++ "\r") with
  | true =>
    rw [if_pos rfl]
    refine ⟨fun shorter => lineOf_line ?_, fun shorter => ?_⟩
    · rw [append_return] at member
      exact consistent.tidy member longer (by rwa [← append_return, lineOf_return])
    · rw [append_return, consistent.longer line (mem_returned.mpr member) longer shorter]
  | false =>
    rw [if_neg Bool.false_ne_true, ← append_return, lineOf_return]
    exact ⟨fun shorter => consistent.shorter line (mem_returned.mpr member) shorter longer, fun _ => rfl⟩

theorem Consistent.serves (single : SingleLine replacement) (consistent : p.Consistent replacement content) :
    ∀ piece ∈ pieces content, p.Serves replacement piece := by
  intro piece member
  rcases pieces_cases member with ⟨line, -, rfl⟩ | ⟨line, tidy, rfl⟩ | one
  · exact consistent.serves_return member
  · unfold Serves
    rw [lineOf_line tidy, instead_line]
    cases considers : p.isMatch line with
    | true => exact ⟨fun _ => lineOf_line (consistent.tidy member considers (by rwa [lineOf_line tidy])), by simp⟩
    | false => exact ⟨by simp, fun _ => rfl⟩
  · unfold Serves
    rw [lineOf_last one, p.instead_last _ one]
    cases p.isMatch piece with
    | true => exact ⟨fun _ => lineOf_last single, by simp⟩
    | false => exact ⟨by simp, fun _ => rfl⟩

theorem overwritten_iff (single : SingleLine replacement) :
    p.Overwritten replacement content ((p.replaceLines? replacement content).getD content) ↔
      p.Consistent replacement content :=
  (overwritten_iff_serves single).trans ⟨consistent_of_serves single, Consistent.serves single⟩

end Pattern

section

variable {host : Host σ} {w : World σ} {path pattern content : String} {p : Pattern}

theorem Check.run_fileContains (parsed : Pattern.parse pattern = .ok p)
    (read : (host.answer (.read path) w.machine).1 = .ok (some content)) :
    (w.run ((Check.fileContains path pattern).evaluate host).run).1 = .ok (p.matchesLineOf content) := by
  have looked : w.run (perform host (.read path)) = (.ok (some content), w.after host (.read path)) := Prod.ext read rfl
  simp only [Check.evaluate, parsed]
  rw [World.try_bind, World.try_ask, looked]
  rfl

variable {replacement : String} {e : LineEdit}

theorem LineEdit.run_parsePattern (parsed : Pattern.parse pattern = .ok p) :
    w.run (liftM (parsePattern pattern) : Action σ Pattern).run = (.ok p, w) := by
  rw [parsePattern, parsed]
  rfl

theorem LineEdit.run_replace (here : e.path = some path) (replacing : e.replace = some ⟨pattern, replacement⟩)
    (parsed : Pattern.parse pattern = .ok p) (read : (host.answer (.read path) w.machine).1 = .ok (some content)) :
    w.run (e.apply host).run =
      match p.replaceLines? replacement content with
      | none => (.ok .unchanged, w.after host (.read path))
      | some text =>
        (((host.answer (.write path text) (w.after host (.read path)).machine).1.mapError .collaborator).map fun _ =>
            .converged ("rewrote /" ++ pattern ++ "/ in " ++ path),
          (w.after host (.read path)).after host (.write path text)) := by
  have looked : w.run (Action.ofReply (perform host (.read path))).run = (.ok (some content), w.after host (.read path)) :=
    World.try_ofReply_eq_ok.mpr (Prod.ext read rfl)
  unfold apply applyReplace
  rw [replacing, here]
  dsimp only
  rw [World.try_bind, run_parsePattern parsed]
  dsimp only
  rw [World.try_bind, looked]
  dsimp only [Option.bind_some]
  cases p.replaceLines? replacement content with
  | none => rfl
  | some text =>
    have wrote : World.run (w.after host (.read path)) (perform host (.write path text)) =
        ((host.answer (.write path text) (w.after host (.read path)).machine).1,
          (w.after host (.read path)).after host (.write path text)) := rfl
    dsimp only
    rw [World.try_bind, World.try_ofReply, wrote]
    cases (host.answer (.write path text) (w.after host (.read path)).machine).1 <;> rfl

theorem LineEdit.left_of_replace {change : Change} {last : World σ} (here : e.path = some path)
    (replacing : e.replace = some ⟨pattern, replacement⟩) (parsed : Pattern.parse pattern = .ok p)
    (read : (host.answer (.read path) w.machine).1 = .ok (some content))
    (ran : w.run (e.apply host).run = (.ok change, last)) :
    change = .unchanged ∧ (p.replaceLines? replacement content).getD content = content ∧
        last.calls = w.calls ++ [.read path] ∨
      (∃ detail, change = .converged detail) ∧ last.calls = w.calls ++
        [.read path, .write path ((p.replaceLines? replacement content).getD content)] := by
  rw [run_replace here replacing parsed read] at ran
  cases replaced : p.replaceLines? replacement content with
  | none =>
    rw [replaced] at ran
    cases ran
    exact Or.inl ⟨rfl, rfl, rfl⟩
  | some text =>
    rw [replaced] at ran
    obtain ⟨told, rfl⟩ := Prod.mk.inj ran
    cases answered : (host.answer (.write path text) (w.after host (.read path)).machine).1 with
    | error fault =>
      rw [answered] at told
      cases told
    | ok done =>
      rw [answered] at told
      cases told
      exact Or.inr ⟨⟨_, rfl⟩, by simp⟩

/-- A guard and a replacement with its pattern agree on a file just as far as carriage returns make no difference. -/
theorem line_readings_agree_iff (parsed : Pattern.parse pattern = .ok p)
    (single : SingleLine replacement) (read : (host.answer (.read path) w.machine).1 = .ok (some content)) :
    (((w.run ((Check.fileContains path pattern).evaluate host).run).1 = .ok true ↔ p.Considers content) ↔
        p.SeenAlike content) ∧
      ∀ (e : LineEdit) change last, e.path = some path → e.replace = some ⟨pattern, replacement⟩ →
        w.run (e.apply host).run = (.ok change, last) → ∃ text,
          (change = .unchanged ∧ text = content ∧ last.calls = w.calls ++ [.read path] ∨
            (∃ detail, change = .converged detail) ∧ last.calls = w.calls ++ [.read path, .write path text]) ∧
          (p.Overwritten replacement content text ↔ p.Consistent replacement content) := by
  constructor
  · have sees : (w.run ((Check.fileContains path pattern).evaluate host).run).1 = .ok true ↔
        p.matchesLineOf content = true := by
      rw [Check.run_fileContains parsed read]
      exact ⟨Except.ok.inj, congrArg Except.ok⟩
    rw [sees]
    exact p.seenAlike_iff content
  · intro e change last here replacing ran
    exact ⟨_, LineEdit.left_of_replace here replacing parsed read ran, Pattern.overwritten_iff single⟩

end

def portPattern : Pattern := (Pattern.parse "^PORT=80$").toOption.getD .empty

theorem portPattern_parsed : Pattern.parse "^PORT=80$" = .ok portPattern := by
  have fit : (Pattern.parse "^PORT=80$").toOption.isSome = true := by decide +kernel
  unfold portPattern
  cases parsed : Pattern.parse "^PORT=80$" with
  | error m =>
    rw [parsed] at fit
    cases fit
  | ok p => rfl

def portWorld (content : String) : World Machine where
  machine := { Machine.empty with files := [("/f", { content })] }
  context := ⟨false, false, .empty, .object [], .warn, []⟩
  calls := []
  events := []

def portEdit : LineEdit := { path := some "/f", replace := some ⟨"^PORT=80$", "PORT=81"⟩ }

theorem line_readings_agree_iff_mixed :
    Pattern.parse "^PORT=80$" = .ok portPattern ∧ SingleLine "PORT=81" ∧
      portPattern.SeenAlike "PORT=80\nHOST=a\r\n" ∧ portPattern.Consistent "PORT=81" "PORT=80\nHOST=a\r\n" ∧
      ∃ text change last, (portWorld "PORT=80\nHOST=a\r\n").run (portEdit.apply Machine.host).run = (.ok change, last) ∧
        portPattern.Overwritten "PORT=81" "PORT=80\nHOST=a\r\n" text := by
  have read : (Machine.host.answer (.read "/f") (portWorld "PORT=80\nHOST=a\r\n").machine).1 =
      .ok (some "PORT=80\nHOST=a\r\n") := rfl
  have sees : portPattern.matchesLineOf "PORT=80\nHOST=a\r\n" = true := by decide +kernel
  have considers : portPattern.Considers "PORT=80\nHOST=a\r\n" := by
    unfold Pattern.Considers
    decide +kernel
  have replaced : portPattern.replaceLines? "PORT=81" "PORT=80\nHOST=a\r\n" = some "PORT=81\nHOST=a\r\n" := by
    decide +kernel
  have acted := LineEdit.run_replace (e := portEdit) rfl rfl portPattern_parsed read
  rw [replaced] at acted
  have single : SingleLine "PORT=81" := by decide +kernel
  have consistent : portPattern.Consistent "PORT=81" "PORT=80\nHOST=a\r\n" :=
    ⟨by decide +kernel, by decide +kernel, fun untidy => absurd (tidy_of_lineOf single (by decide +kernel)) untidy⟩
  obtain ⟨agree, leaves⟩ := line_readings_agree_iff portPattern_parsed single read
  obtain ⟨text, -, overwrites⟩ := leaves portEdit _ _ rfl rfl acted
  have guarded := Check.run_fileContains portPattern_parsed read
  rw [sees] at guarded
  exact ⟨portPattern_parsed, single, agree.mp (iff_of_true guarded considers), consistent, text, _, _, acted,
    overwrites.mpr consistent⟩

/-- The guard finds the line, and the replacement leaves it as it is. -/
theorem line_readings_differ :
    ((portWorld "PORT=80\r\n").run ((Check.fileContains "/f" "^PORT=80$").evaluate Machine.host).run).1 = .ok true ∧
      ¬ portPattern.Considers "PORT=80\r\n" ∧
      ((portWorld "PORT=80\r\n").run (portEdit.apply Machine.host).run).1 = .ok .unchanged ∧
      ¬ portPattern.Overwritten "PORT=81" "PORT=80\r\n" "PORT=80\r\n" := by
  have read : (Machine.host.answer (.read "/f") (portWorld "PORT=80\r\n").machine).1 = .ok (some "PORT=80\r\n") := rfl
  have sees : portPattern.matchesLineOf "PORT=80\r\n" = true := by decide +kernel
  have nothing : portPattern.replaceLines? "PORT=81" "PORT=80\r\n" = none := by decide +kernel
  refine ⟨?_, ?_, ?_, ?_⟩
  · rw [Check.run_fileContains portPattern_parsed read, sees]
  · unfold Pattern.Considers
    decide +kernel
  · rw [LineEdit.run_replace rfl rfl portPattern_parsed read, nothing]
  · intro overwrites
    have after := (overwrites 0 "PORT=80\r\n" (by decide +kernel)).1 (by decide +kernel)
    revert after
    decide +kernel

end Provision
