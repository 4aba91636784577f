import Provision.Proofs.LineReadings

namespace Provision

open Text

variable {σ : Type}

namespace Text

def endOf (piece : String) : String := String.ofList (Pattern.cutPiece piece.toList).2

theorem piece_ne_nil {cs piece : List Char} (member : piece ∈ piecesChars cs) : piece ≠ [] := by
  induction cs generalizing piece with
  | nil => cases member
  | cons c cs ih =>
    unfold piecesChars at member
    split at member
    · rcases List.mem_cons.mp member with rfl | later
      · simp
      · exact ih later
    · cases pieces : piecesChars cs with
      | nil =>
        rw [pieces] at member
        rw [List.mem_singleton.mp member]
        simp
      | cons first rest =>
        rw [pieces] at member
        rcases List.mem_cons.mp member with rfl | later
        · simp
        · exact ih (by rw [pieces]; exact List.mem_cons_of_mem _ later)

theorem piecesChars_piece {cs piece : List Char} (member : piece ∈ piecesChars cs) : piecesChars piece = [piece] := by
  obtain ⟨body, single, rfl | rfl⟩ := pieces_single cs piece member
  · exact piecesChars_last single (piece_ne_nil member)
  · exact piecesChars_line single

theorem piecesChars_flatMap {f : List Char → List Char} (closed : ∀ line, Closed (f (line ++ ['\n'])))
    (cs : List Char) :
    piecesChars ((piecesChars cs).flatMap f) = (piecesChars cs).flatMap fun piece => piecesChars (f piece) := by
  -- The text is taken apart at its first line feed.
  induction length : cs.length using Nat.strongRecOn generalizing cs with
  | ind n ih =>
    rcases exists_first_line cs with one | ⟨line, rest, rfl, one⟩
    · by_cases empty : cs = []
      · subst empty
        rfl
      · rw [piecesChars_last one empty, List.flatMap_singleton, List.flatMap_singleton]
    · have shorter : rest.length < n := by
        rw [← length]
        simp
        omega
      have pieces : piecesChars (line ++ '\n' :: rest) = (line ++ ['\n']) :: piecesChars rest := by
        rw [piecesChars_append, piecesChars_line one, List.singleton_append]
      rw [pieces, List.flatMap_cons, List.flatMap_cons, piecesChars_closed (closed line),
        ih rest.length shorter rest rfl]

end Text

namespace Pattern

variable (p : Pattern) (replacement content : String)

/-- No line that a replacement puts in the place of a matching one matches again. -/
def Inert : Prop :=
  ∀ piece ∈ pieces content, p.isMatch (bodyOf piece) = true →
    ∀ line ∈ pieces (replacement ++ endOf piece), p.isMatch (bodyOf line) = false

instance : Decidable (p.Inert replacement content) :=
  inferInstanceAs (Decidable (∀ piece ∈ pieces content, p.isMatch (bodyOf piece) = true →
    ∀ line ∈ pieces (replacement ++ endOf piece), p.isMatch (bodyOf line) = false))

theorem replaceLines?_eq_none_iff : p.replaceLines? replacement content = none ↔
    ∀ piece ∈ piecesChars content.toList, p.changes replacement.toList (cutPiece piece).1 = false := by
  unfold replaceLines?
  dsimp only
  cases change : (piecesChars content.toList).any fun piece => p.changes replacement.toList (cutPiece piece).1 with
  | true =>
    obtain ⟨piece, member, here⟩ := List.any_eq_true.mp change
    refine iff_of_false (by simp) fun settled => ?_
    rw [settled piece member] at here
    cases here
  | false =>
    refine iff_of_true (by simp) fun piece member => ?_
    exact Bool.eq_false_iff.mpr (List.any_eq_false.mp change piece member)

variable {p} {replacement} {content}

theorem replacePiece_closed (p : Pattern) (replacement line : List Char) :
    Closed (p.replacePiece replacement (line ++ ['\n'])) := by
  rw [replacePiece_line]
  exact Or.inr ⟨_, rfl⟩

theorem cutPiece_joined {cs piece : List Char} (member : piece ∈ piecesChars cs) :
    (cutPiece piece).1 ++ (cutPiece piece).2 = piece := by
  obtain ⟨body, single, rfl | rfl⟩ := pieces_single cs piece member
  · rw [cutPiece_last single, List.append_nil]
  · rw [cutPiece_line]

theorem cutPiece_single {cs piece : List Char} (member : piece ∈ piecesChars cs) : '\n' ∉ (cutPiece piece).1 := by
  obtain ⟨body, single, rfl | rfl⟩ := pieces_single cs piece member
  · rwa [cutPiece_last single]
  · rwa [cutPiece_line]

theorem changes_of_several (several : ¬ SingleLine replacement) {line : List Char} (single : '\n' ∉ line) :
    p.changes replacement.toList line = p.isMatch (String.ofList line) := by
  have differs : line ≠ replacement.toList := by
    rintro rfl
    exact several single
  simp [changes, differs]

/-- A piece that does not match is settled, and one that matches gives way to the lines of the replacement. -/
theorem replacePiece_settled_iff (several : ¬ SingleLine replacement) {cs piece : List Char}
    (member : piece ∈ piecesChars cs) :
    (∀ line ∈ piecesChars (p.replacePiece replacement.toList piece),
        p.changes replacement.toList (cutPiece line).1 = false) ↔
      (p.isMatch (bodyOf (String.ofList piece)) = true →
        ∀ line ∈ pieces (replacement ++ endOf (String.ofList piece)), p.isMatch (bodyOf line) = false) := by
  have body : p.isMatch (bodyOf (String.ofList piece)) = p.changes replacement.toList (cutPiece piece).1 := by
    rw [changes_of_several several (cutPiece_single member), bodyOf, String.toList_ofList]
  rw [body]
  cases change : p.changes replacement.toList (cutPiece piece).1 with
  | false =>
    have kept : p.replacePiece replacement.toList piece = piece := by
      unfold replacePiece
      dsimp only
      rw [change, if_neg Bool.false_ne_true, cutPiece_joined member]
    refine iff_of_true (fun line among => ?_) (fun matched => by cases matched)
    rw [kept, piecesChars_piece member, List.mem_singleton] at among
    rwa [among]
  | true =>
    have given : p.replacePiece replacement.toList piece = (replacement ++ endOf (String.ofList piece)).toList := by
      unfold replacePiece
      dsimp only
      rw [change, if_pos rfl, String.toList_append, endOf, String.toList_ofList, String.toList_ofList]
    rw [given, forall_prop_of_true rfl, pieces, List.forall_mem_map]
    refine forall₂_congr fun line among => ?_
    rw [changes_of_several several (cutPiece_single among), bodyOf, String.toList_ofList]

theorem replaceLines?_again_iff {text : String} (replaced : p.replaceLines? replacement content = some text) :
    p.replaceLines? replacement text = none ↔ SingleLine replacement ∨ p.Inert replacement content := by
  by_cases single : SingleLine replacement
  · exact iff_of_true (replaceLines?_settled single replaced) (Or.inl single)
  · have left := p.replaceLines?_getD replacement content
    rw [replaced, Option.getD_some] at left
    rw [or_iff_right single, replaceLines?_eq_none_iff, left, piecesChars_flatMap (p.replacePiece_closed _)]
    unfold Inert
    rw [pieces, List.forall_mem_map, List.forall_mem_flatMap]
    exact forall₂_congr fun piece member => replacePiece_settled_iff single member

end Pattern

def Host.ReadsBack (host : Host σ) (path : String) (m : σ) : Prop :=
  ∀ text, (host.answer (.write path text) m).1 = .ok () →
    (host.answer (.read path) (host.answer (.write path text) m).2).1 = .ok (some text)

namespace LineEdit

variable {host : Host σ} {w last : World σ} {e : LineEdit} {p : Pattern}
  {path pattern replacement content detail : String}

theorem accepted_replacement {x : LineReplacement} (replacing : e.replace = some x) (accepted : e.problem? = none) :
    ∃ path p, e.path = some path ∧ Pattern.parse x.pattern = .ok p := by
  unfold problem? at accepted
  rw [replacing] at accepted
  dsimp only at accepted
  cases here : e.path with
  | none =>
    rw [here] at accepted
    cases accepted
  | some path =>
    cases parsed : Pattern.parse x.pattern with
    | ok p => exact ⟨path, p, rfl, rfl⟩
    | error m =>
      rw [here, parsed] at accepted
      dsimp only [Option.isNone] at accepted
      rw [if_neg Bool.false_ne_true] at accepted
      split at accepted <;> cases accepted

theorem check_replace (here : e.path = some path) (replacing : e.replace = some ⟨pattern, replacement⟩)
    (parsed : Pattern.parse pattern = .ok p) (read : (host.answer (.read path) w.machine).1 = .ok (some content)) :
    (w.run (e.check host).run).1 = .ok .inSync ↔ p.replaceLines? replacement content = none := by
  unfold check checkReplace
  rw [replacing, here]
  dsimp only
  rw [World.try_bind, run_parsePattern parsed]
  dsimp only
  rw [World.try_bind, readFile_eq read]
  dsimp only [Option.getD_some]
  cases p.replaceLines? replacement content with
  | none => exact iff_of_true rfl rfl
  | some text =>
    refine iff_of_false (fun same => ?_) (by simp)
    cases same

theorem apply_replace (here : e.path = some path) (replacing : e.replace = some ⟨pattern, replacement⟩)
    (parsed : Pattern.parse pattern = .ok p) (read : (host.answer (.read path) w.machine).1 = .ok (some content)) :
    (w.run (e.apply host).run).1 = .ok .unchanged ↔ p.replaceLines? replacement content = none := by
  rw [run_replace here replacing parsed read]
  cases p.replaceLines? replacement content with
  | none => exact iff_of_true rfl rfl
  | some text =>
    refine iff_of_false (fun same => ?_) (by simp)
    dsimp only at same
    cases answered : (host.answer (.write path text) (w.after host (.read path)).machine).1 <;>
      rw [answered] at same <;> cases same

/-- An edit that tells of a change wrote the text with its lines replaced. -/
theorem wrote_of_converged (here : e.path = some path) (replacing : e.replace = some ⟨pattern, replacement⟩)
    (parsed : Pattern.parse pattern = .ok p) (ran : w.run (e.apply host).run = (.ok (.converged detail), last)) :
    ∃ content text, (host.answer (.read path) w.machine).1 = .ok (some content) ∧
      p.replaceLines? replacement content = some text ∧
      (host.answer (.write path text) (w.after host (.read path)).machine).1 = .ok () ∧
      last = (w.after host (.read path)).after host (.write path text) := by
  unfold apply applyReplace at ran
  rw [replacing, here] at ran
  dsimp only at ran
  rw [World.try_bind, run_parsePattern parsed] at ran
  obtain ⟨content?, next, looked, rest⟩ := World.try_bind_eq_ok.mp ran
  obtain ⟨read, (rfl : World.after host _ _ = _)⟩ := Prod.mk.inj (World.try_ofReply_eq_ok.mp looked)
  cases replaced : content?.bind (p.replaceLines? replacement) with
  | none =>
    rw [replaced] at rest
    cases rest
  | some text =>
    rw [replaced] at rest
    obtain ⟨⟨⟩, next, done, rest⟩ := World.try_bind_eq_ok.mp rest
    obtain ⟨wrote, (rfl : World.after host _ _ = _)⟩ := Prod.mk.inj (World.try_ofReply_eq_ok.mp done)
    obtain ⟨content, rfl, given⟩ := Option.bind_eq_some_iff.mp replaced
    cases rest
    exact ⟨content, text, read, given, wrote, rfl⟩

/-- A replacement is settled by one pass just if it is a single line, or none of its lines matches where it stands. -/
theorem replaced_again_iff {x : LineReplacement} (replacing : e.replace = some x) (accepted : e.problem? = none) :
    ∃ path p, e.path = some path ∧ Pattern.parse x.pattern = .ok p ∧
      (∀ content text, p.replaceLines? x.replacement content = some text →
        (p.replaceLines? x.replacement text = none ↔
          SingleLine x.replacement ∨ p.Inert x.replacement content)) ∧
      ∀ (host : Host σ) (w last : World σ) detail, w.run (e.apply host).run = (.ok (.converged detail), last) →
        host.ReadsBack path (w.after host (.read path)).machine →
        ∃ content, (host.answer (.read path) w.machine).1 = .ok (some content) ∧
          ((last.run (e.check host).run).1 = .ok .inSync ↔
            SingleLine x.replacement ∨ p.Inert x.replacement content) ∧
          ((last.run (e.apply host).run).1 = .ok .unchanged ↔
            SingleLine x.replacement ∨ p.Inert x.replacement content) := by
  obtain ⟨path, p, here, parsed⟩ := accepted_replacement replacing accepted
  refine ⟨path, p, here, parsed, fun content text => Pattern.replaceLines?_again_iff, ?_⟩
  intro host w last detail ran back
  obtain ⟨content, text, read, given, wrote, rfl⟩ := wrote_of_converged here replacing parsed ran
  have again := Pattern.replaceLines?_again_iff given
  have reread := back text wrote
  refine ⟨content, read, ?_, ?_⟩
  · exact (check_replace here replacing parsed reread).trans again
  · exact (apply_replace here replacing parsed reread).trans again

end LineEdit

def portLines (replacement : String) : LineEdit := { path := some "/f", replace := some ⟨"^PORT=80$", replacement⟩ }

theorem portWorld_readsBack (content : String) :
    Machine.host.ReadsBack "/f" ((portWorld content).after Machine.host (.read "/f")).machine := fun _ _ => rfl

theorem replaced_again_iff_several :
    (portLines "HOST=a\nPORT=81").replace = some ⟨"^PORT=80$", "HOST=a\nPORT=81"⟩ ∧
      (portLines "HOST=a\nPORT=81").problem? = none ∧ portPattern.Inert "HOST=a\nPORT=81" "PORT=80\n" ∧
      ∃ detail last,
        (portWorld "PORT=80\n").run ((portLines "HOST=a\nPORT=81").apply Machine.host).run =
          (.ok (.converged detail), last) ∧
        (last.run ((portLines "HOST=a\nPORT=81").check Machine.host).run).1 = .ok .inSync ∧
        (last.run ((portLines "HOST=a\nPORT=81").apply Machine.host).run).1 = .ok .unchanged := by
  have accepted : (portLines "HOST=a\nPORT=81").problem? = none := by decide +kernel
  have inert : portPattern.Inert "HOST=a\nPORT=81" "PORT=80\n" := by decide +kernel
  have given : portPattern.replaceLines? "HOST=a\nPORT=81" "PORT=80\n" = some "HOST=a\nPORT=81\n" := by decide +kernel
  have read : (Machine.host.answer (.read "/f") (portWorld "PORT=80\n").machine).1 = .ok (some "PORT=80\n") := rfl
  have ran := LineEdit.run_replace (e := portLines "HOST=a\nPORT=81") rfl rfl portPattern_parsed read
  rw [given] at ran
  obtain ⟨path, p, here, parsed, -, passes⟩ := LineEdit.replaced_again_iff (σ := Machine) rfl accepted
  obtain rfl : "/f" = path := Option.some.inj here
  obtain rfl : portPattern = p := Except.ok.inj (portPattern_parsed.symm.trans parsed)
  obtain ⟨content, reads, inSync, unchanged⟩ := passes _ _ _ _ ran (portWorld_readsBack _)
  obtain rfl : "PORT=80\n" = content := Option.some.inj (Except.ok.inj (read.symm.trans reads))
  exact ⟨rfl, accepted, inert, _, _, ran, inSync.mpr (Or.inr inert), unchanged.mpr (Or.inr inert)⟩

/-- The line that the replacement keeps matches again, and each pass adds the other line once more. -/
theorem replacement_grows :
    (portLines "PORT=80\nHOST=a").problem? = none ∧
      portPattern.replaceLines? "PORT=80\nHOST=a" "PORT=80\n" = some "PORT=80\nHOST=a\n" ∧
      portPattern.replaceLines? "PORT=80\nHOST=a" "PORT=80\nHOST=a\n" = some "PORT=80\nHOST=a\nHOST=a\n" ∧
      ∃ detail last again,
        (portWorld "PORT=80\n").run ((portLines "PORT=80\nHOST=a").apply Machine.host).run =
          (.ok (.converged detail), last) ∧
        (last.run ((portLines "PORT=80\nHOST=a").check Machine.host).run).1 ≠ .ok .inSync ∧
        last.run ((portLines "PORT=80\nHOST=a").apply Machine.host).run = (.ok (.converged detail), again) ∧
        (Machine.host.answer (.read "/f") again.machine).1 = .ok (some "PORT=80\nHOST=a\nHOST=a\n") := by
  have given : portPattern.replaceLines? "PORT=80\nHOST=a" "PORT=80\n" = some "PORT=80\nHOST=a\n" := by
    decide +kernel
  have again : portPattern.replaceLines? "PORT=80\nHOST=a" "PORT=80\nHOST=a\n" =
      some "PORT=80\nHOST=a\nHOST=a\n" := by decide +kernel
  have read : (Machine.host.answer (.read "/f") (portWorld "PORT=80\n").machine).1 = .ok (some "PORT=80\n") := rfl
  have ran := LineEdit.run_replace (e := portLines "PORT=80\nHOST=a") rfl rfl portPattern_parsed read
  rw [given] at ran
  have reread := portWorld_readsBack "PORT=80\n" "PORT=80\nHOST=a\n" rfl
  have rerun := LineEdit.run_replace (e := portLines "PORT=80\nHOST=a")
    (w := ((portWorld "PORT=80\n").after Machine.host (.read "/f")).after Machine.host
      (.write "/f" "PORT=80\nHOST=a\n")) rfl rfl portPattern_parsed reread
  rw [again] at rerun
  refine ⟨by decide +kernel, given, again, _, _, _, ran, fun inSync => ?_, rerun, rfl⟩
  have settled := (LineEdit.check_replace rfl rfl portPattern_parsed reread).mp inSync
  rw [again] at settled
  cases settled

end Provision
