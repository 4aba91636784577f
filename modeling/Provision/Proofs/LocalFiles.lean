import Provision.Local.Host
import Provision.Proofs.EncodedText
import Provision.Proofs.FileTrees
import Provision.Proofs.SiteStates

namespace Provision

def FileEntry.occupant : FileEntry → Occupant
  | .directory => .other
  | .file content _ => ((Text.decode? content).map .file).getD .other
  | .link target => .link target

theorem FileTree.textOf_iff {e : Option FileEntry} {found : Option String} :
    textOf e = .ok found ↔ e.map FileEntry.occupant = found.map .file := by
  rcases e with _ | (_ | ⟨content, mode⟩ | target)
  · cases found <;> simp [textOf]
  · cases found <;> simp [textOf, FileEntry.occupant]
  · cases decoded : Text.decode? content <;> cases found <;> simp [textOf, FileEntry.occupant, decoded]
  · cases found <;> simp [textOf, FileEntry.occupant]

namespace FileAction

variable {α β : Type} {base : Place} {path : String} {tree tree' : FileTree}

theorem bind_run (x : FileAction α) (f : α → FileAction β) (tree : FileTree) : (x >>= f).run tree =
    match x.run tree with
    | (.ok a, mid) => (f a).run mid
    | (.error e, mid) => (.error e, mid) := by
  have step : (x >>= f).run tree = ExceptT.bindCont f (x.run tree).1 (x.run tree).2 := rfl
  rw [step]
  rcases x.run tree with ⟨_ | a, mid⟩ <;> rfl

theorem bind_cases {x : FileAction α} {f : α → FileAction β} {r : Except Fault β} (ran : (x >>= f).run tree = (r, tree')) :
    (∃ e, x.run tree = (.error e, tree') ∧ r = .error e) ∨
      ∃ a mid, x.run tree = (.ok a, mid) ∧ (f a).run mid = (r, tree') := by
  rw [bind_run] at ran
  split at ran
  · rename_i a mid done
    exact .inr ⟨a, mid, done, ran⟩
  · rename_i e mid failed
    cases ran
    exact .inl ⟨e, failed, rfl⟩

theorem ask_eq {context : String} {question : FileTree → Except FileError α} {r : Except Fault α} :
    (ask context question).run tree = (r, tree') ↔ FileError.within context (question tree) = r ∧ tree' = tree :=
  ⟨fun asked => ⟨congrArg Prod.fst asked, (congrArg Prod.snd asked).symm⟩, fun ⟨answered, same⟩ => by
    subst answered same
    rfl⟩

theorem change_cases {context : String} {act : FileTree → Except FileError FileTree} {r : Except Fault Unit}
    (ran : (change context act).run tree = (r, tree')) :
    r = .ok () ∧ act tree = .ok tree' ∨ (∃ e, r = .error e) ∧ tree' = tree := by
  rcases bind_cases ran with ⟨e, failed, rfl⟩ | ⟨next, mid, asked, put⟩
  · exact .inr ⟨⟨e, rfl⟩, (ask_eq.mp failed).2⟩
  · cases put
    exact .inl ⟨rfl, mapError_eq_ok.mp (ask_eq.mp asked).1⟩

theorem readLink_run (base : Place) (path : String) (tree : FileTree) : (readLink base path).run tree =
    ((FileError.within ("Failed to stat " ++ path) (FileError.optional (tree.entry base false path))).map
      fun e => (e.map FileEntry.occupant).bind Occupant.target?, tree) := by
  have stat : (status base path).run tree =
    (FileError.within ("Failed to stat " ++ path) (FileError.optional (tree.entry base false path)), tree) := rfl
  rw [readLink, bind_run, stat]
  rcases FileError.within _ (FileError.optional (tree.entry base false path)) with e | (_ | (_ | ⟨content, mode⟩ | target))
  · rfl
  · rfl
  · rfl
  · simp only [Except.map, Option.map_some, FileEntry.occupant]
    cases Text.decode? content <;> rfl
  · rfl

def Settles (tree : FileTree) (place : Place) (wanted : Option Occupant) (answered : Except Fault Unit × FileTree) : Prop :=
  ∃ e, tree.Changes answered.2 place e ∧ e.map FileEntry.occupant =
    Files.outcome answered.1 wanted ((tree.at? place).map FileEntry.occupant)

theorem refused_settles {place : Place} {wanted : Option Occupant} {f : Fault} (grows : tree.Grows tree' place) :
    Settles tree place wanted (.error f, tree') :=
  ⟨_, grows, rfl⟩

section

variable (straight : Path.Straight path) (filled : Path.names path ≠ []) (rooted : tree.Rooted)
  (unlinked : tree.Unlinked [] (Path.names path))

include straight filled rooted unlinked

theorem ensureParent_grows {r : Except Fault Unit} (ran : (ensureParent base path).run tree = (r, tree')) :
    tree.Grows tree' (Path.names path) := by
  obtain ⟨up, above⟩ := Path.parent?_some straight.absolute filled
  obtain ⟨absolute, names⟩ := Path.parent?_names straight.absolute above
  have part : Path.names up <+: Path.names path := names ▸ List.dropLast_prefix _
  have shorter : Path.names up ≠ Path.names path := by
    intro same
    rw [same] at names
    have length := congrArg List.length names
    rw [List.length_dropLast] at length
    have := List.length_pos_of_ne_nil filled
    omega
  have given : ((Path.parent? path).filter (· ≠ "")).getD "." = up := by
    have named : up ≠ "" := by
      rintro rfl
      exact absurd absolute (by decide +kernel)
    simp [above, Option.filter, named]
  unfold ensureParent at ran
  rw [given] at ran
  rcases change_cases ran with ⟨-, made⟩ | ⟨-, rfl⟩
  · exact FileTree.makeDirectories_grows absolute (fun n member => straight.down n (part.subset member)) part shorter
      (fun _ => Path.isName_of_mem_names) unlinked made
  · exact .refl _ _

theorem write_settles (text : String) :
    Settles tree (Path.names path) (some (.file text)) ((write base path text).run tree) := by
  rcases ran : (write base path text).run tree with ⟨r, tree'⟩
  rcases bind_cases ran with ⟨e, failed, rfl⟩ | ⟨⟨⟩, grown, prepared, rest⟩
  · exact refused_settles (ensureParent_grows straight filled rooted unlinked failed)
  · have grows := ensureParent_grows straight filled rooted unlinked prepared
    rcases bind_cases rest with ⟨e, failed, rfl⟩ | ⟨existing, mid, asked, last⟩
    · obtain ⟨-, rfl⟩ := ask_eq.mp failed
      exact refused_settles grows
    · obtain ⟨-, rfl⟩ := ask_eq.mp asked
      rcases change_cases last with ⟨rfl, replaced⟩ | ⟨⟨e, rfl⟩, rfl⟩
      · have changes := FileTree.replace_changes straight (grows.rooted rooted)
          (grows.touches.unlinked (fun _ => Path.isName_of_mem_names) (fun _ => rfl) unlinked) replaced
        exact ⟨_, changes.after grows, by simp [Files.outcome, FileEntry.occupant, Text.decode?_encode]⟩
      · exact refused_settles grows

theorem symlink_settles (source : String) :
    Settles tree (Path.names path) (some (.link source)) ((symlink base source path).run tree) := by
  rcases ran : (symlink base source path).run tree with ⟨r, tree'⟩
  rcases bind_cases ran with ⟨e, failed, rfl⟩ | ⟨⟨⟩, grown, prepared, rest⟩
  · exact refused_settles (ensureParent_grows straight filled rooted unlinked failed)
  · have grows := ensureParent_grows straight filled rooted unlinked prepared
    rcases change_cases rest with ⟨rfl, made⟩ | ⟨⟨e, rfl⟩, rfl⟩
    · have changes := FileTree.makeLink_changes straight (grows.rooted rooted)
        (grows.touches.unlinked (fun _ => Path.isName_of_mem_names) (fun _ => rfl) unlinked) made
      exact ⟨_, changes.after grows, rfl⟩
    · exact refused_settles grows

omit filled in
theorem remove_settles : Settles tree (Path.names path) none ((remove base path).run tree) := by
  rcases ran : (remove base path).run tree with ⟨r, tree'⟩
  rcases bind_cases ran with ⟨e, failed, rfl⟩ | ⟨removed, mid, asked, rest⟩
  · obtain ⟨-, rfl⟩ := ask_eq.mp failed
    exact refused_settles (.refl _ _)
  · obtain ⟨answered, rfl⟩ := ask_eq.mp asked
    have changes := FileTree.remove_changes straight rooted unlinked (mapError_eq_ok.mp answered)
    cases removed <;> cases rest <;> exact ⟨none, changes, rfl⟩

omit filled in
theorem read_iff {found : Option String} (plain : ∀ target, tree.at? (Path.names path) ≠ some (.link target)) :
    ((read base path).run tree).1 = .ok found ↔ ¬ tree.Barred [] (Path.names path) ∧
      (tree.at? (Path.names path)).map FileEntry.occupant = found.map .file := by
  have asked : ((read base path).run tree).1 =
    FileError.within ("Failed to read " ++ path) (FileError.optional (tree.readText base path)) := rfl
  rw [asked]
  refine mapError_eq_ok.trans ?_
  rw [FileTree.optional_readText, bind_eq_ok]
  simp only [FileTree.entry_iff straight rooted unlinked true fun _ => plain, FileTree.textOf_iff]
  exact ⟨fun ⟨_, ⟨free, here⟩, holds⟩ => ⟨free, here ▸ holds⟩, fun ⟨free, holds⟩ => ⟨_, ⟨free, rfl⟩, holds⟩⟩

omit filled in
theorem readLink_iff {found : Option String} : ((readLink base path).run tree).1 = .ok found ↔
    ¬ tree.Barred [] (Path.names path) ∧
      ((tree.at? (Path.names path)).map FileEntry.occupant).bind Occupant.target? = found := by
  rw [readLink_run, map_eq_ok]
  simp only [FileError.within, mapError_eq_ok, FileTree.entry_iff straight rooted unlinked false nofun]
  exact ⟨fun ⟨_, ⟨free, here⟩, holds⟩ => ⟨free, here ▸ holds⟩, fun ⟨free, holds⟩ => ⟨_, ⟨free, rfl⟩, holds⟩⟩

end

end FileAction

structure Site.Fits (s : Site) (name : String) : Prop where
  config : Path.Straight (s.configPath name)
  link : Path.Straight (s.linkPath name)
  above : Path.isWithin (s.linkPath name) (s.configPath name) = false
  below : Path.isWithin (s.configPath name) (s.linkPath name) = false

namespace LocalSystem

open FileTree (IsPlace)

variable {m : LocalSystem} {s : Site} {name path : String} {tree : FileTree}

def holds (m : LocalSystem) : Files := fun path =>
  if Path.isAbsolute path then (m.tree.at? (Path.names path)).map FileEntry.occupant else none

/-- The tree without the two files of a site. -/
def bare (s : Site) (name : String) (tree : FileTree) : FileTree :=
  (tree.erase (Path.names (s.configPath name))).erase (Path.names (s.linkPath name))

/-- What there is stands in directories, no link is on the way to the files of the site, and its template can be read
without them. -/
structure Sound (m : LocalSystem) (s : Site) (name : String) : Prop where
  rooted : m.tree.Rooted
  base : IsPlace m.base
  config : m.tree.Unlinked [] (Path.names (s.configPath name))
  link : m.tree.Unlinked [] (Path.names (s.linkPath name))
  template : ∃ source, (bare s name m.tree).readText m.base (Path.join m.templates s.template) = .ok source

theorem answer_ofFiles {α : Type} (act : Place → FileAction α) (m : LocalSystem) : perform (Operation.ofFiles act) m =
    (((act m.base).run m.tree).1, { m with tree := ((act m.base).run m.tree).2 }) := rfl

theorem answer_readLink (m : LocalSystem) (path : String) : host.answer (.readLink path) m =
    (((FileAction.readLink m.base path).run m.tree).1,
      { m with tree := ((FileAction.readLink m.base path).run m.tree).2 }) :=
  answer_ofFiles (fun base => FileAction.readLink base path) m

theorem answer_write (m : LocalSystem) (path text : String) : host.answer (.write path text) m =
    (((FileAction.write m.base path text).run m.tree).1,
      { m with tree := ((FileAction.write m.base path text).run m.tree).2 }) :=
  answer_ofFiles (fun base => FileAction.write base path text) m

theorem answer_symlink (m : LocalSystem) (source path : String) : host.answer (.symlink source path) m =
    (((FileAction.symlink m.base source path).run m.tree).1,
      { m with tree := ((FileAction.symlink m.base source path).run m.tree).2 }) :=
  answer_ofFiles (fun base => FileAction.symlink base source path) m

theorem answer_remove (m : LocalSystem) (path : String) : host.answer (.remove path) m =
    (((FileAction.remove m.base path).run m.tree).1,
      { m with tree := ((FileAction.remove m.base path).run m.tree).2 }) :=
  answer_ofFiles (fun base => FileAction.remove base path) m

theorem answer_render (m : LocalSystem) (template : String) (context : Json) :
    host.answer (.render template context) m = (match m.tree.readText m.base (Path.join m.templates template) with
      | .error e => .error (e.fault.within ("Failed to read template " ++ Path.join m.templates template))
      | .ok source => Template.renderFile template source context, m) := by
  have step : ∀ f : LocalSystem → Operation String,
      ((getThe LocalSystem : Operation LocalSystem) >>= f).run m = (f m).run m := fun _ => rfl
  change (render template context).run m = _
  rw [render, step]
  dsimp only
  cases m.tree.readText m.base (Path.join m.templates template) <;> rfl

theorem answer_look {c : Call} (mayCall : s.MayCall name c) (looks : c.OnlyLooks) : (host.answer c m).2 = m := by
  rcases mayCall with (⟨context, rfl⟩ | rfl | ⟨contents, rfl⟩) | rfl | rfl | rfl
  · rw [answer_render]
  · rfl
  · cases looks.1
  · rw [answer_readLink, FileAction.readLink_run]
  · cases looks.1
  · cases looks.1

theorem holds_absolute (absolute : Path.isAbsolute path = true) (m : LocalSystem) :
    m.holds path = (m.tree.at? (Path.names path)).map FileEntry.occupant :=
  if_pos absolute

theorem unlinked_of_plain (absolute : Path.isAbsolute path = true) (plain : m.holds.Plain path) (target : String) :
    m.tree.at? (Path.names path) ≠ some (.link target) := by
  intro linked
  refine plain target ?_
  rw [holds_absolute absolute, linked]
  rfl

theorem answer_read_iff {found : Option String} (straight : Path.Straight path) (rooted : m.tree.Rooted)
    (unlinked : m.tree.Unlinked [] (Path.names path)) (plain : m.holds.Plain path) :
    (host.answer (.read path) m).1 = .ok found ↔
      ¬ m.tree.Barred [] (Path.names path) ∧ m.holds path = found.map .file := by
  rw [holds_absolute straight.absolute]
  exact FileAction.read_iff straight rooted unlinked (unlinked_of_plain straight.absolute plain)

theorem answer_readLink_iff {found : Option String} (straight : Path.Straight path) (rooted : m.tree.Rooted)
    (unlinked : m.tree.Unlinked [] (Path.names path)) : (host.answer (.readLink path) m).1 = .ok found ↔
      ¬ m.tree.Barred [] (Path.names path) ∧ (m.holds path).bind Occupant.target? = found := by
  rw [holds_absolute straight.absolute, answer_readLink]
  exact FileAction.readLink_iff straight rooted unlinked

theorem sets_of_settles (straight : Path.Straight path) {wanted : Option Occupant} {answered : Except Fault Unit × FileTree}
    (settled : FileAction.Settles m.tree (Path.names path) wanted answered) :
    m.holds.Sets ({ m with tree := answered.2 } : LocalSystem).holds path
      (Files.outcome answered.1 wanted (m.holds path)) := by
  obtain ⟨e, changes, held⟩ := settled
  refine ⟨?_, fun q aside => ?_⟩
  · rw [holds_absolute straight.absolute, holds_absolute straight.absolute, changes.here, held]
  · unfold holds at aside ⊢
    -- A relative path names nothing here, before and after.
    by_cases absolute : Path.isAbsolute q = true
    · obtain ⟨other, there⟩ := aside
      simp only [absolute, if_true] at there ⊢
      have apart : Path.names q ≠ Path.names path := by
        intro same
        rw [(Path.same_iff straight.absolute absolute).mpr same.symm] at other
        cases other
      rcases changes.touches _ (fun _ => Path.isName_of_mem_names) apart with same | ⟨vacant, -, part⟩
      · rw [same]
      · rw [← Path.isWithin_iff absolute straight.absolute] at part
        simp [vacant, part] at there
    · rw [if_neg absolute, if_neg absolute]

variable (fits : s.Fits name)

include fits

theorem config_filled : Path.names (s.configPath name) ≠ [] := by
  intro root
  have within := (Path.isWithin_iff fits.config.absolute fits.link.absolute).mpr (by rw [root]; exact List.nil_prefix)
  rw [fits.below] at within
  cases within

theorem link_filled : Path.names (s.linkPath name) ≠ [] := by
  intro root
  have within := (Path.isWithin_iff fits.link.absolute fits.config.absolute).mpr (by rw [root]; exact List.nil_prefix)
  rw [fits.above] at within
  cases within

theorem bare_at?_eq_some {q : Place} {e : FileEntry} (isPlace : IsPlace q) : (bare s name tree).at? q = some e ↔
    (q ≠ Path.names (s.configPath name) ∧ q ≠ Path.names (s.linkPath name)) ∧ tree.at? q = some e := by
  have names : ∀ {path}, IsPlace (Path.names path) := fun _ => Path.isName_of_mem_names
  unfold bare
  by_cases link : q = Path.names (s.linkPath name)
  · subst link
    rw [FileTree.at?_erase_self (link_filled fits)]
    simp
  · rw [FileTree.at?_erase_of_ne names isPlace link]
    by_cases config : q = Path.names (s.configPath name)
    · subst config
      rw [FileTree.at?_erase_self (config_filled fits)]
      simp
    · rw [FileTree.at?_erase_of_ne names isPlace config]
      simp [config, link]

theorem bare_extends : (bare s name tree).Extends tree := fun _ _ isPlace here => ((bare_at?_eq_some fits isPlace).mp here).2

section

variable {tree' : FileTree} {place : Place} {e : Option FileEntry}
  (own : place = Path.names (s.configPath name) ∨ place = Path.names (s.linkPath name))

include own

theorem apart_config (part : place <+: Path.names (s.configPath name)) : place = Path.names (s.configPath name) := by
  rcases own with rfl | rfl
  · rfl
  · have within := (Path.isWithin_iff fits.link.absolute fits.config.absolute).mpr part
    rw [fits.above] at within
    cases within

theorem apart_link (part : place <+: Path.names (s.linkPath name)) : place = Path.names (s.linkPath name) := by
  rcases own with rfl | rfl
  · have within := (Path.isWithin_iff fits.config.absolute fits.link.absolute).mpr part
    rw [fits.below] at within
    cases within
  · rfl

theorem bare_changed (changes : tree.Changes tree' place e) : (bare s name tree).Extends (bare s name tree') := by
  intro q e isPlace here
  obtain ⟨other, held⟩ := (bare_at?_eq_some fits isPlace).mp here
  have apart : q ≠ place := by
    rcases own with rfl | rfl
    · exact other.1
    · exact other.2
  refine (bare_at?_eq_some fits isPlace).mpr ⟨other, ?_⟩
  rcases changes.touches q isPlace apart with same | ⟨vacant, -, -⟩
  · exact same.trans held
  · rw [held] at vacant
    cases vacant

theorem Sound.changed (sound : m.Sound s name) (changes : m.tree.Changes tree' place e) :
    ({ m with tree := tree' } : LocalSystem).Sound s name where
  rooted := changes.rooted sound.rooted
  base := sound.base
  config := changes.touches.unlinked (fun _ => Path.isName_of_mem_names) (apart_config fits own) sound.config
  link := changes.touches.unlinked (fun _ => Path.isName_of_mem_names) (apart_link fits own) sound.link
  template := by
    obtain ⟨source, read⟩ := sound.template
    exact ⟨source, FileTree.readText_extends (bare_changed fits own changes) sound.base read⟩

end

theorem config_kept {tree' : FileTree} {e : Option FileEntry}
    (changes : tree.Changes tree' (Path.names (s.linkPath name)) e) :
    tree'.at? (Path.names (s.configPath name)) = tree.at? (Path.names (s.configPath name)) := by
  have apart : ¬ Path.names (s.configPath name) <+: Path.names (s.linkPath name) := by
    rw [← Path.isWithin_iff fits.config.absolute fits.link.absolute, fits.below]
    exact Bool.false_ne_true
  have other : Path.names (s.configPath name) ≠ Path.names (s.linkPath name) := by
    intro same
    rw [same] at apart
    exact apart List.prefix_rfl
  rcases changes.touches _ (fun _ => Path.isName_of_mem_names) other with same | ⟨-, -, part⟩
  · exact same
  · exact absurd part apart

theorem settles_of_mayCall {c : Call} (sound : m.Sound s name) (mayCall : s.MayCall name c) :
    (host.answer c m).2 = m ∨ ∃ place wanted answered,
      (host.answer c m).2 = { m with tree := answered.2 } ∧ FileAction.Settles m.tree place wanted answered ∧
        (place = Path.names (s.configPath name) ∧ (∃ text, wanted = some (.file text)) ∨
          place = Path.names (s.linkPath name)) := by
  by_cases looks : c.OnlyLooks
  · exact .inl (answer_look mayCall looks)
  · -- Three calls of a site look, one writes its configuration and two act on its link.
    rcases mayCall with (⟨context, rfl⟩ | rfl | ⟨text, rfl⟩) | rfl | rfl | rfl
    · exact absurd ⟨rfl, rfl⟩ looks
    · exact absurd ⟨rfl, rfl⟩ looks
    · rw [answer_write]
      exact .inr ⟨_, _, _, rfl,
        FileAction.write_settles fits.config (config_filled fits) sound.rooted sound.config text, .inl ⟨rfl, text, rfl⟩⟩
    · exact absurd ⟨rfl, rfl⟩ looks
    · rw [answer_symlink]
      exact .inr ⟨_, _, _, rfl,
        FileAction.symlink_settles fits.link (link_filled fits) sound.rooted sound.link _, .inr rfl⟩
    · rw [answer_remove]
      exact .inr ⟨_, _, _, rfl, FileAction.remove_settles fits.link sound.rooted sound.link, .inr rfl⟩

theorem sound_after {c : Call} (sound : m.Sound s name) (mayCall : s.MayCall name c) :
    (host.answer c m).2.Sound s name := by
  rcases settles_of_mayCall fits sound mayCall with same | ⟨place, wanted, answered, after, ⟨e, changes, -⟩, own⟩
  · rw [same]
    exact sound
  · rw [after]
    exact sound.changed fits (own.imp_left And.left) changes

theorem readable_after {c : Call} (sound : m.Sound s name) (plain : m.holds.Plain (s.configPath name))
    (mayCall : s.MayCall name c) (readable : ∃ found, (host.answer (.read (s.configPath name)) m).1 = .ok found) :
    ∃ found, (host.answer (.read (s.configPath name)) (host.answer c m).2).1 = .ok found := by
  have later := sound_after fits sound mayCall
  rcases settles_of_mayCall fits sound mayCall with same | ⟨place, wanted, ⟨reply, tree'⟩, after, ⟨e, changes, held⟩, own⟩
  · rw [same]
    exact readable
  · rw [after] at later ⊢
    obtain ⟨found, read⟩ := readable
    obtain ⟨free, file⟩ := (answer_read_iff fits.config sound.rooted sound.config plain).mp read
    -- A write leaves its text or, refused, what was there; the link is another path.
    obtain ⟨text, now⟩ : ∃ text : Option String,
        ({ m with tree := tree' } : LocalSystem).holds (s.configPath name) = text.map .file := by
      rw [holds_absolute fits.config.absolute] at file ⊢
      rcases own with ⟨rfl, text, rfl⟩ | rfl
      · rw [changes.here, held]
        cases reply with
        | ok done => exact ⟨some text, rfl⟩
        | error fault => exact ⟨found, file⟩
      · exact ⟨found, by rw [config_kept fits changes, file]⟩
    have plain' : ({ m with tree := tree' } : LocalSystem).holds.Plain (s.configPath name) := by
      intro target linked
      rw [now] at linked
      cases text <;> cases linked
    refine ⟨_, (answer_read_iff fits.config later.rooted later.config plain').mpr ⟨fun barred => free ?_, now⟩⟩
    exact changes.touches.barred (fun _ => Path.isName_of_mem_names) (apart_config fits (own.imp_left And.left)) barred

theorem linkReadable_after {c : Call} (sound : m.Sound s name) (mayCall : s.MayCall name c)
    (readable : ∃ found, (host.answer (.readLink (s.linkPath name)) m).1 = .ok found) :
    ∃ found, (host.answer (.readLink (s.linkPath name)) (host.answer c m).2).1 = .ok found := by
  have later := sound_after fits sound mayCall
  rcases settles_of_mayCall fits sound mayCall with same | ⟨place, wanted, answered, after, ⟨e, changes, -⟩, own⟩
  · rw [same]
    exact readable
  · rw [after] at later ⊢
    obtain ⟨found, read⟩ := readable
    have free := ((answer_readLink_iff fits.link sound.rooted sound.link).mp read).1
    exact ⟨_, (answer_readLink_iff fits.link later.rooted later.link).mpr ⟨fun barred => free
      (changes.touches.barred (fun _ => Path.isName_of_mem_names) (apart_link fits (own.imp_left And.left)) barred), rfl⟩⟩

theorem render_after {c : Call} (context : Json) (sound : m.Sound s name) (mayCall : s.MayCall name c) :
    (host.answer (.render s.template context) (host.answer c m).2).1 =
      (host.answer (.render s.template context) m).1 := by
  rcases settles_of_mayCall fits sound mayCall with same | ⟨place, wanted, answered, after, ⟨e, changes, -⟩, own⟩
  · rw [same]
  · -- The template is read in the tree without the files of the site, which no call changes.
    obtain ⟨source, read⟩ := sound.template
    have before := FileTree.readText_extends (bare_extends fits) sound.base read
    have later := FileTree.readText_extends (bare_extends fits) sound.base
      (FileTree.readText_extends (bare_changed fits (own.imp_left And.left) changes) sound.base read)
    rw [after, answer_render, answer_render, before, later]

def view : FileView host s name where
  files := holds
  Sound m := m.Sound s name
  look := by
    intro m c sound mayCall looks
    rw [answer_look mayCall looks]
    exact ⟨sound, rfl⟩
  read := fun m found sound plain read => ((answer_read_iff fits.config sound.rooted sound.config plain).mp read).2
  readLink := fun m found sound read => ((answer_readLink_iff fits.link sound.rooted sound.link).mp read).2.symm
  write := by
    intro m text sound _
    refine ⟨sound_after fits sound (.inl (.inr (.inr ⟨text, rfl⟩))), ?_⟩
    rw [answer_write]
    exact sets_of_settles fits.config
      (FileAction.write_settles fits.config (config_filled fits) sound.rooted sound.config text)
  symlink := by
    intro m sound
    refine ⟨sound_after fits sound (.inr (.inr (.inl rfl))), ?_⟩
    rw [answer_symlink]
    exact sets_of_settles fits.link
      (FileAction.symlink_settles fits.link (link_filled fits) sound.rooted sound.link _)
  remove := by
    intro m sound
    refine ⟨sound_after fits sound (.inr (.inr (.inr rfl))), ?_⟩
    rw [answer_remove]
    exact sets_of_settles fits.link (FileAction.remove_settles fits.link sound.rooted sound.link)
  readable := fun m c sound plain mayCall => readable_after fits sound plain mayCall
  linkReadable := fun m c sound mayCall => linkReadable_after fits sound mayCall
  render := fun m c context sound mayCall => render_after fits context sound mayCall

theorem view_files : (view fits).files = holds := rfl

/-- The action of a site that succeeds on the file system at hand settles it there. -/
theorem site_settles {w last : World LocalSystem} {change : Change} (sound : w.machine.Sound s name)
    (plain : w.machine.holds.Plain (s.configPath name)) (ran : w.run (s.apply host name).run = (.ok change, last)) :
    (∃ text, s.rendered host name w = .ok text ∧ last.machine.holds (s.configPath name) = some (.file text)) ∧
      last.machine.holds (s.linkPath name) = s.linked name (w.machine.holds (s.linkPath name)) ∧
      (∃ seen, last.run (s.check host name).run = (.ok .inSync, seen)) ∧
      ∃ again, last.run (s.apply host name).run = (.ok .unchanged, again) := by
  obtain ⟨rest, rendered, link⟩ := Site.apply_atRest (view fits) fits.above sound plain ran
  obtain ⟨text, told, content⟩ := rest.config
  obtain ⟨seen, checked, -⟩ := rest.check
  rw [view_files] at content link
  exact ⟨⟨text, rendered.symm.trans told, content⟩, link, ⟨seen, checked⟩, rest.apply⟩

end LocalSystem

def shopDirectories : List (String × FileEntry) :=
  ["etc", "etc/apache2", "etc/apache2/sites-available", "etc/apache2/sites-enabled"].map (·, .directory)

def shopDisk : LocalSystem where
  tree := ⟨shopDirectories ++ [("templates", .directory), ("templates/web_app.conf.j2", .file [] FileTree.newMode)]⟩
  base := []
  user := "root"
  users := ["root"]
  groups := ["root"]
  programs := fun _ _ _ => none
  templates := "/templates"

theorem shopDisk_sound : (shopSite true).Fits "shop" ∧ shopDisk.Sound (shopSite true) "shop" := by
  have fits : (shopSite true).Fits "shop" := by constructor <;> decide +kernel
  have rooted : shopDisk.tree.Rooted := FileTree.rooted_of_entries (by decide +kernel)
  have bare : (LocalSystem.bare (shopSite true) "shop" shopDisk.tree).Rooted :=
    FileTree.rooted_of_entries (by decide +kernel)
  have available :
      Path.names ((shopSite true).configPath "shop") = ["etc", "apache2", "sites-available"] ++ ["shop.conf"] := by
    decide +kernel
  have enabled :
      Path.names ((shopSite true).linkPath "shop") = ["etc", "apache2", "sites-enabled"] ++ ["shop.conf"] := by
    decide +kernel
  have template : Path.names "/templates/web_app.conf.j2" = ["templates"] ++ ["web_app.conf.j2"] := by decide +kernel
  refine ⟨fits, rooted, nofun, ?_, ?_, "", ?_⟩
  · rw [available]
    exact rooted.unlinked (by decide +kernel) (by decide +kernel)
  · rw [enabled]
    exact rooted.unlinked (by decide +kernel) (by decide +kernel)
  · have path : Path.join shopDisk.templates (shopSite true).template = "/templates/web_app.conf.j2" := by decide +kernel
    have file : (LocalSystem.bare (shopSite true) "shop" shopDisk.tree).at? (Path.names "/templates/web_app.conf.j2") =
        some (.file [] FileTree.newMode) := by
      rw [template]
      decide +kernel
    rw [path]
    exact FileTree.readText_of_file (by decide +kernel) bare file rfl

end Provision
