import Provision.Proofs.FileViews
import Provision.Proofs.Standstill

namespace Provision

variable {σ : Type}

theorem Path.isWithin_of_same {p q : String} (same : Path.same p q = true) : Path.isWithin p q = true := by
  have components : Path.components p = Path.components q := eq_of_beq same
  simp [isWithin, components]

theorem Path.same_comm (p q : String) : Path.same p q = Path.same q p := Bool.beq_comm

namespace Site

variable (s : Site) (name : String)

/-- Another path than the two of the site, and no missing directory on the way to one of them. -/
def Aside (f : Files) (q : String) : Prop := f.Aside (s.configPath name) q ∧ f.Aside (s.linkPath name) q

/-- What the link path holds in the end. -/
def linked : Option Occupant → Option Occupant
  | some (.link target) => match s.enabled with
    | true => some (.link (if Path.same target (s.configPath name) then target else s.configPath name))
    | false => none
  | e => match s.enabled with
    | true => some (.link (s.configPath name))
    | false => e

/-- What the files come to on the way. -/
structure Approaches (f g : Files) : Prop where
  plain : g.Plain (s.configPath name)
  link : s.linked name (g (s.linkPath name)) = s.linked name (f (s.linkPath name))
  aside : ∀ q, s.Aside name f q → g q = f q

variable {host : Host σ}

/-- What a state comes to on the way. -/
structure Nears (view : FileView host s name) (m n : σ) : Prop where
  sound : view.Sound n
  files : (view.files m).Plain (s.configPath name) → s.Approaches name (view.files m) (view.files n)
  readable : (view.files m).Plain (s.configPath name) →
    (∃ found, (host.answer (.read (s.configPath name)) m).1 = .ok found) →
      ∃ found, (host.answer (.read (s.configPath name)) n).1 = .ok found
  linkReadable : (∃ found, (host.answer (.readLink (s.linkPath name)) m).1 = .ok found) →
    ∃ found, (host.answer (.readLink (s.linkPath name)) n).1 = .ok found
  render : ∀ context,
    (host.answer (.render s.template context) n).1 = (host.answer (.render s.template context) m).1

end Site

section

variable {host : Host σ} {s : Site} {name : String} {view : FileView host s name} {f g h : Files} {m n o : σ}

namespace Site

theorem linked_linked (e : Option Occupant) : s.linked name (s.linked name e) = s.linked name e := by
  have same : Path.same (s.configPath name) (s.configPath name) = true := beq_self_eq_true _
  cases enabled : s.enabled with
  | true =>
    rcases e with _ | (_ | target | _)
    case some.link =>
      by_cases correct : Path.same target (s.configPath name) = true <;> simp [linked, enabled, correct, same]
    all_goals simp [linked, enabled, same]
  | false =>
    rcases e with _ | (_ | _ | _) <;> simp [linked, enabled]

theorem Approaches.refl (plain : f.Plain (s.configPath name)) : s.Approaches name f f := ⟨plain, rfl, fun _ _ => rfl⟩

theorem Approaches.trans (first : s.Approaches name f g) (second : s.Approaches name g h) : s.Approaches name f h where
  plain := second.plain
  link := second.link.trans first.link
  aside := by
    intro q aside
    have same := first.aside q aside
    exact (second.aside q ⟨aside.1.kept same, aside.2.kept same⟩).trans same

theorem Nears.refl (sound : view.Sound m) : s.Nears name view m m := ⟨sound, .refl, fun _ => id, id, fun _ => rfl⟩

theorem Nears.trans (first : s.Nears name view m n) (second : s.Nears name view n o) : s.Nears name view m o where
  sound := second.sound
  files := fun plain => (first.files plain).trans (second.files (first.files plain).plain)
  readable := fun plain => second.readable (first.files plain).plain ∘ first.readable plain
  linkReadable := second.linkReadable ∘ first.linkReadable
  render := fun context => (second.render context).trans (first.render context)

theorem Nears.call {c : Call} (sound : view.Sound m) (mayCall : s.MayCall name c)
    (lasting : view.Sound (host.answer c m).2) (files : (view.files m).Plain (s.configPath name) →
      s.Approaches name (view.files m) (view.files (host.answer c m).2)) :
    s.Nears name view m (host.answer c m).2 where
  sound := lasting
  files := files
  readable := fun plain => view.readable m c sound plain mayCall
  linkReadable := view.linkReadable m c sound mayCall
  render := fun context => view.render m c context sound mayCall

theorem Nears.look {c : Call} (sound : view.Sound m) (mayCall : s.MayCall name c) (looks : c.OnlyLooks) :
    s.Nears name view m (host.answer c m).2 := by
  obtain ⟨lasting, same⟩ := view.look m c sound mayCall looks
  refine Nears.call sound mayCall lasting fun plain => ?_
  rw [same]
  exact .refl plain

theorem nears_of_looks {w last : World σ} (made : Made host (fun c => s.MayCall name c ∧ c.OnlyLooks) w last)
    (sound : view.Sound w.machine) :
    s.Nears name view w.machine last.machine ∧ view.files last.machine = view.files w.machine := by
  obtain ⟨calls, -, leads, each⟩ := made.calls
  rw [leads]
  clear made leads
  generalize w.machine = m at sound ⊢
  induction calls generalizing m with
  | nil => exact ⟨.refl sound, rfl⟩
  | cons c rest ih =>
    obtain ⟨mayCall, looks⟩ := each c List.mem_cons_self
    obtain ⟨lasting, same⟩ := view.look m c sound mayCall looks
    obtain ⟨later, kept⟩ := ih (fun c member => each c (List.mem_cons_of_mem _ member)) _ lasting
    exact ⟨(Nears.look sound mayCall looks).trans later, kept.trans same⟩

def Apart (s : Site) (name : String) : Prop := Path.isWithin (s.linkPath name) (s.configPath name) = false

theorem Apart.same (apart : s.Apart name) : Path.same (s.linkPath name) (s.configPath name) = false := by
  rw [← Bool.not_eq_true]
  intro same
  exact absurd (Path.isWithin_of_same same) (by rw [apart]; exact Bool.false_ne_true)

theorem Nears.write (apart : s.Apart name) (sound : view.Sound m) (plain : (view.files m).Plain (s.configPath name))
    (text : String) : s.Nears name view m (host.answer (.write (s.configPath name) text) m).2 := by
  obtain ⟨lasting, sets⟩ := view.write m text sound plain
  have link := sets.aside (s.linkPath name) ⟨(Path.same_comm _ _).trans apart.same, Or.inr apart⟩
  refine Nears.call sound (.inl (.inr (.inr ⟨text, rfl⟩))) lasting fun plain =>
    ⟨?_, by rw [link], fun q aside => sets.aside q aside.1⟩
  intro target linked
  rw [sets.here] at linked
  cases answered : (host.answer (.write (s.configPath name) text) m).1 with
  | ok done =>
    rw [answered] at linked
    cases linked
  | error fault =>
    rw [answered] at linked
    exact plain target linked

structure Links (s : Site) (name : String) (view : FileView host s name) (m n : σ) (e : Option Occupant) (done : Prop) :
    Prop where
  nears : s.Nears name view m n
  config : view.files n (s.configPath name) = view.files m (s.configPath name)
  link : done → view.files n (s.linkPath name) = e

theorem Links.after {e e' : Option Occupant} {done done' : Prop} (first : s.Links name view m n e done)
    (second : s.Links name view n o e' done') : s.Links name view m o e' done' where
  nears := first.nears.trans second.nears
  config := second.config.trans first.config
  link := second.link

theorem Links.call {c : Call} {e : Option Occupant} {reply : Except Fault Unit} (apart : s.Apart name)
    (sound : view.Sound m) (present : view.files m (s.configPath name) ≠ none) (mayLink : s.MayLink name c)
    (places : view.Sound (host.answer c m).2 ∧ (view.files m).Sets (view.files (host.answer c m).2) (s.linkPath name)
      (Files.outcome reply e (view.files m (s.linkPath name))))
    (same : s.linked name e = s.linked name (view.files m (s.linkPath name))) :
    s.Links name view m (host.answer c m).2 e (reply = .ok ()) := by
  obtain ⟨lasting, sets⟩ := places
  have config := sets.aside _ ⟨apart.same, Or.inl present⟩
  have kept : s.linked name (Files.outcome reply e (view.files m (s.linkPath name))) =
      s.linked name (view.files m (s.linkPath name)) := by
    cases reply with
    | ok done => exact same
    | error fault => rfl
  refine ⟨Nears.call sound (.inr (.inr mayLink)) lasting fun plain => ⟨?_, ?_, ?_⟩, config, ?_⟩
  · unfold Files.Plain
    rw [config]
    exact plain
  · rw [sets.here, kept]
  · exact fun q aside => sets.aside q aside.2
  · rintro rfl
    exact sets.here

theorem Links.symlink (apart : s.Apart name) (sound : view.Sound m)
    (present : view.files m (s.configPath name) ≠ none)
    (same : s.linked name (some (.link (s.configPath name))) = s.linked name (view.files m (s.linkPath name))) :
    s.Links name view m (host.answer (.symlink (s.configPath name) (s.linkPath name)) m).2
      (some (.link (s.configPath name)))
      ((host.answer (.symlink (s.configPath name) (s.linkPath name)) m).1 = .ok ()) :=
  Links.call apart sound present (.inl rfl) (view.symlink m sound) same

theorem Links.remove (apart : s.Apart name) (sound : view.Sound m) (present : view.files m (s.configPath name) ≠ none)
    (same : s.linked name none = s.linked name (view.files m (s.linkPath name))) :
    s.Links name view m (host.answer (.remove (s.linkPath name)) m).2 none
      ((host.answer (.remove (s.linkPath name)) m).1 = .ok ()) :=
  Links.call apart sound present (.inr rfl) (view.remove m sound) same

theorem linked_missing {e : Option Occupant} (missing : e.bind Occupant.target? = none) :
    s.linked name e = match s.enabled with
      | true => some (.link (s.configPath name))
      | false => e := by
  rcases e with _ | (_ | target | _)
  case some.link => cases missing
  all_goals rfl

theorem held_link {e : Option Occupant} {target : String} (held : e.bind Occupant.target? = some target) :
    e = some (.link target) := by
  rcases e with _ | (_ | target | _) <;> cases held
  rfl

theorem linked_config (s : Site) (name : String) : s.linked name (some (.link (s.configPath name))) = match s.enabled with
    | true => some (.link (s.configPath name))
    | false => none := by
  have same : Path.same (s.configPath name) (s.configPath name) = true := beq_self_eq_true _
  simp [linked, same]

theorem Links.mono {e : Option Occupant} {done done' : Prop} (links : s.Links name view m n e done)
    (weaker : done' → done) : s.Links name view m n e done' :=
  ⟨links.nears, links.config, links.link ∘ weaker⟩

theorem Links.told {w last : World σ} {x : StateM (World σ) (Except Fault Unit)} {e : Option Occupant}
    {reply : Except Error (List String)} {told : List String}
    (links : s.Links name view w.machine (w.run x).2.machine e ((w.run x).1 = .ok ()))
    (ran : w.run (Action.ofReply x >>= fun _ => pure told).run = (reply, last)) :
    s.Links name view w.machine last.machine e (∃ changes, reply = .ok changes) := by
  obtain ⟨rfl, answered⟩ := World.try_ofReply_then ran
  refine ⟨links.nears, links.config, ?_⟩
  rintro ⟨changes, done⟩
  exact links.link (answered changes done).choose_spec

/-- A link that leads elsewhere is removed and set anew; if only the first succeeds, nothing is there. -/
theorem repoint_links {w last : World σ} {reply : Except Error (List String)} {told : List String}
    (apart : s.Apart name) (sound : view.Sound w.machine) (present : view.files w.machine (s.configPath name) ≠ none)
    (enabled : s.enabled = true)
    (same : s.linked name (view.files w.machine (s.linkPath name)) = some (.link (s.configPath name)))
    (ran : w.run (do
      Action.ofReply (perform host (.remove (s.linkPath name)))
      Action.ofReply (perform host (.symlink (s.configPath name) (s.linkPath name)))
      return told : Action σ (List String)).run = (reply, last)) :
    s.Links name view w.machine last.machine (some (.link (s.configPath name))) (∃ changes, reply = .ok changes) := by
  have nothing : s.linked name none = some (.link (s.configPath name)) := by simp [linked, enabled]
  have removed := Links.remove apart sound present (nothing.trans same.symm)
  rcases World.try_bind_cases ran with ⟨e, refused, rfl⟩ | ⟨⟨⟩, next, done, rest⟩
  · obtain rfl : w.after host (.remove (s.linkPath name)) = last := congrArg Prod.snd refused
    exact ⟨removed.nears, removed.config, nofun⟩
  · obtain ⟨answered, (rfl : World.after host _ _ = _)⟩ := Prod.mk.inj (World.try_ofReply_eq_ok.mp done)
    refine removed.after ((Links.symlink apart removed.nears.sound ?_ ?_).told rest)
    · exact removed.config.symm ▸ present
    · have gone : view.files (host.answer (.remove (s.linkPath name)) w.machine).2 (s.linkPath name) = none :=
        removed.link answered
      rw [gone, nothing, linked_config, enabled]

theorem settleLink_links {w last : World σ} {reply : Except Error (List String)} {found : Option String}
    (apart : s.Apart name) (sound : view.Sound w.machine) (present : view.files w.machine (s.configPath name) ≠ none)
    (seen : found = (view.files w.machine (s.linkPath name)).bind Occupant.target?)
    (ran : w.run (s.settleLink host name (s.linkStateOf name found)).run = (reply, last)) :
    s.Links name view w.machine last.machine (s.linked name (view.files w.machine (s.linkPath name)))
      (∃ changes, reply = .ok changes) := by
  unfold settleLink at ran
  dsimp only at ran
  cases found with
  | none =>
    -- Nothing is at the link path, or something that is no link: the two are told apart by no call.
    have wanted : s.linked name (view.files w.machine (s.linkPath name)) = _ := linked_missing seen.symm
    cases enabled : s.enabled with
    | true =>
      simp only [linkStateOf, enabled] at ran wanted
      have same := s.linked_config name
      rw [enabled] at same
      rw [wanted]
      exact (Links.symlink apart sound present (same.trans wanted.symm)).told ran
    | false =>
      simp only [linkStateOf, enabled] at ran wanted
      cases ran
      exact ⟨.refl sound, rfl, fun _ => wanted.symm⟩
  | some target =>
    have held := held_link seen.symm
    cases enabled : s.enabled <;> cases correct : Path.same target (s.configPath name) <;>
      simp only [linkStateOf, enabled, correct, if_true, Bool.false_eq_true, if_false] at ran
    case false.false | false.true =>
      have wanted : s.linked name (view.files w.machine (s.linkPath name)) = none := by simp [linked, held, enabled]
      have nothing : s.linked name none = none := by simp [linked, enabled]
      rw [wanted]
      exact (Links.remove apart sound present (nothing.trans wanted.symm)).told ran
    case true.false =>
      have wanted : s.linked name (view.files w.machine (s.linkPath name)) = some (.link (s.configPath name)) := by
        simp [linked, held, enabled, correct]
      rw [wanted]
      exact repoint_links apart sound present enabled wanted ran
    case true.true =>
      cases ran
      exact ⟨.refl sound, rfl, fun _ => by simp [linked, held, enabled, correct]⟩

def rendered (host : Host σ) (s : Site) (name : String) (w : World σ) : Except Fault String :=
  (host.answer (.render s.template (s.context name w.context.node)) w.machine).1

variable (view) in
theorem looks_nears {α : Type} {x : Action σ α} {w last : World σ} {reply : Except Error α}
    (looks : Bare host (fun c => s.MayCall name c ∧ c.OnlyLooks) x.run) (sound : view.Sound w.machine)
    (ran : w.run x.run = (reply, last)) :
    s.Nears name view w.machine last.machine ∧ view.files last.machine = view.files w.machine :=
  nears_of_looks (looks.acts.made ran) sound

theorem render_ok {w next : World σ} {r : Rendering} (sound : view.Sound w.machine)
    (plain : (view.files w.machine).Plain (s.configPath name))
    (made : w.run (s.render host name).run = (.ok r, next)) :
    r.path = s.configPath name ∧ s.rendered host name w = .ok r.content ∧
      view.files w.machine (s.configPath name) = r.existing.map .file ∧
      ∃ found, (host.answer (.read (s.configPath name)) next.machine).1 = .ok found := by
  obtain ⟨context, here, got, made⟩ := World.try_bind_eq_ok.mp made
  cases got
  obtain ⟨content, existing, text, read, rfl, rfl⟩ := (Rendering.make_eq_ok host).mp made
  obtain ⟨lasting, same⟩ := view.look w.machine (.render s.template (s.context name w.context.node)) sound
    (.inl (.inl ⟨_, rfl⟩)) ⟨rfl, rfl⟩
  rw [← same] at plain ⊢
  exact ⟨rfl, text, view.read _ _ lasting plain read,
    view.readable _ (.read (s.configPath name)) lasting plain (.inl (.inr (.inl rfl))) ⟨_, read⟩⟩

theorem write_ends {w last : World σ} {r : Rendering} {reply : Except Error Change} (apart : s.Apart name)
    (sound : view.Sound w.machine) (plain : (view.files w.machine).Plain (s.configPath name))
    (path : r.path = s.configPath name) (existing : view.files w.machine (s.configPath name) = r.existing.map .file)
    (ran : w.run (r.write host).run = (reply, last)) :
    s.Nears name view w.machine last.machine ∧
      ∀ change, reply = .ok change → view.files last.machine (s.configPath name) = some (.file r.content) := by
  unfold Rendering.write at ran
  by_cases current : r.isCurrent = true
  · rw [if_pos current] at ran
    cases ran
    have same : r.existing = some r.content := eq_of_beq current
    exact ⟨.refl sound, fun _ _ => by rw [existing, same, Option.map_some]⟩
  · rw [if_neg current, path] at ran
    obtain ⟨rfl, answered⟩ := World.try_ofReply_then ran
    refine ⟨Nears.write apart sound plain r.content, fun change done => ?_⟩
    obtain ⟨⟨⟩, wrote⟩ := answered change done
    have sets := (view.write w.machine r.content sound plain).2.here
    rw [show (host.answer (.write (s.configPath name) r.content) w.machine).1 = .ok () from wrote] at sets
    exact sets

variable (view) in
theorem finish_links {w last : World σ} {written : Change} {reply : Except Error Change} (apart : s.Apart name)
    (sound : view.Sound w.machine) (present : view.files w.machine (s.configPath name) ≠ none)
    (ran : w.run (s.finish host name written).run = (reply, last)) :
    s.Links name view w.machine last.machine (s.linked name (view.files w.machine (s.linkPath name)))
      (∃ change, reply = .ok change) := by
  rcases World.try_bind_cases ran with ⟨e, looked, rfl⟩ | ⟨state, next, looked, rest⟩
  · obtain ⟨nears, same⟩ := looks_nears view (s.linkState_bare host name) sound looked
    exact ⟨nears, congrFun same _, nofun⟩
  · obtain ⟨nears, same⟩ := looks_nears view (s.linkState_bare host name) sound looked
    obtain ⟨found, read, rfl, -⟩ := linkState_ok looked
    have seen := view.readLink _ _ sound read
    rw [← same] at seen present ⊢
    have first : s.Links name view w.machine next.machine none False := ⟨nears, congrFun same _, nofun⟩
    refine first.after ?_
    rcases World.try_bind_cases rest with ⟨e, settled, rfl⟩ | ⟨linked, after, settled, rest⟩
    · exact (settleLink_links apart nears.sound present seen settled).mono nofun
    · have there : after = last := by
        cases written <;> (dsimp only at rest; split at rest <;> cases rest <;> rfl)
      rw [← there]
      exact (settleLink_links apart nears.sound present seen settled).mono fun _ => ⟨_, rfl⟩

end Site

end

end Provision
