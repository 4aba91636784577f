import Provision.Proofs.SiteSteps

namespace Provision

variable {σ : Type}

section

variable {host : Host σ} {s : Site} {name : String} {view : FileView host s name}

namespace Site

variable (view) in
/-- The action comes nearer however it ends. -/
theorem apply_nears {w last : World σ} {reply : Except Error Change} (apart : s.Apart name)
    (sound : view.Sound w.machine) (plain : (view.files w.machine).Plain (s.configPath name))
    (ran : w.run (s.apply host name).run = (reply, last)) : s.Nears name view w.machine last.machine := by
  rw [apply_eq] at ran
  rcases World.try_bind_cases ran with ⟨e, failed, rfl⟩ | ⟨r, next, made, rest⟩
  · exact (looks_nears view (s.render_bare host name) sound failed).1
  · obtain ⟨nears, same⟩ := looks_nears view (s.render_bare host name) sound made
    obtain ⟨path, -, existing, -⟩ := render_ok sound plain made
    rw [← same] at plain existing
    rcases World.try_bind_cases rest with ⟨e, failed, rfl⟩ | ⟨written, mid, wrote, rest⟩
    · exact nears.trans (write_ends apart nears.sound plain path existing failed).1
    · obtain ⟨writes, content⟩ := write_ends apart nears.sound plain path existing wrote
      have present : view.files mid.machine (s.configPath name) ≠ none := by simp [content written rfl]
      exact (nears.trans writes).trans (finish_links view apart writes.sound present rest).nears

/-- The site is as it is to be, and can be looked at. -/
structure AtRest (s : Site) (name : String) (view : FileView host s name) (w : World σ) : Prop where
  sound : view.Sound w.machine
  config : ∃ text, s.rendered host name w = .ok text ∧ view.files w.machine (s.configPath name) = some (.file text)
  link : s.linked name (view.files w.machine (s.linkPath name)) = view.files w.machine (s.linkPath name)
  readable : ∃ found, (host.answer (.read (s.configPath name)) w.machine).1 = .ok found
  linkReadable : ∃ found, (host.answer (.readLink (s.linkPath name)) w.machine).1 = .ok found

theorem rendered_nears {w last : World σ} (nears : s.Nears name view w.machine last.machine)
    (context : last.context = w.context) : s.rendered host name last = s.rendered host name w := by
  unfold rendered
  rw [context]
  exact nears.render _

variable (view) in
theorem apply_atRest {w last : World σ} {change : Change} (apart : s.Apart name) (sound : view.Sound w.machine)
    (plain : (view.files w.machine).Plain (s.configPath name))
    (ran : w.run (s.apply host name).run = (.ok change, last)) :
    s.AtRest name view last ∧ s.rendered host name last = s.rendered host name w ∧
      view.files last.machine (s.linkPath name) = s.linked name (view.files w.machine (s.linkPath name)) := by
  have whole := apply_nears view apart sound plain ran
  have context : last.context = w.context := by
    have kept := (s.apply_bare host name).context w
    rwa [ran] at kept
  have rendered := rendered_nears whole context
  rw [apply_eq] at ran
  obtain ⟨r, next, made, rest⟩ := World.try_bind_eq_ok.mp ran
  obtain ⟨written, mid, wrote, rest⟩ := World.try_bind_eq_ok.mp rest
  obtain ⟨nears, same⟩ := looks_nears view (s.render_bare host name) sound made
  obtain ⟨path, text, existing, readable⟩ := render_ok sound plain made
  rw [← same] at plain existing
  obtain ⟨writes, content⟩ := write_ends apart nears.sound plain path existing wrote
  have content := content written rfl
  have ends := finish_links view apart writes.sound (by simp [content]) rest
  obtain ⟨state, seen, looked, -⟩ := World.try_bind_eq_ok.mp rest
  obtain ⟨found, read, -, -⟩ := linkState_ok looked
  have link : view.files last.machine (s.linkPath name) = s.linked name (view.files w.machine (s.linkPath name)) := by
    rw [ends.link ⟨change, rfl⟩, ((nears.trans writes).files (same ▸ plain)).link]
  refine ⟨⟨whole.sound, ?_, ?_, ?_, ?_⟩, rendered, link⟩
  · exact ⟨r.content, rendered.trans text, ends.config.trans content⟩
  · rw [link, linked_linked]
  · exact (writes.trans ends.nears).readable plain readable
  · exact ends.nears.linkReadable ⟨found, read⟩

theorem AtRest.plain {w : World σ} (rest : s.AtRest name view w) : (view.files w.machine).Plain (s.configPath name) := by
  obtain ⟨text, -, content⟩ := rest.config
  intro target link
  rw [content] at link
  cases link

theorem AtRest.kept {w last : World σ} (rest : s.AtRest name view w) (nears : s.Nears name view w.machine last.machine)
    (same : view.files last.machine = view.files w.machine) (context : last.context = w.context) :
    s.AtRest name view last where
  sound := nears.sound
  config := by rw [rendered_nears nears context, same]; exact rest.config
  link := by rw [same]; exact rest.link
  readable := nears.readable rest.plain rest.readable
  linkReadable := nears.linkReadable rest.linkReadable

theorem AtRest.looked {α : Type} {x : Action σ α} {w last : World σ} {reply : Except Error α}
    (rest : s.AtRest name view w) (looks : Bare host (fun c => s.MayCall name c ∧ c.OnlyLooks) x.run)
    (ran : w.run x.run = (reply, last)) : s.AtRest name view last := by
  obtain ⟨nears, same⟩ := looks_nears view looks rest.sound ran
  have context := looks.context w
  rw [ran] at context
  exact rest.kept nears same context

theorem AtRest.render {w : World σ} (rest : s.AtRest name view w) :
    ∃ r next, w.run (s.render host name).run = (.ok r, next) ∧ r.isCurrent = true := by
  obtain ⟨text, rendered, content⟩ := rest.config
  have nears : s.Nears name view w.machine
      (w.after host (.render s.template (s.context name w.context.node))).machine :=
    Nears.look rest.sound (.inl (.inl ⟨_, rfl⟩)) ⟨rfl, rfl⟩
  obtain ⟨found, read⟩ := nears.readable rest.plain rest.readable
  have made : w.run (s.render host name).run = (.ok ⟨s.configPath name, text, found⟩, _) :=
    World.try_bind_eq_ok.mpr ⟨_, _, rfl, (Rendering.make_eq_ok host).mpr ⟨text, found, rendered, read, rfl, rfl⟩⟩
  obtain ⟨-, -, existing, -⟩ := render_ok rest.sound rest.plain made
  rw [content] at existing
  obtain ⟨same, rfl, file⟩ := Option.map_eq_some_iff.mp existing.symm
  cases file
  exact ⟨_, _, made, beq_self_eq_true _⟩

theorem AtRest.read {w : World σ} (rest : s.AtRest name view w) :
    ∃ found, (host.answer (.readLink (s.linkPath name)) w.machine).1 = .ok found ∧
      (s.linkDrift name (s.linkStateOf name found)).isEmpty = true := by
  obtain ⟨found, read⟩ := rest.linkReadable
  refine ⟨found, read, ?_⟩
  have seen := view.readLink _ _ rest.sound read
  have link := rest.link
  cases found with
  | none =>
    rw [linked_missing seen.symm] at link
    cases enabled : s.enabled with
    | false => simp [linkDrift, linkStateOf, enabled]
    | true =>
      rw [enabled] at link
      rw [← link] at seen
      cases seen
  | some target =>
    rw [held_link seen.symm] at link
    cases enabled : s.enabled with
    | false => simp [linked, enabled] at link
    | true =>
      have correct : Path.same target (s.configPath name) = true := by
        by_contra wrong
        simp only [linked, enabled, wrong, if_false, Option.some.injEq, Occupant.link.injEq] at link
        exact wrong (beq_iff_eq.mpr (congrArg Path.components link.symm))
      simp [linkDrift, linkStateOf, correct, enabled]

theorem AtRest.check {w : World σ} (rest : s.AtRest name view w) :
    ∃ seen, w.run (s.check host name).run = (.ok .inSync, seen) ∧ s.AtRest name view seen := by
  obtain ⟨r, next, made, current⟩ := rest.render
  have later := rest.looked (s.render_bare host name) made
  obtain ⟨found, read, fits⟩ := later.read
  have checked : w.run (s.check host name).run = (.ok .inSync, next.after host (.readLink (s.linkPath name))) := by
    refine World.try_bind_eq_ok.mpr ⟨r, next, made, World.try_bind_eq_ok.mpr ⟨_, _, linkState_eq read, ?_⟩⟩
    have inSync : r.drift = .inSync := by simp [Rendering.drift, current]
    rw [inSync, List.isEmpty_iff.mp fits]
    rfl
  exact ⟨_, checked, rest.looked (s.check_bare host name) checked⟩

theorem AtRest.apply {w : World σ} (rest : s.AtRest name view w) :
    ∃ again, w.run (s.apply host name).run = (.ok .unchanged, again) := by
  obtain ⟨r, next, made, current⟩ := rest.render
  have later := rest.looked (s.render_bare host name) made
  obtain ⟨found, read, fits⟩ := later.read
  refine ⟨next.after host (.readLink (s.linkPath name)), ?_⟩
  rw [apply_eq]
  refine World.try_bind_eq_ok.mpr ⟨r, next, made, ?_⟩
  rw [Rendering.write_current current]
  exact finish_settled read fits

def LinkedAsWanted (s : Site) (name : String) (f : Files) : Prop :=
  match s.enabled with
  | true => ∃ target, f (s.linkPath name) = some (.link target) ∧ Path.same target (s.configPath name) = true
  | false => f (s.linkPath name) = none

/-- What else the action is to come to: the rendered text, nothing changed elsewhere, and nothing left to do. -/
structure Reached (s : Site) (name : String) (view : FileView host s name) (w last : World σ) : Prop where
  config : ∃ text, s.rendered host name w = .ok text ∧ view.files last.machine (s.configPath name) = some (.file text)
  aside : ∀ q, s.Aside name (view.files w.machine) q → view.files last.machine q = view.files w.machine q
  inSync : ∃ seen, last.run (s.check host name).run = (.ok .inSync, seen) ∧
    ∃ again, seen.run (s.apply host name).run = (.ok .unchanged, again)
  unchanged : ∃ again, last.run (s.apply host name).run = (.ok .unchanged, again)

/-- Actions that failed, and whatever came about in between but for the files. -/
inductive Retried (s : Site) (name : String) (view : FileView host s name) (w : World σ) : World σ → Prop
  | start : Retried s name view w w
  | meanwhile {mid next : World σ} (before : Retried s name view w mid) (sound : view.Sound next.machine)
    (same : view.files next.machine = view.files mid.machine) : Retried s name view w next
  | failed {mid next : World σ} {e : Error} (before : Retried s name view w mid)
    (ran : mid.run (s.apply host name).run = (.error e, next)) : Retried s name view w next

theorem Retried.approaches {w retried : World σ} (apart : s.Apart name) (sound : view.Sound w.machine)
    (plain : (view.files w.machine).Plain (s.configPath name)) (tried : s.Retried name view w retried) :
    view.Sound retried.machine ∧ s.Approaches name (view.files w.machine) (view.files retried.machine) := by
  induction tried with
  | start => exact ⟨sound, .refl plain⟩
  | meanwhile before lasting same ih =>
    rw [same]
    exact ⟨lasting, ih.2⟩
  | failed before ran ih =>
    have nears := apply_nears view apart ih.1 ih.2.plain ran
    exact ⟨nears.sound, ih.2.trans (nears.files ih.2.plain)⟩

theorem linkedAsWanted_iff (e : Option Occupant) {f : Files} (held : f (s.linkPath name) = s.linked name e) :
    s.LinkedAsWanted name f ↔ s.enabled = true ∨ ¬ ∃ o, e = some o ∧ o.target? = none := by
  have correct : Path.same (s.configPath name) (s.configPath name) = true := beq_self_eq_true _
  unfold LinkedAsWanted
  rw [held]
  cases enabled : s.enabled with
  | true =>
    refine iff_of_true ?_ (Or.inl rfl)
    rcases e with _ | (_ | target | _)
    case some.link =>
      by_cases same : Path.same target (s.configPath name) = true
      · exact ⟨target, by simp [linked, enabled, same], same⟩
      · exact ⟨s.configPath name, by simp [linked, enabled, same], correct⟩
    all_goals exact ⟨s.configPath name, by simp [linked, enabled], correct⟩
  | false =>
    rcases e with _ | (_ | _ | _) <;> simp [linked, enabled, Occupant.target?]

theorem reaches_iff {s : Site} {name : String} (view : FileView host s name) {w last : World σ} {change : Change}
    (sound : view.Sound w.machine) (plain : (view.files w.machine).Plain (s.configPath name))
    (apart : s.Apart name) (ran : w.run (s.apply host name).run = (.ok change, last)) :
    s.Reached name view w last ∧
      (s.LinkedAsWanted name (view.files last.machine) ↔
        s.enabled = true ∨ ¬ (view.files w.machine).Blocked (s.linkPath name)) ∧
      ∀ retried last' change', s.Retried name view w retried →
        s.rendered host name retried = s.rendered host name w →
        retried.run (s.apply host name).run = (.ok change', last') →
        ∀ q, q = s.configPath name ∨ q = s.linkPath name ∨ s.Aside name (view.files w.machine) q →
          view.files last'.machine q = view.files last.machine q := by
  have files := (apply_nears view apart sound plain ran).files plain
  obtain ⟨rest, rendered, link⟩ := apply_atRest view apart sound plain ran
  obtain ⟨text, told, content⟩ := rest.config
  refine ⟨⟨⟨text, rendered.symm.trans told, content⟩, files.aside, ?_, rest.apply⟩, linkedAsWanted_iff _ link, ?_⟩
  · obtain ⟨seen, checked, later⟩ := rest.check
    exact ⟨seen, checked, later.apply⟩
  · intro retried last' change' tried same ran' q concerns
    obtain ⟨sound', near⟩ := tried.approaches apart sound plain
    have files' := near.trans ((apply_nears view apart sound' near.plain ran').files near.plain)
    obtain ⟨rest', rendered', link'⟩ := apply_atRest view apart sound' near.plain ran'
    obtain ⟨text', told', content'⟩ := rest'.config
    rcases concerns with rfl | rfl | aside
    · rw [rendered', same, ← rendered, told] at told'
      cases told'
      exact content'.trans content.symm
    · rw [link', link, near.link]
    · exact (files'.aside q aside).trans (files.aside q aside).symm

end Site

end

def siteWorld (m : Machine) : World Machine where
  machine := m
  context := ⟨false, false, .empty, .object [], .warn, []⟩
  calls := []
  events := []

def shopSite (enabled : Bool) : Site := { serverName := "shop.example.com", docroot := "/srv/shop", enabled }

abbrev shopView (enabled : Bool) : FileView Machine.host (shopSite enabled) "shop" := Machine.view (shopSite enabled) "shop"

def movedShop : Machine :=
  { Machine.empty with links := [("/etc/apache2/sites-enabled/shop.conf", "/srv/old.conf")] }

def copiedShop : Machine :=
  { Machine.empty with files := [("/etc/apache2/sites-enabled/shop.conf", { content := "Listen 80\n" })] }

theorem shop_apart (enabled : Bool) : (shopSite enabled).Apart "shop" := by
  have apart : Path.isWithin "/etc/apache2/sites-enabled/shop.conf" "/etc/apache2/sites-available/shop.conf" = false := by
    decide +kernel
  cases enabled <;> exact apart

def stuckShop : Machine :=
  { movedShop with failures := [("symlink /etc/apache2/sites-enabled/shop.conf", .ofText "read-only file system")] }

def halfwayShop : World Machine := ((siteWorld stuckShop).run ((shopSite true).apply Machine.host "shop").run).2

def mendedShop : World Machine := { halfwayShop with machine := { halfwayShop.machine with failures := [] } }

theorem mendedShop_retried : (shopSite true).Retried "shop" (shopView true) (siteWorld movedShop) mendedShop := by
  have failed : (siteWorld stuckShop).run ((shopSite true).apply Machine.host "shop").run =
      (.error (.collaborator (.ofText "read-only file system")), halfwayShop) :=
    World.run_of_answer (by decide +kernel)
  have stuck : (shopSite true).Retried "shop" (shopView true) (siteWorld movedShop) (siteWorld stuckShop) :=
    .meanwhile .start (fun _ _ => rfl) rfl
  have links : mendedShop.machine.links = [] := by decide +kernel
  refine (stuck.failed failed).meanwhile (fun path linked => ?_) rfl
  rw [links] at linked
  exact absurd rfl linked

theorem reaches_iff_moved :
    ∃ last last',
      (siteWorld movedShop).run ((shopSite true).apply Machine.host "shop").run =
        (.ok (.converged "created /etc/apache2/sites-available/shop.conf, enabled shop"), last) ∧
      mendedShop.run ((shopSite true).apply Machine.host "shop").run = (.ok (.converged "enabled shop"), last') ∧
      (shopSite true).Reached "shop" (shopView true) (siteWorld movedShop) last ∧
      (shopSite true).LinkedAsWanted "shop" ((shopView true).files last.machine) ∧
      (shopView true).files last'.machine "/etc/apache2/sites-enabled/shop.conf" =
        (shopView true).files last.machine "/etc/apache2/sites-enabled/shop.conf" := by
  have ran := World.run_of_answer (w := siteWorld movedShop) (x := ((shopSite true).apply Machine.host "shop").run)
    (a := .ok (.converged "created /etc/apache2/sites-available/shop.conf, enabled shop")) (by decide +kernel)
  have again := World.run_of_answer (w := mendedShop) (x := ((shopSite true).apply Machine.host "shop").run)
    (a := .ok (.converged "enabled shop")) (by decide +kernel)
  have plain : ((shopView true).files (siteWorld movedShop).machine).Plain ((shopSite true).configPath "shop") :=
    Files.plain_of_none (by decide +kernel)
  have rendered : (shopSite true).rendered Machine.host "shop" mendedShop =
      (shopSite true).rendered Machine.host "shop" (siteWorld movedShop) := by decide +kernel
  obtain ⟨reached, wanted, recovers⟩ := Site.reaches_iff (shopView true) (fun _ _ => rfl) plain (shop_apart true) ran
  exact ⟨_, _, ran, again, reached, wanted.mpr (Or.inl rfl),
    recovers _ _ _ mendedShop_retried rendered again _ (Or.inr (Or.inl rfl))⟩

/-- The action succeeds and tells that all is in sync, and the copy stays at the link path. -/
theorem disabled_leaves_file :
    (shopView false).Sound copiedShop ∧ ((shopView false).files copiedShop).Plain ((shopSite false).configPath "shop") ∧
      (shopSite false).Apart "shop" ∧ ∃ last seen again,
        (siteWorld copiedShop).run ((shopSite false).apply Machine.host "shop").run =
          (.ok (.converged "created /etc/apache2/sites-available/shop.conf"), last) ∧
        (shopView false).files last.machine ((shopSite false).linkPath "shop") = some (.file "Listen 80\n") ∧
        ¬ (shopSite false).LinkedAsWanted "shop" ((shopView false).files last.machine) ∧
        last.run ((shopSite false).check Machine.host "shop").run = (.ok .inSync, seen) ∧
        last.run ((shopSite false).apply Machine.host "shop").run = (.ok .unchanged, again) := by
  have nothing : (shopView false).files copiedShop ((shopSite false).configPath "shop") = none := by decide +kernel
  have sound : (shopView false).Sound (siteWorld copiedShop).machine := fun _ linked => absurd rfl linked
  have ran := World.run_of_answer (w := siteWorld copiedShop) (x := ((shopSite false).apply Machine.host "shop").run)
    (a := .ok (.converged "created /etc/apache2/sites-available/shop.conf")) (by decide +kernel)
  have stays : (shopView false).files ((siteWorld copiedShop).run ((shopSite false).apply Machine.host "shop").run).2.machine
      ((shopSite false).linkPath "shop") = some (.file "Listen 80\n") := by decide +kernel
  obtain ⟨rest, -⟩ := Site.apply_atRest (shopView false) (shop_apart false) sound (Files.plain_of_none nothing) ran
  obtain ⟨seen, checked, -⟩ := rest.check
  obtain ⟨again, unchanged⟩ := rest.apply
  refine ⟨sound, Files.plain_of_none nothing, shop_apart false, _, seen, again, ran, stays, fun wanted => ?_, checked,
    unchanged⟩
  exact absurd (stays.symm.trans wanted) nofun

end Provision
