import RunnerKit.Command.New
import RunnerKit.Proofs.Identity
import RunnerKit.Proofs.Path.Names
import RunnerKit.Proofs.Template.Store
/-!
This module contains what may be wrong with a project that somebody asks for, and what the project
is if nothing is.
-/

namespace RunnerKit

/--
The directory that a project is to be installed in. It is asked for, or configured, or that of the
programs that cargo installs; where there is no home there may be none.
-/
inductive InstallDir (asked? : Option Path) (configured : String) (env : Environment) (home : Home)
    : Option Path → Prop where
  | asked {dir : Path} (hasked : asked? = some dir)
    : InstallDir asked? configured env home (some dir)
  | configured (hasked : asked? = none) (hconfigured : configured ≠ "")
    : InstallDir asked? configured env home (some (.ofString configured))
  | cargoHome {root : String} (hasked : asked? = none) (hconfigured : configured = "")
      (hroot : env.get? "CARGO_HOME" = some root)
      (habsolute : (Path.ofString root).isAbsolute = true)
    : InstallDir asked? configured env home (some ((Path.ofString root).join (.ofString "bin")))
  | userHome {user : Path} (hasked : asked? = none) (hconfigured : configured = "")
      (hroot : ∀ root, env.get? "CARGO_HOME" = some root → (Path.ofString root).isAbsolute = false)
      (huser : home = some user)
    : InstallDir asked? configured env home
        (some ((user.join (.ofString ".cargo")).join (.ofString "bin")))
  | unknown (hasked : asked? = none) (hconfigured : configured = "")
      (hroot : ∀ root, env.get? "CARGO_HOME" = some root → (Path.ofString root).isAbsolute = false)
      (hhome : home = none)
    : InstallDir asked? configured env home none

namespace NewArguments

variable (arguments : NewArguments) (settings : Settings) (env : Environment) (home : Home)
  (holds : Path → Bool)

def root : Path := .ofString (asciiLower arguments.name)

def templateId : String := arguments.template?.getD settings.template

structure Usable : Prop where
  name : ∃ app, AppName.Naming arguments.name (.ok app)
  year : ∀ year ∈ arguments.year?, 0 < year
  binDir : ∃ dir?, InstallDir arguments.binDir? settings.binDir env home dir? ∧
    ∀ dir ∈ dir?, dir.isAbsolute = true

/--
The error that a project is refused with, and its exit code. Of several faults the first one counts,
in the order of the cases.
-/
inductive Refusal : CommandError → UInt8 → Prop where
  | badName {v : Violation} (hname : AppName.Naming arguments.name (.error v))
    : Refusal (.library (.violation v)) 2
  | badYear {app : AppName} {year : Int} (hname : AppName.Naming arguments.name (.ok app))
      (hyear : arguments.year? = some year) (hnegative : year ≤ 0)
    : Refusal (.invalidInput ("year must be positive, got " ++ toString year)) 2
  | relativeBinDir {app : AppName} {dir : Path} (hname : AppName.Naming arguments.name (.ok app))
      (hyear : ∀ year ∈ arguments.year?, 0 < year)
      (hdir : InstallDir arguments.binDir? settings.binDir env home (some dir))
      (hrelative : dir.isAbsolute = false)
    : Refusal (.library (.violation (.relativeBinDir dir.display))) 2
  | unknownTemplate (husable : arguments.Usable settings env home)
      (hunknown : arguments.templateId settings ∉ ["runner", "runner-scoped"])
    : Refusal (.library (.failure (.templateResolution
        ("Template not found: " ++ arguments.templateId settings)))) 3
  | occupied (husable : arguments.Usable settings env home)
      (hknown : arguments.templateId settings ∈ ["runner", "runner-scoped"])
      (hforce : arguments.force = false) (hholds : holds arguments.root = true)
    : Refusal (.projectExists arguments.root) 2

structure Accepted : Prop where
  usable : arguments.Usable settings env home
  template_mem : arguments.templateId settings ∈ ["runner", "runner-scoped"]
  free : arguments.force = true ∨ holds arguments.root = false

theorem Accepted.withDryRun {arguments : NewArguments} {settings : Settings} {env : Environment}
    {home : Home} {holds : Path → Bool} (h : arguments.Accepted settings env home holds)
    (dryRun : Bool) : { arguments with dryRun }.Accepted settings env home holds :=
  ⟨⟨h.usable.name, h.usable.year, h.usable.binDir⟩, h.template_mem, h.free⟩

end NewArguments

namespace Command

structure NewProject.Answers (p : NewProject) (arguments : NewArguments) (settings : Settings)
    : Prop where
  text_eq : p.app.text = arguments.name
  template_eq : p.request.template = arguments.templateId settings
  root_eq : p.request.root = arguments.root
  context : ∃ author email year binDir,
    p.request.context.IsFor p.app author email year binDir

namespace NewProject.Answers

variable {arguments : NewArguments} {settings : Settings} {p : NewProject}
  (h : p.Answers arguments settings)
include h

theorem lowercase_eq : p.app.lowercase = asciiLower arguments.name := by
  rw [AppName.lowercase, h.text_eq]

theorem root_eq_ofString : p.request.root = .ofString p.app.lowercase := by
  rw [h.root_eq, h.lowercase_eq]
  rfl

end NewProject.Answers

theorem exists_installDir (asked? : Option Path) (configured : String) (env : Environment)
    (home : Home) : ∃ dir?, InstallDir asked? configured env home dir? := by
  cases hasked : asked? with
  | some dir => exact ⟨_, .asked rfl⟩
  | none =>
    by_cases hconfigured : configured = ""
    case neg => exact ⟨_, .configured rfl hconfigured⟩
    by_cases hroot : ∃ root,
        env.get? "CARGO_HOME" = some root ∧ (Path.ofString root).isAbsolute = true
    case pos =>
      obtain ⟨root, hroot, habsolute⟩ := hroot
      exact ⟨_, .cargoHome rfl hconfigured hroot habsolute⟩
    simp only [not_exists, not_and, Bool.not_eq_true] at hroot
    cases hhome : home with
    | some user => exact ⟨_, .userHome rfl hconfigured hroot rfl⟩
    | none => exact ⟨_, .unknown rfl hconfigured hroot rfl⟩

theorem refusal_or_accepted (arguments : NewArguments) (settings : Settings) (env : Environment)
    (home : Home) (holds : Path → Bool)
    : (∃ e code, arguments.Refusal settings env home holds e code) ∨
      arguments.Accepted settings env home holds := by
  -- The faults are looked for in the order of the cases of a refusal.
  obtain ⟨result, hname⟩ := AppName.exists_naming arguments.name
  cases result with
  | error v => exact Or.inl ⟨_, _, .badName hname⟩
  | ok app =>
    by_cases hyear : ∀ year ∈ arguments.year?, 0 < year
    case neg =>
      simp only [not_forall, Int.not_lt] at hyear
      obtain ⟨year, hyear, hnegative⟩ := hyear
      exact Or.inl ⟨_, _, .badYear hname hyear hnegative⟩
    obtain ⟨dir?, hdir⟩ := exists_installDir arguments.binDir? settings.binDir env home
    by_cases habsolute : ∀ dir ∈ dir?, dir.isAbsolute = true
    case neg =>
      simp only [not_forall, Bool.not_eq_true] at habsolute
      obtain ⟨dir, rfl, hrelative⟩ := habsolute
      exact Or.inl ⟨_, _, .relativeBinDir hname hyear hdir hrelative⟩
    have husable : arguments.Usable settings env home :=
      ⟨⟨app, hname⟩, hyear, dir?, hdir, habsolute⟩
    by_cases hknown : arguments.templateId settings ∈ ["runner", "runner-scoped"]
    case neg => exact Or.inl ⟨_, _, .unknownTemplate husable hknown⟩
    by_cases hoccupied : arguments.force = false ∧ holds arguments.root = true
    case pos => exact Or.inl ⟨_, _, .occupied husable hknown hoccupied.1 hoccupied.2⟩
    refine Or.inr ⟨husable, hknown, ?_⟩
    simpa [-not_and, not_and_or] using hoccupied

theorem projectYear_cases (asked? : Option Int) (currentYear : Int)
    : (∃ year, asked? = some year ∧ year ≤ 0 ∧ projectYear asked? currentYear =
        .error (.invalidInput ("year must be positive, got " ++ toString year))) ∨
      (∀ year ∈ asked?, 0 < year) ∧ ∃ year, projectYear asked? currentYear = .ok year := by
  unfold projectYear
  cases asked? with
  | none => exact Or.inr ⟨nofun, currentYear, rfl⟩
  | some year =>
    by_cases hyear : year ≤ 0
    . exact Or.inl ⟨year, rfl, hyear, if_pos hyear⟩
    . refine Or.inr ⟨?_, year, if_neg hyear⟩
      intro other hother
      cases hother
      exact Int.not_le.mp hyear

theorem directory?_eq_some {env : Environment} {name dir : String} (hdir : env.get? name = some dir)
    (habsolute : (Path.ofString dir).isAbsolute = true)
    : env.directory? name = some (.ofString dir) := by
  simp [Environment.directory?, hdir, habsolute]

theorem directory?_eq_none {env : Environment} {name : String}
    (h : ∀ dir, env.get? name = some dir → (Path.ofString dir).isAbsolute = false)
    : env.directory? name = none := by
  cases hdir : env.get? name with
  | none => simp [Environment.directory?, hdir]
  | some dir => simp [Environment.directory?, hdir, h dir hdir]

theorem projectBinDir_eq {arguments : NewArguments} {settings : Settings} {env : Environment}
    {home : Home} {dir? : Option Path}
    (h : InstallDir arguments.binDir? settings.binDir env home dir?)
    : projectBinDir arguments settings (cargoBinDir env home) = dir? := by
  unfold projectBinDir cargoBinDir
  cases h with
  | asked hasked => simp [hasked]
  | configured hasked hconfigured => simp [hasked, hconfigured]
  | cargoHome hasked hconfigured hroot habsolute =>
    simp [hasked, hconfigured, directory?_eq_some hroot habsolute]
  | userHome hasked hconfigured hroot huser =>
    simp [hasked, hconfigured, directory?_eq_none hroot, huser]
  | unknown hasked hconfigured hroot hhome =>
    simp [hasked, hconfigured, directory?_eq_none hroot, hhome]

section

variable {arguments : NewArguments} {settings : Settings} {env : Environment} {home : Home}
  {holds : Path → Bool} {currentYear : Int}

theorem ofArguments_of_badName {v : Violation} (hname : AppName.Naming arguments.name (.error v))
    (binDir? : Option Path)
    : NewProject.ofArguments arguments settings binDir? currentYear =
      .error (.library (.violation v)) := by
  have hofString := hname.ofString_eq
  unfold NewProject.ofArguments
  cases happ : AppName.ofString arguments.name with
  | ok app =>
    rw [happ] at hofString
    cases hofString
  | error fault =>
    rw [happ] at hofString
    cases hofString
    rfl

theorem ofString_of_naming {text : String} {app : AppName} (h : AppName.Naming text (.ok app))
    : AppName.ofString text = .ok app := by
  cases h with
  | named happ => rw [← happ, app.ofString_text]

theorem ofArguments_of_badYear {app : AppName} {e : CommandError}
    (hname : AppName.Naming arguments.name (.ok app))
    (hyear : projectYear arguments.year? currentYear = .error e) (binDir? : Option Path)
    : NewProject.ofArguments arguments settings binDir? currentYear = .error e := by
  rw [NewProject.ofArguments, ofString_of_naming hname, hyear]
  rfl

theorem ofArguments_of_relativeBinDir {app : AppName} {year : Int} {binDir? : Option Path}
    {dir : Path} (hname : AppName.Naming arguments.name (.ok app))
    (hyear : projectYear arguments.year? currentYear = .ok year)
    (hdir : projectBinDir arguments settings binDir? = some dir)
    (hrelative : dir.isAbsolute = false)
    : NewProject.ofArguments arguments settings binDir? currentYear =
      .error (.library (.violation (.relativeBinDir dir.display))) := by
  rw [NewProject.ofArguments, ofString_of_naming hname, hyear, hdir]
  simp only [Except.mapError, bind, Except.bind, Context.withBinDir, hrelative, Bool.false_eq_true,
    if_false]

theorem exists_ofArguments_eq_ok (h : arguments.Usable settings env home) (currentYear : Int)
    : ∃ p, NewProject.ofArguments arguments settings (cargoBinDir env home) currentYear = .ok p ∧
        p.Answers arguments settings := by
  obtain ⟨⟨app, hname⟩, hyear, dir?, hdir, habsolute⟩ := h
  obtain ⟨year, hsome, hnegative, _⟩ | ⟨_, year, hyear⟩ :=
    projectYear_cases arguments.year? currentYear
  . exact absurd (hyear year hsome) (Int.not_lt.mpr hnegative)
  have htext : app.text = arguments.name := by
    cases hname with
    | named happ => exact happ
  have hproject := Context.IsFor.ofProject app (arguments.author?.getD settings.authorName)
    (arguments.email?.getD settings.authorEmail) year
  have hroot : Path.ofString app.lowercase = arguments.root := by
    rw [AppName.lowercase, htext]
    rfl
  rw [NewProject.ofArguments, ofString_of_naming hname, hyear, projectBinDir_eq hdir]
  cases dir? with
  | none => exact ⟨_, rfl, htext, rfl, hroot, _, _, _, _, hproject⟩
  | some dir =>
    simp only [Except.mapError, bind, Except.bind, Context.withBinDir, habsolute dir rfl, if_true]
    exact ⟨_, rfl, htext, rfl, hroot, _, _, _, _, hproject.bind_binDir dir.display⟩

end

theorem plan_cases {arguments : NewArguments} {settings : Settings} {p : NewProject}
    (h : p.Answers arguments settings) {store : Store} (hstore : Store.withBuiltin = .ok store)
    : (arguments.templateId settings ∉ ["runner", "runner-scoped"] ∧
        store.plan p.request = .error (.failure (.templateResolution
          ("Template not found: " ++ arguments.templateId settings)))) ∨
      arguments.templateId settings ∈ ["runner", "runner-scoped"] ∧ ∃ project : RunnerProject,
        store.plan p.request = .ok { root := p.request.root, files := project.files p.app } := by
  obtain ⟨store', hstore', hremembers⟩ := Store.Origin.builtin.exists_store
  cases hstore.symm.trans hstore'
  have hget := hremembers.keeps.get_eq p.request.template
  have hids : Builtin.all.map Template.id = ["runner", "runner-scoped"] := rfl
  unfold Store.plan
  rw [← h.template_eq, ← hids]
  cases hlast : lastOf Store.Origin.builtin.templates p.request.template with
  | none =>
    have hunknown : p.request.template ∉ Builtin.all.map Template.id := by
      rw [← isSome_lastOf_iff, show lastOf Builtin.all p.request.template = none from hlast]
      simp
    rw [hlast] at hget
    rw [hget]
    exact Or.inl ⟨hunknown, rfl⟩
  | some t =>
    obtain ⟨hmem, hid⟩ := id_eq_of_lastOf hlast
    have hknown : p.request.template ∈ Builtin.all.map Template.id :=
      hid ▸ List.mem_map_of_mem hmem
    rw [hlast] at hget
    rw [hget]
    obtain ⟨id, description, htemplate⟩ := Builtin.exists_eq_template t hmem
    have hvalid := Builtin.validate_of_mem_all t hmem
    rw [htemplate] at hvalid
    obtain ⟨_, _, _, _, hctx⟩ := h.context
    obtain ⟨project, hrender, _⟩ := Builtin.render_template hctx hvalid p.request.root
    rw [← htemplate] at hrender
    exact Or.inr ⟨hknown, project, hrender⟩

end Command
end RunnerKit
