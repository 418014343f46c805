import RunnerKit.Proofs.Command.Machine
import RunnerKit.Proofs.Storage.Disk
/-!
This module contains what comes of the command that writes the default settings to a file. If the
file is named, the settings are read from it before it is written, so that it has to be there.
-/

namespace RunnerKit

namespace Command

section

variable {around : Surroundings} {s : Session (StateM Machine)}
  (hhost : s.host = Machine.host around)
include hhost

theorem run_attemptOr {call : Call} {message : String} {machine : Machine} {d : Disk}
    (h : machine.disk.attempt call = (.ok (), d))
    : (attemptOr s call message).run machine =
      (.ok (), { machine with disk := d, calls := machine.calls ++ [call] }) := by
  rw [attemptOr, hhost]
  simp only [ExceptT.run_mk, bind, StateT.bind, Machine.host, Machine.attempt, h]
  rfl

theorem run_say (message : Message) (machine : Machine)
    : ∃ machine',
        (liftM (s.say message) : Task (StateM Machine) Unit).run machine = (.ok (), machine') ∧
        machine'.disk = machine.disk :=
  ⟨_, rfl, (leavesDisk_say hhost message machine).1⟩

theorem runInit_apply {arguments : InitArguments} {machine : Machine} {d : Disk}
    (hfree : arguments.force = true ∨
      machine.disk.holds (initPath arguments s.globals.config? s.configPath) = false)
    (htakes : machine.disk.Takes (initPath arguments s.globals.config? s.configPath)
      (Settings.toToml {}) d)
    : ∃ machine', (runInit s arguments).run machine = (.ok (), machine') ∧ machine'.disk = d := by
  unfold runInit
  generalize initPath arguments s.globals.config? s.configPath = path at *
  have hholds : (liftM (s.host.holds path) : Task (StateM Machine) Bool).run machine =
      (.ok (machine.disk.holds path), machine) := by
    rw [hhost]
    rfl
  have hproceeds : ¬(!arguments.force && machine.disk.holds path) = true := by
    cases hfree with
    | inl hforce => simp [hforce]
    | inr hholds => simp [hholds]
  -- What is left is the same whether or not directories are made first.
  have hwritten (machine : Machine)
      (hwrite : machine.disk.writeFile path (Settings.toToml {}) = .ok d)
      : ∃ machine', (do
          attemptOr s (.writeFile path (Settings.toToml {}))
            ("Failed to write config to '" ++ path.display ++ "'")
          s.say (.success ("Configuration created at " ++ path.display)) :
            Task (StateM Machine) Unit).run machine = (.ok (), machine') ∧ machine'.disk = d := by
    have hattempt : machine.disk.attempt (.writeFile path (Settings.toToml {})) = (.ok (), d) := by
      rw [Disk.attempt, hwrite]
      rfl
    rw [run_bind_of_ok (run_attemptOr hhost hattempt)]
    exact run_say hhost _ _
  simp only
  rw [run_bind_of_ok hholds, if_neg hproceeds]
  cases htakes with
  | bare hparent hwrite =>
    cases hpath : path.parent? with
    | none => exact hwritten machine hwrite
    | some parent =>
      simp only [hparent parent hpath]
      exact hwritten machine hwrite
  | @below parent made _ hparent hnamed hmake hwrite =>
    have hattempt : machine.disk.attempt (.createDirAll parent) = (.ok (), made) := hmake
    rw [hparent]
    simp only [hnamed]
    rw [if_neg Bool.false_ne_true, run_bind_of_ok (run_attemptOr hhost hattempt)]
    exact hwritten _ hwrite

end

section

variable {around : Surroundings} {pages : Pages} {env : Environment} {globals : Globals}
  {command : Command} {machine : Machine}

theorem runInvocation_of_load_error {e : Settings.LoadError}
    (hload : Settings.load (m := Id) machine.disk.read? env (around.home env) globals.config?
      around.backend = .error e)
    : ∃ machine', runInvocation (Machine.host around) pages env ⟨globals, command⟩ machine =
        (.exited 4, machine') ∧
      machine'.disk = machine.disk ∧ machine'.calls = machine.calls := by
  let s : Session (StateM Machine) := { host := Machine.host around, env, globals }
  have hhost : s.host = Machine.host around := rfl
  have hbegun := leavesDisk_log hhost (begun s.globals) machine
  have hrun : runInvocation (Machine.host around) pages env ⟨globals, command⟩ machine =
      fail s (.config e.chain (some e.message) e.causes) (s.log (begun s.globals) machine).2 :=
    runInvocation_apply pages hhost rfl command hload
  have hfail := leavesDisk_fail hhost (.config e.chain (some e.message) e.causes)
    (s.log (begun s.globals) machine).2
  exact ⟨_, hrun, hfail.1.trans hbegun.1, hfail.2.trans hbegun.2⟩

theorem runInvocation_init {arguments : InitArguments} {settings : Settings} {path : Path}
    {d : Disk} (hcommand : command = .init arguments)
    (hload : Settings.load (m := Id) machine.disk.read? env (around.home env) globals.config?
      around.backend = .ok settings)
    (hpath : initPath arguments globals.config? (Settings.userPath env (around.home env)) = path)
    (hfree : arguments.force = true ∨ machine.disk.holds path = false)
    (htakes : machine.disk.Takes path (Settings.toToml {}) d)
    : ∃ machine', runInvocation (Machine.host around) pages env ⟨globals, command⟩ machine =
        (.exited 0, machine') ∧ machine'.disk = d := by
  let s : Session (StateM Machine) := { host := Machine.host around, env, globals }
  have hhost : s.host = Machine.host around := rfl
  have hbegun := leavesDisk_log hhost (begun s.globals) machine
  rw [← hbegun.1] at hfree htakes
  subst hpath
  obtain ⟨written, hwritten, hdisk⟩ := runInit_apply (s := { s with settings }) hhost hfree htakes
  have hdispatch : (dispatch pages { s with settings } command).run
      (s.log (begun s.globals) machine).2 = (.ok none, written) := by
    rw [hcommand]
    exact run_bind_of_ok hwritten
  have hrun : runInvocation (Machine.host around) pages env ⟨globals, command⟩ machine =
      (.exited 0, (({ s with settings } : Session (StateM Machine)).log succeeded written).2) :=
    (runInvocation_apply pages hhost rfl command hload).trans (bind_apply hdispatch)
  have hsucceeded := leavesDisk_log (s := { s with settings }) hhost succeeded written
  exact ⟨_, hrun, hsucceeded.1.trans hdisk⟩

theorem run_eq_runInvocation {words : List String}
    (henv : (environment (Machine.host around) machine).1 = env)
    (hparse : CommandLine.parse (env.get? "NO_COLOR") words = .ok ⟨globals, command⟩)
    : run (Machine.host around) pages words machine =
      runInvocation (Machine.host around) pages env ⟨globals, command⟩ machine := by
  have henvironment := environment_apply around machine
  rw [henv] at henvironment
  refine (bind_apply henvironment).trans ?_
  rw [hparse]

end

theorem run_init_named (pages : Pages) {around : Surroundings} {machine : Machine}
    {env : Environment} {words : List String} {globals : Globals} {arguments : InitArguments}
    {path : Path} (henv : (environment (Machine.host around) machine).1 = env)
    (hunset : ∀ entry ∈ env, Settings.keyOfVariable? entry.1 = none)
    (hparse : CommandLine.parse (env.get? "NO_COLOR") words = .ok ⟨globals, .init arguments⟩)
    (hnamed : globals.config? = some path) (hlocal : arguments.isLocal = false)
    (hformat : Settings.FileFormat.ofPath? path = some .toml)
    (hcurrent : machine.disk.node? machine.disk.current = some .directory)
    : ∃ ending machine', run (Machine.host around) pages words machine = (ending, machine') ∧
      (∀ obstacle, Settings.Unreadable around.backend machine.disk.read? path obstacle →
        Settings.load (m := Id) machine.disk.read? env (around.home env) (some path) around.backend =
          .error ⟨.unreadable, around.backend.causes obstacle⟩) ∧
      (∀ e, Settings.load (m := Id) machine.disk.read? env (around.home env) (some path)
          around.backend = .error e →
        ending = .exited 4 ∧ machine'.disk = machine.disk ∧ machine'.calls = machine.calls) ∧
      (∀ settings d, Settings.load (m := Id) machine.disk.read? env (around.home env) (some path)
          around.backend = .ok settings →
        (arguments.force = true ∨ machine.disk.holds path = false) →
        machine.disk.Takes path (Settings.toToml {}) d →
          ending = .exited 0 ∧ machine'.disk = d ∧ d.read? path = some (Settings.toToml {}) ∧
          Settings.load (m := Id) d.read? env (around.home env) (some path) around.backend =
            .ok {}) := by
  obtain ⟨ending, machine', hresult⟩ : ∃ ending machine',
      run (Machine.host around) pages words machine = (ending, machine') := ⟨_, _, rfl⟩
  refine ⟨ending, machine', hresult, fun _ h => h.load_named_eq_error env (around.home env), ?_, ?_⟩
  . intro e hload
    rw [← hnamed] at hload
    obtain ⟨exited, hexited, hdisk, hcalls⟩ := runInvocation_of_load_error hload
    rw [run_eq_runInvocation henv hparse, hexited] at hresult
    cases hresult
    exact ⟨rfl, hdisk, hcalls⟩
  . intro settings d hload hfree htakes
    have hpath : initPath arguments globals.config? (Settings.userPath env (around.home env)) =
        path := by
      simp [initPath, hlocal, hnamed]
    rw [← hnamed] at hload
    obtain ⟨exited, hexited, hdisk⟩ := runInvocation_init rfl hload hpath hfree htakes
    rw [run_eq_runInvocation henv hparse, hexited] at hresult
    cases hresult
    have hread := htakes.read?_eq hcurrent
    exact ⟨rfl, hdisk, hread, Settings.load_toToml hformat hread hunset⟩

def workplace : Surroundings where
  directory := .ofString "/work"
  accountHome := .ofString "/home/jane"
  year := 2026

def machineAtWork (files : List (String × String)) : Machine where
  disk := {
    nodes := files.foldl (fun nodes (name, content) =>
      nodes.insert [utf8Bytes "work", utf8Bytes name] (.file content false))
      ((∅ : Std.TreeMap Location Node).insert [utf8Bytes "work"] .directory)
    current := [utf8Bytes "work"]
  }

def settingsNamed : Globals where
  config? := some (.ofString "settings.toml")

theorem run_init_named_force
    : ∃ machine', run (Machine.host workplace) CommandLine.pages
        ["--config", "settings.toml", "init", "--force"] (machineAtWork [("settings.toml", "")]) =
          (.exited 0, machine') ∧
      machine'.disk.read? (.ofString "settings.toml") = some (Settings.toToml {}) := by
  let machine := machineAtWork [("settings.toml", "")]
  have hparse : CommandLine.parse (Environment.get? [] "NO_COLOR")
      ["--config", "settings.toml", "init", "--force"] =
        .ok ⟨settingsNamed, .init { isLocal := false, force := true }⟩ := by
    rfl
  have henv : (environment (Machine.host workplace) machine).1 = [] := by
    decide +kernel
  have hload : Settings.load (m := Id) machine.disk.read? [] (workplace.home [])
      (some (.ofString "settings.toml")) = .ok {} := by
    cbv
  have hwrite : machine.disk.writeFile (.ofString "settings.toml") (Settings.toToml {}) =
      .ok (machine.disk.put [utf8Bytes "work", utf8Bytes "settings.toml"]
        (.file (Settings.toToml {}) false)) := by
    cbv
  have hparent : ∀ parent ∈ (Path.ofString "settings.toml").parent?, parent.isEmpty = true := by
    decide +kernel
  obtain ⟨ending, machine', hrun, _, _, hwritten⟩ := run_init_named CommandLine.pages henv (by simp)
    hparse rfl rfl (by decide +kernel) (by decide +kernel)
  obtain ⟨rfl, hdisk, hread, _⟩ := hwritten _ _ hload (Or.inl rfl) (.bare hparent hwrite)
  rw [← hdisk] at hread
  exact ⟨machine', hrun, hread⟩

theorem not_run_init_named_eq_zero
    : ¬∀ (machine : Machine) (d : Disk),
        (environment (Machine.host workplace) machine).1 = [] →
        machine.disk.holds (.ofString "settings.toml") = false →
        machine.disk.Takes (.ofString "settings.toml") (Settings.toToml {}) d →
          (run (Machine.host workplace) CommandLine.pages ["--config", "settings.toml", "init"]
            machine).1 = .exited 0 := by
  intro h
  have hparse : CommandLine.parse (Environment.get? [] "NO_COLOR")
      ["--config", "settings.toml", "init"] =
        .ok ⟨settingsNamed, .init { isLocal := false, force := false }⟩ := by
    rfl
  have henv : (environment (Machine.host workplace) (machineAtWork [])).1 = [] := by
    cbv
  have hload : Settings.load (m := Id) (machineAtWork []).disk.read? [] (workplace.home [])
      (some (.ofString "settings.toml")) = .error ⟨.unreadable, []⟩ := by
    cbv
  have hwrite : (machineAtWork []).disk.writeFile (.ofString "settings.toml") (Settings.toToml {}) =
      .ok ((machineAtWork []).disk.put [utf8Bytes "work", utf8Bytes "settings.toml"]
        (.file (Settings.toToml {}) false)) := by
    cbv
  have hparent : ∀ parent ∈ (Path.ofString "settings.toml").parent?, parent.isEmpty = true := by
    decide +kernel
  obtain ⟨machine', hexited, _⟩ : ∃ machine', runInvocation (Machine.host workplace)
      CommandLine.pages [] ⟨settingsNamed, .init { isLocal := false, force := false }⟩
        (machineAtWork []) = (.exited 4, machine') ∧ _ := runInvocation_of_load_error hload
  have hzero := h _ _ henv (by decide +kernel) (.bare hparent hwrite)
  rw [run_eq_runInvocation henv hparse, hexited] at hzero
  injection hzero with hcode
  exact absurd hcode (by decide)

end Command

end RunnerKit
