import RunnerKit.Proofs.Command.Colour
import RunnerKit.Proofs.Command.New
import RunnerKit.Proofs.Command.Pairs
import RunnerKit.Proofs.CommandLine.Quiet
/-!
This module contains what `--quiet` changes in a run of the program. Every command except the service
is run twice from the same machine, once as it is asked for and once quietly.
-/

namespace RunnerKit

namespace Session

def quietly {m : Type → Type} (s : Session m) : Session m :=
  { s with globals := { s.globals with quiet := true } }

section

variable {around : Surroundings} {s : Session (StateM Machine)}
  (hhost : s.host = Machine.host around)
include hhost

theorem log_paired (event event' : Event)
    : PairedAside (s.log event) (s.quietly.log event') := by
  -- What the log shows may be different, and so may the events be, but machines that are alike may
  -- differ in their logs.
  rintro coloured machine _ ⟨output, records, rfl⟩
  unfold log
  rw [show s.quietly.host = s.host from rfl, hhost]
  split <;> split <;> exact ⟨[], rfl, .silent ⟨output, _, rfl⟩ rfl rfl, rfl⟩

theorem logAll_paired (events : List Event)
    : PairedAside (s.logAll events) (s.quietly.logAll events) :=
  Paired.forM (fun event => log_paired hhost event event) events

theorem say_paired (message : Message)
    : Paired s.console.coloured (s.say message) (s.quietly.say message) fun said _ =>
        said = [.message message].filter Utterance.isPayload := by
  have hcoloured : s.quietly.console.coloured = s.console.coloured := rfl
  have hquiet : s.quietly.console.quiet = true := rfl
  unfold say Console.text?
  rw [show s.quietly.host = s.host from rfl, hhost, hquiet, hcoloured, List.filter_singleton,
    Utterance.isPayload]
  cases hpayload : message.isPayload with
  | true =>
    simp only [Bool.not_true, Bool.and_false, Bool.false_eq_true, if_false]
    exact Paired.writePayload around _ (show (Utterance.message message).isPayload from hpayload)
  | false =>
    have haside : (Utterance.message message).isPayload = false := hpayload
    cases s.console.quiet with
    | true => exact .pure rfl
    | false => exact Paired.writeAside around _ haside

theorem sayAll_paired (messages : List Message)
    : Paired s.console.coloured (s.sayAll messages) (s.quietly.sayAll messages) fun said _ =>
        said = (messages.map Utterance.message).filter Utterance.isPayload := by
  unfold sayAll
  induction messages with
  | nil => exact .pure rfl
  | cons message messages ih =>
    apply (say_paired hhost message).bind
    rintro _ _ rfl
    apply ih.mono
    rintro _ _ rfl
    rw [← List.filter_append]
    rfl

theorem report_paired (e : CommandError) : PairedAside (s.report e) (s.quietly.report e) := by
  intro coloured
  unfold report
  rw [show s.quietly.host = s.host from rfl, hhost]
  apply Paired.aside (logAll_paired hhost e.events)
  intro _
  exact Paired.writeError around _ coloured

theorem holds_paired (path : Path)
    : PairedAside (s.host.holds path) (s.quietly.host.holds path) := by
  rw [show s.quietly.host = s.host from rfl, hhost]
  exact Paired.holds around path

theorem attempt_paired (call : Call)
    : PairedAside (s.host.attempt call) (s.quietly.host.attempt call) := by
  rw [show s.quietly.host = s.host from rfl, hhost]
  exact Paired.attempt around call

theorem scaffold_paired (store : Store) (request : ScaffoldRequest) (overwrite : Bool)
    : PairedAside (Scaffold.run s.host.filesystem s.log store request overwrite)
        (Scaffold.run s.quietly.host.filesystem s.quietly.log store request overwrite) := by
  have hlog (event : Event) := log_paired hhost event event
  rw [show s.quietly.host = s.host from rfl, hhost]
  exact Paired.scaffold around hlog store request overwrite

end

end Session

namespace Command

def listingPayload (infos : List TemplateInfo) : ListFormat → List Utterance
  | .table => []
  | .list => infos.map fun info => .message (.data info.id)
  | .json => [.message (.data (jsonListing infos))]

theorem filter_listing (format : ListFormat) (infos : List TemplateInfo)
    : ((listing format infos).map Utterance.message).filter Utterance.isPayload =
      listingPayload infos format := by
  cases format with
  | table => simp [listing, listingPayload, Utterance.isPayload, Message.isPayload]
  | list =>
    have hall : ∀ utterance ∈ listingPayload infos .list, utterance.isPayload := by
      intro utterance hutterance
      obtain ⟨info, _, rfl⟩ := List.mem_map.mp hutterance
      rfl
    rw [listing, List.map_map]
    exact List.filter_eq_self.mpr hall
  | json => rfl

/--
What a command is asked for. It is written even if nothing else is.
-/
def payload {m : Type → Type} (pages : Pages) (s : Session m) : Command → List Utterance
  | .list format? =>
    match Store.withBuiltin with
    | .ok store => listingPayload store.infos (listFormat format? s.console.format)
    | .error _ => []
  | .config (.get key) => (s.settings.get? key).toList.map fun value => .message (.data value)
  | .config .path => [.message (.data (s.globals.config?.getD s.configPath).display)]
  | .completions shell => [.script (pages.completions shell)]
  | .config .list | .serve _ | .new _ | .init _ => []

section

variable {around : Surroundings} {s : Session (StateM Machine)}
  (hhost : s.host = Machine.host around)
include hhost

theorem runNew_paired (hinput : s.host.surroundings.inputIsTerminal = false)
    (arguments : NewArguments)
    : Paired s.console.coloured (runNew s arguments).run (runNew s.quietly arguments).run
        fun said _ => said = [] := by
  unfold runNew
  refine Paired.ofResult ?_ fun _ _ => rfl
  intro p _
  apply Paired.aside_run (Session.log_paired hhost p.resolved p.resolved)
  intro _
  apply Paired.aside_run (Session.logAll_paired hhost Store.loadEvents)
  intro _
  refine Paired.ofResult ?_ fun _ _ => rfl
  intro store _
  apply Paired.aside_run (Session.logAll_paired hhost (store.planEvents p.request))
  intro _
  refine Paired.ofResult ?_ fun _ _ => rfl
  intro plan _
  apply Paired.aside_run (Session.holds_paired hhost p.request.root)
  intro there
  by_cases hoccupied : (!arguments.force && there) = true
  . rw [if_pos hoccupied, if_pos hoccupied]
    exact Paired.pure (P := fun said _ => said = []) rfl
  rw [if_neg hoccupied, if_neg hoccupied]
  cases hdry : arguments.dryRun with
  | true =>
    apply Paired.last_run (Session.sayAll_paired hhost (p.preview plan))
    rintro _ _ rfl
    simp [NewProject.preview, Utterance.isPayload, Message.isPayload]
  | false =>
    have hinput' : s.quietly.host.surroundings.inputIsTerminal = false := hinput
    -- Nobody is asked to confirm.
    simp only [hinput, hinput', Bool.and_false, Bool.false_eq_true, if_false]
    apply Paired.lift_run (Session.say_paired hhost _)
    rintro _ _ rfl
    apply Paired.aside_run (Session.log_paired hhost p.started p.started)
    intro _
    refine Paired.bind_run (P := fun said _ => said = []) ?_ ?_ ?_
    . apply Paired.aside (Session.scaffold_paired hhost store p.request arguments.force)
      intro result
      exact .pure rfl
    . rintro _ _ rfl
      apply Paired.last_run (Session.sayAll_paired hhost p.nextSteps)
      rintro _ _ rfl
      rfl
    . rintro _ _ rfl
      rfl

theorem attemptOr_paired (call : Call) (message : String)
    : PairedAside (attemptOr s call message).run (attemptOr s.quietly call message).run := by
  intro coloured
  apply Paired.aside (Session.attempt_paired hhost call)
  intro answer
  exact .pure rfl

theorem runInit_paired (arguments : InitArguments)
    : Paired s.console.coloured (runInit s arguments).run (runInit s.quietly arguments).run
        fun said _ => said = [] := by
  unfold runInit
  rw [show s.quietly.globals.config? = s.globals.config? from rfl,
    show s.quietly.configPath = s.configPath from rfl]
  generalize initPath arguments s.globals.config? s.configPath = path
  have hwritten : Paired s.console.coloured
      (do
        attemptOr s (.writeFile path (Settings.toToml {}))
          ("Failed to write config to '" ++ path.display ++ "'")
        s.say (.success ("Configuration created at " ++ path.display)) :
          Task (StateM Machine) Unit).run
      (do
        attemptOr s.quietly (.writeFile path (Settings.toToml {}))
          ("Failed to write config to '" ++ path.display ++ "'")
        s.quietly.say (.success ("Configuration created at " ++ path.display)) :
          Task (StateM Machine) Unit).run
      fun said _ => said = [] := by
    apply Paired.bind_run (attemptOr_paired hhost _ _ _)
    . rintro _ _ rfl
      apply Paired.last_run (Session.say_paired hhost _)
      rintro _ _ rfl
      rfl
    . rintro _ _ rfl
      rfl
  apply Paired.aside_run (Session.holds_paired hhost path)
  intro there
  by_cases hkept : (!arguments.force && there) = true
  . rw [if_pos hkept, if_pos hkept]
    apply Paired.last_run (Session.say_paired hhost _)
    rintro _ _ rfl
    rfl
  rw [if_neg hkept, if_neg hkept]
  cases path.parent? with
  | none => exact hwritten
  | some parent =>
    cases hparent : parent.isEmpty with
    | true =>
      simp only [hparent]
      exact hwritten
    | false =>
      simp only [hparent]
      apply Paired.bind_run (attemptOr_paired hhost _ _ _)
      . rintro _ _ rfl
        exact hwritten
      . rintro _ _ rfl
        rfl

theorem runList_paired (pages : Pages) (format? : Option ListFormat)
    : Paired s.console.coloured (runList s format?).run (runList s.quietly format?).run
        fun said _ => said = payload pages s (.list format?) := by
  unfold runList
  apply Paired.aside_run (Session.logAll_paired hhost Store.loadEvents)
  intro _
  unfold payload
  cases Store.withBuiltin with
  | error e => exact .pure rfl
  | ok store =>
    apply Paired.last_run (Session.sayAll_paired hhost _)
    rintro _ _ rfl
    exact filter_listing _ _

theorem runConfig_paired (pages : Pages) (command : ConfigCommand)
    : Paired s.console.coloured (runConfig s command).run (runConfig s.quietly command).run
        fun said _ => said = payload pages s (.config command) := by
  cases command with
  | get key =>
    simp only [runConfig, payload, show s.quietly.settings = s.settings from rfl]
    cases s.settings.get? key with
    | none => exact Paired.pure (P := fun said _ => said = []) rfl
    | some value =>
      apply Paired.last_run (Session.say_paired hhost _)
      rintro _ _ rfl
      rfl
  | list =>
    apply Paired.last_run (Session.sayAll_paired hhost _)
    rintro _ _ rfl
    rfl
  | path =>
    apply Paired.last_run (Session.say_paired hhost _)
    rintro _ _ rfl
    rfl

theorem dispatch_paired (hinput : s.host.surroundings.inputIsTerminal = false) (pages : Pages)
    {command : Command} (hserve : ∀ arguments, command ≠ .serve arguments)
    : Paired s.console.coloured (dispatch pages s command).run
        (dispatch pages s.quietly command).run fun said result =>
          said = payload pages s command ∧ ∀ service, result ≠ .ok (some service) := by
  have hdone {x x' : Task (StateM Machine) Unit} {payload : List Utterance}
      (h : Paired s.console.coloured x.run x'.run fun said _ => said = payload)
      : Paired s.console.coloured
          (do x; return none : Task (StateM Machine) (Option ServiceIdentity)).run
          (do x'; return none : Task (StateM Machine) (Option ServiceIdentity)).run
          fun said result => said = payload ∧ ∀ service, result ≠ .ok (some service) := by
    apply h.bind_run
    . rintro _ _ rfl
      exact .pure (by simp)
    . rintro _ _ rfl
      simp
  cases command with
  | serve arguments => exact absurd rfl (hserve arguments)
  | new arguments => exact hdone (runNew_paired hhost hinput arguments)
  | list format? => exact hdone (runList_paired hhost pages format?)
  | init arguments => exact hdone (runInit_paired hhost arguments)
  | config command => exact hdone (runConfig_paired hhost pages command)
  | completions shell =>
    apply hdone
    apply Paired.last_run (P := fun said _ => said = [.script (pages.completions shell)])
    . rw [show s.quietly.host = s.host from rfl, hhost]
      exact Paired.writePayload around _ (show (Utterance.script _).isPayload from rfl)
    . rintro _ _ rfl
      rfl

theorem fail_paired (e : CommandError) (coloured : Bool)
    : Paired coloured (fail s e) (fail s.quietly e) fun said ending =>
        said = [] ∧ ending = .exited e.exitCode := by
  apply Paired.aside (Session.report_paired hhost e)
  intro _
  exact .pure ⟨rfl, rfl⟩

end

theorem carryOut_paired {around : Surroundings} {s : Session (StateM Machine)}
    (hhost : s.host = Machine.host around) (hinput : s.host.surroundings.inputIsTerminal = false)
    (pages : Pages) {command : Command} (hserve : ∀ arguments, command ≠ .serve arguments)
    : Paired s.console.coloured (carryOut pages s command) (carryOut pages s.quietly command)
        fun said ending => said = payload pages s command ∧ ∃ code, ending = .exited code := by
  apply (dispatch_paired hhost hinput pages hserve).bind
  rintro _ result ⟨rfl, hnone⟩
  match result with
  | .error e =>
    apply (fail_paired hhost e _).mono
    rintro _ _ ⟨rfl, rfl⟩
    exact ⟨List.append_nil _, _, rfl⟩
  | .ok (some service) => exact absurd rfl (hnone service)
  | .ok none =>
    apply Paired.aside (Session.log_paired hhost succeeded succeeded)
    intro _
    exact .pure ⟨List.append_nil _, 0, rfl⟩

structure Hushed (coloured : Bool) (payload : List Utterance) (machine : Machine)
    (loud quiet : Ending (StateM Machine) × Machine) : Prop where
  exited : ∃ code, loud.1 = .exited code ∧ quiet.1 = .exited code
  told : ∃ utterances, utterances.filter Utterance.isPayload = payload ∧
    Machine.Tells coloured machine machine utterances loud.2 quiet.2

theorem hushed_of_paired {coloured : Bool} {x x' : StateM Machine (Ending (StateM Machine))}
    {payload : List Utterance}
    (h : Paired coloured x x' fun said ending => said = payload ∧ ∃ code, ending = .exited code)
    {machine after after' : Machine} {silence : List Utterance}
    (hbefore : Machine.Tells coloured machine machine silence after after')
    (hsilence : silence.filter Utterance.isPayload = [])
    : Hushed coloured payload machine (x after) (x' after') := by
  obtain ⟨utterances, hsame, htells, hpayload, code, hcode⟩ := h after after' hbefore.alike
  refine ⟨⟨code, hcode, hsame.trans hcode⟩, silence ++ utterances, ?_, hbefore.trans htells⟩
  rw [List.filter_append, hsilence, hpayload, List.nil_append]

section

variable {around : Surroundings} (pages : Pages) {machine : Machine} {env : Environment}
  {inv : Invocation}

theorem hushed_of_load_error {e : Settings.LoadError}
    (hload : Settings.load (m := Id) machine.disk.read? env (around.home env) inv.globals.config?
      around.backend = .error e)
    : Hushed false [] machine (runInvocation (Machine.host around) pages env inv machine)
        (runInvocation (Machine.host around) pages env inv.quietly machine) := by
  let s : Session (StateM Machine) := { host := Machine.host around, env, globals := inv.globals }
  have hhost : s.host = Machine.host around := rfl
  obtain ⟨silence, _, hbegun, hsilence⟩ :=
    Session.log_paired hhost (begun s.globals) (begun s.quietly.globals) false machine machine
      (.refl machine)
  have hloud := runInvocation_apply pages hhost rfl inv.command hload
  have hquiet := runInvocation_apply (s := s.quietly) pages hhost rfl inv.command hload
  rw [show runInvocation (Machine.host around) pages env inv machine = _ from hloud,
    show runInvocation (Machine.host around) pages env inv.quietly machine = _ from hquiet]
  refine hushed_of_paired ?_ hbegun hsilence
  apply (fail_paired hhost _ false).mono
  rintro _ _ ⟨rfl, rfl⟩
  exact ⟨rfl, _, rfl⟩

theorem hushed_of_load_ok {settings : Settings}
    (hload : Settings.load (m := Id) machine.disk.read? env (around.home env) inv.globals.config?
      around.backend = .ok settings)
    (hinput : around.inputIsTerminal = false)
    (hserve : ∀ arguments, inv.command ≠ .serve arguments)
    : let s : Session (StateM Machine) :=
        { host := Machine.host around, env, globals := inv.globals, settings }
      Hushed s.console.coloured (payload pages s inv.command) machine
        (runInvocation (Machine.host around) pages env inv machine)
        (runInvocation (Machine.host around) pages env inv.quietly machine) := by
  intro s
  let unset : Session (StateM Machine) := { s with settings := {} }
  have hhost : unset.host = Machine.host around := rfl
  obtain ⟨silence, _, hbegun, hsilence⟩ :=
    Session.log_paired hhost (begun s.globals) (begun s.quietly.globals) s.console.coloured machine
      machine (.refl machine)
  have hloud := runInvocation_apply pages hhost rfl inv.command hload
  have hquiet := runInvocation_apply (s := unset.quietly) pages hhost rfl inv.command hload
  rw [show runInvocation (Machine.host around) pages env inv machine = _ from hloud,
    show runInvocation (Machine.host around) pages env inv.quietly machine = _ from hquiet]
  exact hushed_of_paired (carryOut_paired (s := s) rfl hinput pages hserve) hbegun hsilence

end

theorem answerUsage_eq_of_akin {m : Type → Type} [Monad m] (host : Host m) (pages : Pages)
    {fault fault' : UsageFault} (h : fault.Akin fault')
    : answerUsage host pages fault' = answerUsage host pages fault := by
  obtain rfl | ⟨rfl, rfl⟩ := h <;> rfl

theorem run_quietly (pages : Pages) {around : Surroundings} {machine : Machine} {env : Environment}
    (henv : (environment (Machine.host around) machine).1 = env)
    (hinput : around.inputIsTerminal = false) (words : List String)
    : let noColour? := env.get? "NO_COLOR"
      let run (words : List String) := run (Machine.host around) pages words machine
      (∀ inv, CommandLine.parse noColour? words = .ok inv → inv.globals.verbose = 0 →
        (∀ arguments, inv.command ≠ .serve arguments) →
        (if CommandLine.quietAtFirst noColour? words then inv.quietly = inv
          else CommandLine.parse noColour? ("--quiet" :: words) = .ok inv.quietly) ∧
        ∀ words', CommandLine.parse noColour? words' = .ok inv.quietly →
          match Settings.load (m := Id) machine.disk.read? env (around.home env)
              inv.globals.config? around.backend with
          | .error _ => Hushed false [] machine (run words) (run words')
          | .ok settings =>
            let s : Session (StateM Machine) :=
              { host := Machine.host around, env, globals := inv.globals, settings }
            Hushed s.console.coloured (payload pages s inv.command) machine (run words)
              (run words')) ∧
      ∀ fault, CommandLine.parse noColour? words = .error fault →
        run ("--quiet" :: words) = run words ∨
        fault.isAnswer = true ∧
          CommandLine.parse noColour? ("--quiet" :: words) = .error .conflict := by
  intro noColour? run
  constructor
  . intro inv hparse hverbose hserve
    constructor
    . split
      . next hfirst => exact CommandLine.quietly_eq_of_quietAtFirst hfirst hparse
      . next hfirst =>
        exact CommandLine.parse_quiet hparse hverbose (Bool.eq_false_of_not_eq_true hfirst)
    . intro words' hparse'
      have hloud : run words = _ := run_eq_runInvocation henv hparse
      have hquiet : run words' = _ := run_eq_runInvocation henv hparse'
      rw [hloud, hquiet]
      split
      . next hload => exact hushed_of_load_error pages hload
      . next hload => exact hushed_of_load_ok pages hload hinput hserve
  . intro fault hparse
    have hloud : run words = _ := run_eq_answerUsage pages henv hparse
    obtain ⟨fault', hparse', hakin⟩ | hconflict := CommandLine.akin_or_conflict_of_parse hparse
    . left
      have hquiet : run ("--quiet" :: words) = _ := run_eq_answerUsage pages henv hparse'
      rw [hloud, hquiet, answerUsage_eq_of_akin _ _ hakin]
    . cases hanswer : fault.isAnswer with
      | true => exact Or.inr ⟨rfl, hconflict⟩
      | false =>
        left
        have hloud : run words = _ := run_of_usageFault henv hparse hanswer
        have hquiet : run ("--quiet" :: words) = _ := run_of_usageFault henv hconflict rfl
        rw [hloud, hquiet]

theorem run_quietly_new
    : let run (words : List String) :=
        run (Machine.host workplace) CommandLine.pages words (machineAtWork [])
      let loud := run ["new", "Hello"]
      let quiet := run ["--quiet", "new", "Hello"]
      (∃ code, loud.1 = .exited code ∧ quiet.1 = .exited code) ∧
        quiet.2.disk = loud.2.disk ∧ quiet.2.calls = loud.2.calls ∧ quiet.2.output = "" := by
  intro run loud quiet
  have henv : (environment (Machine.host workplace) (machineAtWork [])).1 = [] := by
    decide +kernel
  have hparse : CommandLine.parse (Environment.get? [] "NO_COLOR") ["new", "Hello"] =
      .ok ⟨{}, .new helloArguments⟩ := by
    rfl
  have hfirst : CommandLine.quietAtFirst (Environment.get? [] "NO_COLOR") ["new", "Hello"] =
      false := by
    rfl
  have hload : Settings.load (m := Id) (machineAtWork []).disk.read? [] (workplace.home []) none
      workplace.backend = .ok {} := by
    cbv
  obtain ⟨hunderstood, _⟩ := run_quietly CommandLine.pages henv rfl ["new", "Hello"]
  obtain ⟨hadded, hhushed⟩ := hunderstood _ hparse rfl (fun _ hserve => by cases hserve)
  simp only [hfirst, Bool.false_eq_true, if_false] at hadded
  have hhushed := hhushed _ hadded
  rw [hload] at hhushed
  obtain ⟨hexited, utterances, hpayload, halike, _, houtput⟩ := hhushed
  rw [hpayload] at houtput
  exact ⟨hexited, halike.disk_eq.1, halike.disk_eq.2, houtput⟩

end Command

end RunnerKit
