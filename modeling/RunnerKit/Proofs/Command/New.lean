import RunnerKit.Proofs.Command.Checks
import RunnerKit.Proofs.Command.Init
import RunnerKit.Proofs.Command.Observed
import RunnerKit.Proofs.Project.Runner
/-!
This module contains what comes of the command that generates a project, on any system. Somebody
who asks for a project is refused, and then no call is made, or accepted. A dry run makes no call
either, and it lists what any other run writes that no call fails.
-/

namespace RunnerKit

namespace Command

section

variable {σ : Type} (s : Session (StateM (Observed σ))) (arguments : NewArguments) (store : Store)

def requested : Except CommandError NewProject :=
  NewProject.ofArguments arguments s.settings (cargoBinDir s.env s.home) s.host.surroundings.year

structure Planned (p : NewProject) (plan : ProjectStructure) : Prop where
  requested_eq : requested s arguments = .ok p
  plan_eq : store.plan p.request = .ok plan

def creating (p : NewProject) : Message :=
  .header ("Creating '" ++ p.request.root.display ++ "'...")

/--
What follows once a project is planned and there is room for it: the exchanges with a storage, the
texts that are written and the result. A storage that is to get the project is asked once more
whether there is something at the root.
-/
inductive Proceeding (holds : Path → Bool) (p : NewProject) (plan : ProjectStructure)
    : List Exchange → List (Channel × String) → Except CommandError Unit → Prop where
  | previewed (hdry : arguments.dryRun = true)
    : Proceeding holds p plan [] (s.texts (p.preview plan)) (.ok ())
  | created {xs : List Exchange} {project : ProjectStructure} (hdry : arguments.dryRun = false)
      (hcourse : Scaffold.Course store p.request arguments.force xs (.ok project))
      (hholds : ∀ path answer, xs.head? = some (.asked path answer) → answer = holds path)
    : Proceeding holds p plan xs (s.texts [creating p] ++ s.texts p.nextSteps) (.ok ())
  | failed {xs : List Exchange} {e : Error} (hdry : arguments.dryRun = false)
      (hcourse : Scaffold.Course store p.request arguments.force xs (.error e))
      (hholds : ∀ path answer, xs.head? = some (.asked path answer) → answer = holds path)
    : Proceeding holds p plan xs (s.texts [creating p]) (.error (.library e))

inductive NewCourse (holds : Path → Bool)
    : List Exchange → List (Channel × String) → Except CommandError Unit → Prop where
  | unasked {e : CommandError} (hrequested : requested s arguments = .error e)
    : NewCourse holds [] [] (.error e)
  | unplanned {p : NewProject} {e : Error} (hrequested : requested s arguments = .ok p)
      (hplan : store.plan p.request = .error e)
    : NewCourse holds [] [] (.error (.library e))
  | occupied {p : NewProject} {plan : ProjectStructure} (hplanned : Planned s arguments store p plan)
      (hforce : arguments.force = false) (hholds : holds p.request.root = true)
    : NewCourse holds [.asked p.request.root true] [] (.error (.projectExists p.request.root))
  | free {p : NewProject} {plan : ProjectStructure} {xs : List Exchange}
      {texts : List (Channel × String)} {result : Except CommandError Unit}
      (hplanned : Planned s arguments store p plan)
      (hfree : arguments.force = true ∨ holds p.request.root = false)
      (h : Proceeding s arguments store holds p plan xs texts result)
    : NewCourse holds (.asked p.request.root (holds p.request.root) :: xs) texts result

variable {s} {arguments} {store} {holds : Path → Bool} {p : NewProject} {plan : ProjectStructure}
  {xs : List Exchange} {texts : List (Channel × String)} {result : Except CommandError Unit}

theorem exists_requested (h : arguments.Usable s.settings s.env s.home)
    : ∃ p, requested s arguments = .ok p ∧ p.Answers arguments s.settings :=
  exists_ofArguments_eq_ok h s.host.surroundings.year

namespace NewCourse

variable (h : NewCourse s arguments store holds xs texts result)
include h

theorem of_requested_error {e : CommandError} (hrequested : requested s arguments = .error e)
    : xs = [] ∧ texts = [] ∧ result = .error e := by
  cases h with
  | unasked hrequested' =>
    cases hrequested.symm.trans hrequested'
    exact ⟨rfl, rfl, rfl⟩
  | unplanned hrequested' => cases hrequested.symm.trans hrequested'
  | occupied hplanned | free hplanned => cases hrequested.symm.trans hplanned.requested_eq

theorem of_plan_error {e : Error} (hrequested : requested s arguments = .ok p)
    (hplan : store.plan p.request = .error e)
    : xs = [] ∧ texts = [] ∧ result = .error (.library e) := by
  cases h with
  | unasked hrequested' => cases hrequested.symm.trans hrequested'
  | unplanned hrequested' hplan' =>
    cases hrequested.symm.trans hrequested'
    cases hplan.symm.trans hplan'
    exact ⟨rfl, rfl, rfl⟩
  | occupied hplanned | free hplanned =>
    cases hrequested.symm.trans hplanned.requested_eq
    cases hplan.symm.trans hplanned.plan_eq

theorem of_planned (hplanned : Planned s arguments store p plan)
    : (arguments.force = false ∧ holds p.request.root = true ∧
        xs = [.asked p.request.root true] ∧ texts = [] ∧
        result = .error (.projectExists p.request.root)) ∨
      (arguments.force = true ∨ holds p.request.root = false) ∧
        ∃ ys, Proceeding s arguments store holds p plan ys texts result ∧
          xs = .asked p.request.root (holds p.request.root) :: ys := by
  cases h with
  | unasked hrequested => cases hrequested.symm.trans hplanned.requested_eq
  | unplanned hrequested hplan =>
    cases hrequested.symm.trans hplanned.requested_eq
    cases hplan.symm.trans hplanned.plan_eq
  | occupied hplanned' hforce hholds =>
    cases hplanned.requested_eq.symm.trans hplanned'.requested_eq
    exact Or.inl ⟨hforce, hholds, rfl, rfl, rfl⟩
  | free hplanned' hfree h =>
    cases hplanned.requested_eq.symm.trans hplanned'.requested_eq
    cases hplanned.plan_eq.symm.trans hplanned'.plan_eq
    exact Or.inr ⟨hfree, _, h, rfl⟩

end NewCourse

section

variable (hstore : Store.withBuiltin = .ok store)
include hstore

theorem Planned.spec (h : Planned s arguments store p plan)
    (husable : arguments.Usable s.settings s.env s.home)
    : p.Answers arguments s.settings ∧ ∃ project : RunnerProject,
        plan = { root := .ofString p.app.lowercase, files := project.files p.app } := by
  obtain ⟨_, hrequested, hanswers⟩ := exists_requested husable
  cases h.requested_eq.symm.trans hrequested
  obtain ⟨_, hplan⟩ | ⟨_, project, hplan⟩ := plan_cases hanswers hstore
  . cases h.plan_eq.symm.trans hplan
  . cases h.plan_eq.symm.trans hplan
    exact ⟨hanswers, project, by rw [hanswers.root_eq_ofString]⟩

theorem exists_planned (husable : arguments.Usable s.settings s.env s.home)
    (hknown : arguments.templateId s.settings ∈ ["runner", "runner-scoped"])
    : ∃ p plan, Planned s arguments store p plan ∧ p.request.root = arguments.root := by
  obtain ⟨p, hrequested, hanswers⟩ := exists_requested husable
  obtain ⟨hunknown, _⟩ | ⟨_, project, hplan⟩ := plan_cases hanswers hstore
  . exact absurd hknown hunknown
  . exact ⟨p, _, ⟨hrequested, hplan⟩, hanswers.root_eq⟩

theorem NewCourse.of_refusal (h : NewCourse s arguments store holds xs texts result)
    {e : CommandError} {code : UInt8}
    (hrefused : arguments.Refusal s.settings s.env s.home holds e code)
    : result = .error e ∧ e.exitCode = code ∧ texts = [] ∧ xs.filterMap Exchange.call? = [] := by
  have hunasked {e : CommandError} (hrequested : requested s arguments = .error e)
      : result = .error e ∧ texts = [] ∧ xs.filterMap Exchange.call? = [] := by
    obtain ⟨rfl, rfl, rfl⟩ := h.of_requested_error hrequested
    exact ⟨rfl, rfl, rfl⟩
  cases hrefused with
  | badName hname =>
    obtain ⟨rfl, rfl, hcalls⟩ := hunasked (ofArguments_of_badName hname _)
    refine ⟨rfl, ?_, rfl, hcalls⟩
    cases hname <;> rfl
  | badYear hname hyear hnegative =>
    obtain ⟨_, hsome, _, herror⟩ | ⟨hpositive, _⟩ :=
      projectYear_cases arguments.year? s.host.surroundings.year
    . cases hyear.symm.trans hsome
      obtain ⟨rfl, rfl, hcalls⟩ := hunasked (ofArguments_of_badYear hname herror _)
      exact ⟨rfl, rfl, rfl, hcalls⟩
    . exact absurd (hpositive _ hyear) (Int.not_lt.mpr hnegative)
  | relativeBinDir hname hyear hdir hrelative =>
    obtain ⟨_, hsome, hnegative, _⟩ | ⟨_, year, hok⟩ :=
      projectYear_cases arguments.year? s.host.surroundings.year
    . exact absurd (hyear _ hsome) (Int.not_lt.mpr hnegative)
    . obtain ⟨rfl, rfl, hcalls⟩ :=
        hunasked (ofArguments_of_relativeBinDir hname hok (projectBinDir_eq hdir) hrelative)
      exact ⟨rfl, rfl, rfl, hcalls⟩
  | unknownTemplate husable hunknown =>
    obtain ⟨p, hrequested, hanswers⟩ := exists_requested husable
    obtain ⟨_, hplan⟩ | ⟨hknown, _⟩ := plan_cases hanswers hstore
    . obtain ⟨rfl, rfl, rfl⟩ := h.of_plan_error hrequested hplan
      exact ⟨rfl, rfl, rfl, rfl⟩
    . exact absurd hknown hunknown
  | occupied husable hknown hforce hholds =>
    obtain ⟨p, plan, hplanned, hroot⟩ := exists_planned hstore husable hknown
    rw [← hroot] at hholds ⊢
    obtain ⟨_, _, rfl, rfl, rfl⟩ | ⟨hfree, _⟩ := h.of_planned hplanned
    . exact ⟨rfl, rfl, rfl, rfl⟩
    . simp [hforce, hholds] at hfree

theorem NewCourse.of_accepted (h : NewCourse s arguments store holds xs texts result)
    (haccepted : arguments.Accepted s.settings s.env s.home holds)
    : ∃ p plan ys, Planned s arguments store p plan ∧
        (arguments.force = true ∨ holds p.request.root = false) ∧
        Proceeding s arguments store holds p plan ys texts result ∧
        xs = .asked p.request.root (holds p.request.root) :: ys := by
  obtain ⟨p, plan, hplanned, hroot⟩ :=
    exists_planned hstore haccepted.usable haccepted.template_mem
  obtain ⟨hforce, hholds, _⟩ | ⟨hfree, ys, hproceeding, hxs⟩ := h.of_planned hplanned
  . have hfree := haccepted.free
    rw [← hroot] at hfree
    simp [hforce, hholds] at hfree
  . exact ⟨p, plan, ys, hplanned, hfree, hproceeding, hxs⟩

end

theorem texts_preview (hquiet : s.globals.quiet = false) (hanswers : p.Answers arguments s.settings)
    (hplan : store.plan p.request = .ok plan)
    : s.texts (p.preview plan) =
      (.output, (Message.info ("Dry run: would create '" ++ asciiLower arguments.name ++
        "' from template '" ++ arguments.templateId s.settings ++ "'")).line s.console.coloured ++ "\n")
        :: (plan.files.map (p.request.root.join ·.path)).map fun path =>
          (.output, "  " ++ path.display ++ "\n") := by
  have hconsole : s.console.quiet = false := hquiet
  have htext (message : Message) : s.console.text? message =
      some (message.line s.console.coloured ++ "\n") := by
    simp [Console.text?, hconsole]
  have hshown : p.request.root.display = asciiLower arguments.name := by
    rw [hanswers.root_eq, NewArguments.root, Path.display_ofString]
  simp [Session.texts, NewProject.preview, htext, Message.line, hshown, hanswers.template_eq,
    ProjectStructure.location, store.root_of_plan hplan]

namespace Proceeding

variable (h : Proceeding s arguments store holds p plan xs texts result)
include h

theorem of_dry (hdry : arguments.dryRun = true)
    : xs = [] ∧ texts = s.texts (p.preview plan) ∧ result = .ok () := by
  cases h with
  | previewed => exact ⟨rfl, rfl, rfl⟩
  | created hreal | failed hreal => simp [hdry] at hreal

theorem keepsTo {project : RunnerProject}
    (hplan : store.plan p.request =
      .ok { root := .ofString p.app.lowercase, files := project.files p.app })
    : ∀ call ∈ xs.filterMap Exchange.call?, call.KeepsTo p.app.lowercase := by
  have hcourse {xs : List Exchange} {result : Except Error ProjectStructure}
      (h : Scaffold.Course store p.request arguments.force xs result)
      : ∀ call ∈ xs.filterMap Exchange.call?, call.KeepsTo p.app.lowercase := by
    intro call hcall
    obtain ⟨_ | _, hexchange, hcall⟩ := List.mem_filterMap.mp hcall
    . cases hcall
      exact h.keepsTo hplan hexchange
    . cases hcall
  cases h with
  | previewed => simp
  | created _ h | failed _ h => exact hcourse h

theorem of_no_failure (hdry : arguments.dryRun = false) (hplan : store.plan p.request = .ok plan)
    (hfree : arguments.force = true ∨ holds p.request.root = false)
    (hdone : ∀ call e, .call call (.error e) ∉ xs)
    : result = .ok () ∧
      (xs.filterMap Exchange.call?).filterMap Call.written? =
        plan.files.map (p.request.root.join ·.path) := by
  have hcourse {xs : List Exchange} {result : Except Error ProjectStructure}
      (h : Scaffold.Course store p.request arguments.force xs result)
      (hholds : ∀ path answer, xs.head? = some (.asked path answer) → answer = holds path)
      (hdone : ∀ call e, .call call (.error e) ∉ xs) := by
    refine h.of_no_failure hplan ?_ hdone
    cases hfree with
    | inl hforce => exact Or.inl hforce
    | inr hroot =>
      right
      intro answer hhead
      rw [hholds _ _ hhead, hroot]
  cases h with
  | previewed hpreview => simp [hdry] at hpreview
  | created _ h hholds => exact ⟨rfl, (hcourse h hholds hdone).2⟩
  | failed _ h hholds => cases (hcourse h hholds hdone).1

end Proceeding

variable {system : System σ} (hhost : s.host = system.host.observed)
include hhost

theorem runNew_does (arguments : NewArguments)
    (hinput : s.host.surroundings.inputIsTerminal = false)
    (hstore : Store.withBuiltin = .ok store) (holds : Path → Bool)
    : system.Does holds (runNew s arguments) (NewCourse s arguments store holds) := by
  unfold runNew
  refine System.Does.ofResult ?_ fun e hrequested => .unasked hrequested
  intro p hrequested
  apply System.Does.tell (Session.told_log hhost p.resolved)
  intro _
  apply System.Does.tell (Session.told_logAll hhost Store.loadEvents)
  intro _
  refine System.Does.ofExcept ?_ fun e herror => nomatch hstore.symm.trans herror
  intro _ hstore'
  cases hstore.symm.trans hstore'
  apply System.Does.tell (Session.told_logAll hhost (store.planEvents p.request))
  intro _
  refine System.Does.ofExcept ?_ fun e hplan => .unplanned hrequested hplan
  intro plan hplan
  have hplanned : Planned s arguments store p plan := ⟨hrequested, hplan⟩
  apply Session.does_holds hhost
  by_cases hoccupied : arguments.force = false ∧ holds p.request.root = true
  . obtain ⟨hforce, hholds⟩ := hoccupied
    rw [if_pos (by simp [hforce, hholds]), hholds]
    exact System.Does.throw (.occupied hplanned hforce hholds)
  . have hfree : arguments.force = true ∨ holds p.request.root = false := by
      simpa [-not_and, not_and_or] using hoccupied
    rw [if_neg (by simpa using hoccupied)]
    cases hdry : arguments.dryRun with
    | true =>
      apply System.Does.told (Session.told_sayAll hhost (p.preview plan))
      intro _
      exact .free hplanned hfree (.previewed hdry)
    | false =>
      -- Nobody is asked to confirm.
      simp only [hinput, Bool.and_false, Bool.false_eq_true, if_false]
      apply System.Does.tell (Session.told_say hhost (creating p))
      intro _
      apply System.Does.tell (Session.told_log hhost p.started)
      intro _
      apply System.Does.bind (Session.does_scaffold hhost store p.request arguments.force)
      . rintro xs _ project ⟨rfl, hholds, outcome, hcourse, hresult⟩ _
        cases outcome with
        | error => cases hresult
        | ok =>
          apply System.Does.told (Session.told_sayAll hhost p.nextSteps)
          intro _
          rw [List.append_nil]
          exact .free hplanned hfree (.created hdry hcourse hholds)
      . rintro xs _ e ⟨rfl, hholds, outcome, hcourse, hresult⟩
        cases outcome with
        | ok => cases hresult
        | error =>
          cases hresult
          simp only [List.nil_append, List.append_nil]
          exact .free hplanned hfree (.failed hdry hcourse hholds)

variable {state : σ} (hload : Settings.load (m := Id) (system.read? state) s.env s.home
    s.globals.config? s.host.surroundings.backend = .ok s.settings)
include hload

theorem runInvocation_observed (pages : Pages) (command : Command)
    : ∃ start, system.Told { inner := state } [] start ∧
        runInvocation s.host pages s.env ⟨s.globals, command⟩ { inner := state } =
          match (dispatch pages s command).run start with
          | (.ok none, t) => (.exited 0, (s.log succeeded t).2)
          | (.ok (some service), t) => (.serving s service, t)
          | (.error e, t) => (.exited e.exitCode, (s.report e t).2) := by
  let unset : Session (StateM (Observed σ)) := { s with settings := {} }
  have hbegun := Session.told_log (s := unset) hhost (begun s.globals) { inner := state }
  refine ⟨_, hbegun, ?_⟩
  generalize hstart : unset.log (begun s.globals) { inner := state } = start at hbegun ⊢
  have hread (path : Path) : s.host.read? path start.2 = (system.read? state path, start.2) := by
    have happly := system.read?_apply path start.2.inner
    rw [hbegun.read?_eq] at happly
    rw [hhost]
    exact congrArg (fun reply => (reply.1, { start.2 with inner := reply.2 })) happly
  have hloaded : Settings.load s.host.read? s.env s.home s.globals.config?
      s.host.surroundings.backend start.2 = (.ok s.settings, start.2) := by
    rw [Settings.load_apply hread, hload]
  apply (bind_apply hstart).trans
  apply (bind_apply hloaded).trans
  generalize hdispatch : (dispatch pages s command).run start.2 = reply
  obtain ⟨result, t⟩ := reply
  apply (bind_apply hdispatch).trans
  match result with
  | .error e => rfl
  | .ok none => rfl
  | .ok (some service) => rfl

theorem runInvocation_new_cases (hinput : s.host.surroundings.inputIsTerminal = false)
    (pages : Pages) (arguments : NewArguments) (hstore : Store.withBuiltin = .ok store)
    : let run := runInvocation s.host pages s.env ⟨s.globals, .new arguments⟩ { inner := state }
      ∃ texts result,
        NewCourse s arguments store (system.holds state) run.2.exchanges texts result ∧
        (∀ x ∈ run.2.exchanges, system.Gives x) ∧
        ((result = .ok () ∧ run.1 = .exited 0 ∧ run.2.written = texts) ∨
          ∃ e, result = .error e ∧ run.1 = .exited e.exitCode ∧
            run.2.written = texts ++ [(.error, s.reported e)]) := by
  intro run
  obtain ⟨start, hstart, hrun⟩ := runInvocation_observed hhost hload pages (.new arguments)
  obtain ⟨xs, texts, hxs, htexts, hgives, hcourse⟩ :=
    runNew_does hhost arguments hinput hstore _ start hstart.holds_eq
  rw [hstart.exchanges_eq] at hxs
  rw [hstart.written_eq] at htexts
  generalize hnew : (runNew s arguments).run start = reply at hxs htexts hcourse
  obtain ⟨result, t⟩ := reply
  simp only [List.nil_append] at hxs htexts
  cases result with
  | ok =>
    have hdispatch : (dispatch pages s (.new arguments)).run start = (.ok none, t) :=
      run_bind_of_ok hnew
    have hend := Session.told_log hhost succeeded t
    rw [hdispatch] at hrun
    rw [show run = _ from hrun, hend.exchanges_eq, hend.written_eq, hxs, htexts, List.append_nil]
    exact ⟨texts, .ok (), hcourse, hgives, Or.inl ⟨rfl, rfl, rfl⟩⟩
  | error e =>
    have hdispatch : (dispatch pages s (.new arguments)).run start = (.error e, t) :=
      run_bind_of_error hnew
    have hend := Session.told_report hhost e t
    rw [hdispatch] at hrun
    rw [show run = _ from hrun, hend.exchanges_eq, hend.written_eq, hxs, htexts]
    exact ⟨texts, .error e, hcourse, hgives, Or.inr ⟨e, rfl, rfl, rfl⟩⟩

variable (hinput : s.host.surroundings.inputIsTerminal = false) (pages : Pages)
include hinput

theorem preview_of_accepted (arguments : NewArguments) (hstore : Store.withBuiltin = .ok store)
    (haccepted : arguments.Accepted s.settings s.env s.home (system.holds state))
    (hdry : arguments.dryRun = true)
    : let run := runInvocation s.host pages s.env ⟨s.globals, .new arguments⟩ { inner := state }
      ∃ p plan, Planned s arguments store p plan ∧
        run.1 = .exited 0 ∧ run.2.calls = [] ∧ run.2.written = s.texts (p.preview plan) := by
  intro run
  obtain ⟨texts, result, hcourse, _, hend⟩ :=
    runInvocation_new_cases hhost hload hinput pages arguments hstore
  obtain ⟨p, plan, ys, hplanned, _, hpreview, hexchanges⟩ :=
    hcourse.of_accepted hstore haccepted
  obtain ⟨rfl, rfl, rfl⟩ := hpreview.of_dry hdry
  obtain ⟨_, hcode, hwritten⟩ | ⟨_, herror, _⟩ := hend
  . refine ⟨p, plan, hplanned, hcode, ?_, hwritten⟩
    rw [Observed.calls, show run.2.exchanges = _ from hexchanges]
    rfl
  . cases herror

theorem creation_of_accepted (arguments : NewArguments) (hstore : Store.withBuiltin = .ok store)
    (haccepted : arguments.Accepted s.settings s.env s.home (system.holds state))
    (hdry : arguments.dryRun = false)
    : let run := runInvocation s.host pages s.env ⟨s.globals, .new arguments⟩ { inner := state }
      ∃ p plan, Planned s arguments store p plan ∧
        (∀ call ∈ run.2.calls, call.KeepsTo (asciiLower arguments.name)) ∧
        ((∀ call e, .call call (.error e) ∉ run.2.exchanges) →
          run.1 = .exited 0 ∧
            run.2.writtenPaths = plan.files.map (p.request.root.join ·.path)) := by
  intro run
  obtain ⟨texts, result, hcourse, _, hend⟩ :=
    runInvocation_new_cases hhost hload hinput pages arguments hstore
  obtain ⟨p, plan, ys, hplanned, hfree, hcreation, hexchanges⟩ :=
    hcourse.of_accepted hstore haccepted
  obtain ⟨hanswers, project, hproject⟩ := hplanned.spec hstore haccepted.usable
  have hplan := hplanned.plan_eq
  have hcalls : run.2.calls = ys.filterMap Exchange.call? := by
    rw [Observed.calls, show run.2.exchanges = _ from hexchanges]
    rfl
  rw [Observed.writtenPaths, hcalls, show run.2.exchanges = _ from hexchanges]
  refine ⟨p, plan, hplanned, ?_, ?_⟩
  . rw [← hanswers.lowercase_eq]
    exact hcreation.keepsTo (hproject ▸ hplan)
  . intro hdone
    have hdone : ∀ call e, .call call (.error e) ∉ ys :=
      fun call e hcall => hdone call e (List.mem_cons_of_mem _ hcall)
    obtain ⟨rfl, hwrites⟩ := hcreation.of_no_failure hdry hplan hfree hdone
    obtain ⟨_, hcode, _⟩ | ⟨_, herror, _⟩ := hend
    . exact ⟨hcode, hwrites⟩
    . cases herror

theorem runInvocation_new (arguments : NewArguments)
    : let run (arguments : NewArguments) :=
        runInvocation s.host pages s.env ⟨s.globals, .new arguments⟩ { inner := state }
      let refused := arguments.Refusal s.settings s.env s.home (system.holds state)
      let accepted := arguments.Accepted s.settings s.env s.home (system.holds state)
      ((∃ e code, refused e code) ∨ accepted) ∧
      (∀ e code, refused e code →
        (run arguments).1 = .exited code ∧ (run arguments).2.calls = [] ∧
        (run arguments).2.written = [(.error, s.reported e)]) ∧
      (accepted →
        let preview := run { arguments with dryRun := true }
        let real := run { arguments with dryRun := false }
        (preview.1 = .exited 0 ∧ preview.2.calls = []) ∧
        (∀ call ∈ real.2.calls, call.KeepsTo (asciiLower arguments.name)) ∧
        ((∀ call e, .call call (.error e) ∉ real.2.exchanges) →
          real.1 = .exited 0 ∧
          (∀ path ∈ real.2.writtenPaths, .ofString path.display = path) ∧
          (s.globals.quiet = false →
            preview.2.written =
              (.output, (Message.info ("Dry run: would create '" ++ asciiLower arguments.name ++
                "' from template '" ++ arguments.templateId s.settings ++ "'")).line
                  s.console.coloured ++ "\n")
                :: real.2.writtenPaths.map fun path =>
                  (.output, "  " ++ path.display ++ "\n")))) := by
  obtain ⟨store, hstore, _⟩ := Store.Origin.builtin.exists_store
  intro run refused accepted
  refine ⟨refusal_or_accepted arguments s.settings s.env s.home _, ?_, ?_⟩
  . intro e code hrefused
    obtain ⟨texts, result, hcourse, _, hend⟩ :=
      runInvocation_new_cases hhost hload hinput pages arguments hstore
    obtain ⟨rfl, rfl, rfl, hcalls⟩ := hcourse.of_refusal hstore hrefused
    obtain ⟨hok, _⟩ | ⟨_, herror, hcode, hwritten⟩ := hend
    . cases hok
    . cases herror
      exact ⟨hcode, hcalls, hwritten⟩
  . intro haccepted preview real
    obtain ⟨p, plan, hplanned, hcode, hnone, hlisted⟩ := preview_of_accepted hhost hload hinput pages
      { arguments with dryRun := true } hstore (haccepted.withDryRun true) rfl
    obtain ⟨p', plan', hplanned', hkeeps, hdone⟩ := creation_of_accepted hhost hload hinput pages
      { arguments with dryRun := false } hstore (haccepted.withDryRun false) rfl
    -- Both runs plan the same project.
    cases hplanned.requested_eq.symm.trans hplanned'.requested_eq
    cases hplanned.plan_eq.symm.trans hplanned'.plan_eq
    obtain ⟨hanswers, project, hproject⟩ :=
      hplanned.spec hstore (haccepted.withDryRun true).usable
    refine ⟨⟨hcode, hnone⟩, hkeeps, ?_⟩
    intro hdone'
    obtain ⟨hcode', hwrites⟩ := hdone hdone'
    rw [show real.2.writtenPaths = _ from hwrites]
    refine ⟨hcode', ?_, ?_⟩
    . intro path hpath
      obtain ⟨file, hfile, rfl⟩ := List.mem_map.mp hpath
      rw [hproject] at hfile
      rw [hanswers.root_eq_ofString]
      exact project.ofString_display_join hfile
    . intro hquiet
      have hlines := texts_preview hquiet hanswers hplanned.plan_eq
      exact hlisted.trans hlines

end

section

def obligingSystem : System Unit where
  host := {
    surroundings := workplace
    attempt _ := return .ok ()
    holds _ := return false
    read? _ := return none
    write _ _ := return ()
    record _ _ := return ()
    key? := return none
    bus := { connect := return .ok (), requestName _ := return .granted }
  }
  holds _ _ := false
  read? _ _ := none
  holds_apply _ _ := rfl
  read?_apply _ _ := rfl
  holds_write _ _ _ := rfl
  read?_write _ _ _ := rfl
  holds_record _ _ _ := rfl
  read?_record _ _ _ := rfl

theorem obligingSystem_ne_error {x : Exchange} (h : obligingSystem.Gives x) (call : Call) (e : Error)
    : x ≠ .call call (.error e) := by
  intro hx
  cases h with
  | call | asked => cases hx

def helloSession {σ : Type} (system : System σ) : Session (StateM (Observed σ)) where
  host := system.host.observed
  env := []
  globals := {}

def helloArguments : NewArguments where
  name := "Hello"
  template? := none
  author? := none
  email? := none
  year? := none
  binDir? := none
  yes := false
  force := false
  dryRun := false

theorem usable_helloArguments : helloArguments.Usable {} [] (workplace.home []) where
  name := ⟨helloApp, .named rfl helloApp.isIdentifier_text helloApp.utf8ByteSize_text_le⟩
  year := nofun
  binDir := by
    refine ⟨_, .userHome rfl rfl nofun rfl, ?_⟩
    rintro _ ⟨⟩
    decide +kernel

theorem runInvocation_new_hello :
    let outcome {σ : Type} (system : System σ) (state : σ) (dryRun : Bool) :=
      runInvocation system.host.observed CommandLine.pages []
        ⟨{}, .new { helloArguments with dryRun }⟩ { inner := state }
    let blocked := outcome (Machine.system workplace) (machineAtWork [("hello", "")]) false
    let preview := outcome obligingSystem () true
    let real := outcome obligingSystem () false
    blocked.1 = .exited 2 ∧ blocked.2.calls = [] ∧
    preview.1 = .exited 0 ∧ preview.2.calls = [] ∧
    real.1 = .exited 0 ∧ (∀ call ∈ real.2.calls, call.KeepsTo "hello") ∧
    preview.2.written =
      (.output, "ℹ Dry run: would create 'hello' from template 'runner'\n")
        :: real.2.writtenPaths.map fun path => (.output, "  " ++ path.display ++ "\n") := by
  intro outcome blocked preview real
  have hload : Settings.load (m := Id) (obligingSystem.read? ()) [] (workplace.home []) none =
      .ok {} := by
    cbv
  have hload' : Settings.load (m := Id) (machineAtWork [("hello", "")]).disk.read? []
      (workplace.home []) none = .ok {} := by
    cbv
  have hhost {σ : Type} (system : System σ)
      : (helloSession system).host = system.host.observed := rfl
  have haccepted : helloArguments.Accepted {} [] (workplace.home []) (obligingSystem.holds ()) :=
    ⟨usable_helloArguments, List.mem_cons_self, Or.inr rfl⟩
  have hrefused : helloArguments.Refusal {} [] (workplace.home [])
      (machineAtWork [("hello", "")]).disk.holds (.projectExists helloArguments.root) 2 :=
    .occupied usable_helloArguments List.mem_cons_self rfl (by decide +kernel)
  obtain ⟨_, hblocked, _⟩ := runInvocation_new (hhost (Machine.system workplace)) hload' rfl
    CommandLine.pages helloArguments
  obtain ⟨hcode, hnone, _⟩ := hblocked _ _ hrefused
  obtain ⟨_, _, hproceeds⟩ := runInvocation_new (hhost obligingSystem) hload rfl CommandLine.pages
    helloArguments
  obtain ⟨⟨hcode', hnone'⟩, hkeeps, hdone⟩ := hproceeds haccepted
  obtain ⟨store, hstore, _⟩ := Store.Origin.builtin.exists_store
  obtain ⟨_, _, _, hgives, _⟩ := runInvocation_new_cases (hhost obligingSystem) hload rfl
    CommandLine.pages helloArguments hstore
  have hname : asciiLower helloArguments.name = "hello" := by rfl
  have hline : (Message.info ("Dry run: would create '" ++ "hello" ++ "' from template '" ++
      helloArguments.templateId {} ++ "'")).line (helloSession obligingSystem).console.coloured ++ "\n" =
        "ℹ Dry run: would create 'hello' from template 'runner'\n" := by
    rfl
  rw [hname] at hkeeps hdone
  obtain ⟨hcode'', _, hlisted⟩ := hdone fun call e hcall =>
    obligingSystem_ne_error (hgives _ hcall) call e rfl
  refine ⟨hcode, hnone, hcode', hnone', hcode'', hkeeps, (hlisted rfl).trans ?_⟩
  exact congrArg (fun line => (Channel.output, line) :: _) hline

end

end Command

end RunnerKit
