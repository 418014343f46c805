import RunnerKit.Proofs.Command.Init
import RunnerKit.Proofs.CommandLine.Flag
/-!
This module contains what a run of the program makes of the variable `NO_COLOR`. It is a flag that
has to say `true` or `false`: with any other value most command lines are not even run.
-/

namespace RunnerKit

namespace Command

open CommandLine (parse flaggedAtFirst flaggedThroughout)

theorem run_eq_answerUsage (pages : Pages) {around : Surroundings} {env : Environment}
    {machine : Machine} {words : List String} {fault : UsageFault}
    (henv : (environment (Machine.host around) machine).1 = env)
    (hparse : parse (env.get? "NO_COLOR") words = .error fault)
    : run (Machine.host around) pages words machine =
      answerUsage (Machine.host around) pages fault machine := by
  have henvironment := environment_apply around machine
  rw [henv] at henvironment
  refine (bind_apply henvironment).trans ?_
  rw [hparse]

theorem run_of_usageFault {around : Surroundings} {pages : Pages} {env : Environment}
    {machine : Machine} {words : List String} {fault : UsageFault}
    (henv : (environment (Machine.host around) machine).1 = env)
    (hparse : parse (env.get? "NO_COLOR") words = .error fault) (hfault : fault.isAnswer = false)
    : run (Machine.host around) pages words machine =
      (.exited 2, machine.write .error pages.usage) := by
  rw [run_eq_answerUsage pages henv hparse]
  have hversion : fault ≠ .version := by
    rintro rfl
    cases hfault
  simp only [answerUsage, if_neg hversion, UsageFault.exitCode, hfault]
  rfl

theorem run_eq_of_colour_variable (pages : Pages) {around : Surroundings} {machine : Machine}
    {env : Environment} {words : List String} {inv : Invocation} {v : String}
    (henv : (environment (Machine.host around) machine).1 = env)
    (hvariable : env.get? "NO_COLOR" = some v) (hparse : parse none words = .ok inv)
    : (parse (some v) words = .ok inv.withoutColour ↔
        v = "true" ∨ inv.globals.noColour = true ∧ (v = "false" ∨ flaggedThroughout words)) ∧
      (flaggedAtFirst words ∨ flaggedThroughout words → inv.globals.noColour = true) ∧
      run (Machine.host around) pages words machine =
        (if v = "true" then runInvocation (Machine.host around) pages env inv.withoutColour machine
        else if v = "false" ∨ flaggedThroughout words then
          runInvocation (Machine.host around) pages env inv machine
        else (.exited 2, machine.write .error pages.usage)) ∧
      (v = "true" → flaggedAtFirst words = false →
        parse (some v) words = parse none ("--no-color" :: words) ∧
        run (Machine.host around) pages words machine =
          run (Machine.host around) pages ("--no-color" :: words) machine) := by
  have hread := CommandLine.parse_some hparse v
  rw [← hvariable] at hread
  refine ⟨CommandLine.parse_some_eq_withoutColour_iff hparse, ?_, ?_, ?_⟩
  . rintro (hflagged | hflagged)
    . exact CommandLine.noColour_of_flaggedAtFirst hflagged hparse
    . exact CommandLine.noColour_of_flaggedThroughout hflagged hparse
  . by_cases htrue : v = "true"
    . rw [if_pos htrue] at hread ⊢
      exact run_eq_runInvocation henv hread
    by_cases hnothing : v = "false" ∨ flaggedThroughout words
    . rw [if_neg htrue, if_pos hnothing] at hread ⊢
      exact run_eq_runInvocation henv hread
    . rw [if_neg htrue, if_neg hnothing] at hread ⊢
      exact run_of_usageFault henv hread rfl
  . intro htrue hfirst
    have hflag := CommandLine.parse_flag hparse hfirst
    have hread' := CommandLine.parse_some hflag v
    rw [← hvariable] at hread'
    rw [if_pos htrue] at hread hread'
    refine ⟨?_, ?_⟩
    . rw [← hvariable, hread, hflag]
    . rw [run_eq_runInvocation henv hread, run_eq_runInvocation henv hread']
      rfl

theorem run_eq_of_colour_variable_list
    : let around (v : String) : Surroundings := { workplace with env := [("NO_COLOR", v)] }
      run (Machine.host (around "1")) CommandLine.pages ["list"] (machineAtWork []) =
        (.exited 2, (machineAtWork []).write .error CommandLine.pages.usage) ∧
      run (Machine.host (around "true")) CommandLine.pages ["list"] (machineAtWork []) =
        run (Machine.host (around "true")) CommandLine.pages ["--no-color", "list"]
          (machineAtWork []) := by
  intro around
  have henv (v : String)
      : (environment (Machine.host (around v)) (machineAtWork [])).1 = [("NO_COLOR", v)] := by
    cbv
  have hparse : parse none ["list"] = .ok ⟨{}, .list none⟩ := by
    rfl
  have hfirst : flaggedAtFirst ["list"] = false := by
    rfl
  have hunflagged : flaggedThroughout ["list"] = false := by
    rfl
  obtain ⟨_, _, hrun, _⟩ := run_eq_of_colour_variable CommandLine.pages (henv "1") rfl hparse
  obtain ⟨_, _, _, hsame⟩ := run_eq_of_colour_variable CommandLine.pages (henv "true") rfl hparse
  refine ⟨?_, (hsame rfl hfirst).2⟩
  rw [hrun, if_neg (by decide), hunflagged, if_neg (by decide)]

end Command

end RunnerKit
