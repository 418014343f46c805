import RunnerKit.Command.Machine
import RunnerKit.Command.Run
import RunnerKit.Proofs.Settings.Load
/-!
This module contains what commands leave alone on a system that is a value. Reading changes nothing,
and what is written to the channels and to the log does not change the disk.
-/

namespace RunnerKit

namespace Machine

def LeavesDisk {α : Type} (x : StateM Machine α) : Prop :=
  ∀ machine, (x machine).2.disk = machine.disk ∧ (x machine).2.calls = machine.calls

namespace LeavesDisk

variable {α β : Type}

theorem pure (a : α) : LeavesDisk (Pure.pure a) := fun _ => ⟨rfl, rfl⟩

theorem bind {x : StateM Machine α} {next : α → StateM Machine β} (hx : LeavesDisk x)
    (hnext : ∀ a, LeavesDisk (next a)) : LeavesDisk (x >>= next) := by
  intro machine
  have hfirst := hx machine
  have hsecond := hnext (x machine).1 (x machine).2
  exact ⟨hsecond.1.trans hfirst.1, hsecond.2.trans hfirst.2⟩

theorem forM {x : α → StateM Machine PUnit} (hx : ∀ a, LeavesDisk (x a)) (as : List α)
    : LeavesDisk (as.forM x) := by
  induction as with
  | nil => exact pure _
  | cons a as ih => exact (hx a).bind fun _ => ih

theorem write (around : Surroundings) (channel : Channel) (text : String)
    : LeavesDisk ((Machine.host around).write channel text) := by
  intro machine
  cases channel <;> exact ⟨rfl, rfl⟩

theorem record (around : Surroundings) (coloured : Bool) (event : Event)
    : LeavesDisk ((Machine.host around).record coloured event) := fun _ => ⟨rfl, rfl⟩

end LeavesDisk

end Machine

namespace Command

section

variable {around : Surroundings} {s : Session (StateM Machine)}
  (hhost : s.host = Machine.host around)
include hhost

theorem leavesDisk_log (event : Event) : Machine.LeavesDisk (s.log event) := by
  rw [Session.log, hhost]
  split
  . exact .record around _ event
  . exact .pure _

theorem leavesDisk_say (message : Message) : Machine.LeavesDisk (s.say message) := by
  rw [Session.say, hhost]
  split
  . exact .write around _ _
  . exact .pure _

theorem leavesDisk_report (e : CommandError) : Machine.LeavesDisk (s.report e) := by
  rw [Session.report, hhost]
  exact (Machine.LeavesDisk.forM (leavesDisk_log hhost) _).bind fun _ => .write around _ _

theorem leavesDisk_fail (e : CommandError) : Machine.LeavesDisk (fail s e) :=
  (leavesDisk_report hhost e).bind fun _ => .pure _

end

theorem environment_apply (around : Surroundings) (machine : Machine)
    : environment (Machine.host around) machine =
      ((environment (Machine.host around) machine).1, machine) := by
  have hread (directory : Path) : (Machine.host around).read? (directory.join VariableFile.name)
      machine = (machine.disk.read? (directory.join VariableFile.name), machine) := rfl
  simp only [environment, bind, StateT.bind, Settings.findSomeM?_apply hread]
  cases List.findSomeM? (m := Id) _ _ <;> rfl

section

variable {σ α β : Type} {state state' : σ}

theorem bind_apply {x : StateM σ α} {next : α → StateM σ β} {a : α} (hx : x state = (a, state'))
    : (x >>= next) state = next a state' := by
  simp only [bind, StateT.bind, hx]

variable {x : Task (StateM σ) α} {next : α → Task (StateM σ) β}

theorem run_bind_of_ok {a : α} (hx : x.run state = (.ok a, state'))
    : (x >>= next).run state = (next a).run state' := by
  rw [ExceptT.run_bind]
  exact bind_apply hx

theorem run_bind_of_error {e : CommandError} (hx : x.run state = (.error e, state'))
    : (x >>= next).run state = (.error e, state') := by
  rw [ExceptT.run_bind]
  exact bind_apply hx

end

theorem load_apply_log {around : Surroundings} {s : Session (StateM Machine)}
    (hhost : s.host = Machine.host around) (event : Event) {machine : Machine} {path? : Option Path}
    {backend : Settings.Backend} {result : Except Settings.LoadError Settings}
    (hload : Settings.load (m := Id) machine.disk.read? s.env s.home path? backend = result)
    : Settings.load s.host.read? s.env s.home path? backend (s.log event machine).2 =
      (result, (s.log event machine).2) := by
  -- What is logged before may be written to the console, but no call to the disk is made for it.
  have hread (path : Path) : s.host.read? path (s.log event machine).2 =
      (machine.disk.read? path, (s.log event machine).2) := by
    rw [← (leavesDisk_log hhost event machine).1, hhost]
    rfl
  rw [Settings.load_apply hread, hload]

def carryOut {m : Type → Type} [Monad m] (pages : Pages) (s : Session m) (command : Command)
    : m (Ending m) := do
  match ← (dispatch pages s command).run with
  | .error e => fail s e
  | .ok (some service) => return .serving s service
  | .ok none =>
    s.log succeeded
    return .exited 0

theorem runInvocation_apply (pages : Pages) {around : Surroundings} {s : Session (StateM Machine)}
    (hhost : s.host = Machine.host around) (hunset : s.settings = {}) (command : Command)
    {machine : Machine} {result : Except Settings.LoadError Settings}
    (hload : Settings.load (m := Id) machine.disk.read? s.env s.home s.globals.config?
      around.backend = result)
    : runInvocation (Machine.host around) pages s.env ⟨s.globals, command⟩ machine =
      (match result with
        | .error e => fail s (.config e.chain (some e.message) e.causes)
        | .ok settings => carryOut pages { s with settings } command : StateM Machine _)
        (s.log (begun s.globals) machine).2 := by
  obtain ⟨host, env, globals, settings⟩ := s
  cases hhost
  cases hunset
  have hloaded := load_apply_log rfl (begun globals) hload
  apply (bind_apply rfl).trans
  apply (bind_apply hloaded).trans
  cases result <;> rfl

end Command

end RunnerKit
