import RunnerKit.Proofs.Bus.Interface
import RunnerKit.Proofs.Text.Order
import RunnerKit.Runner.Greeter
/-!
This module contains what a search host gets from the greeting runner over a whole session: every
request has its own reply, whatever came before it, and what is chosen is kept in order.
-/

namespace RunnerKit

namespace Bus

def Request.choice? : Request → Option (String × String)
  | .run data actionId => some (data, actionId)
  | .find _ | .actions | .teardown => none

def greetingRecord (app : AppName) : WireMatch where
  data := "Hello"
  text := "Hello from " ++ app.text ++ "!"
  icon := "document-edit"
  category := 100
  relevance := ⟨0x3ff0000000000000⟩
  properties := [("subtext", .string "Demo Subtext")]

def answer (app : AppName) : Request → Reply
  | .find query =>
    .found (if utf8Bytes query = utf8Bytes "hello" then [greetingRecord app] else [])
  | .actions => .actions [⟨"id", "Tooltip", "planetkde"⟩]
  | .run _ _ | .teardown => .nothing

inductive Settles : Outcome → Reply → Prop where
  | done : Settles .done .nothing
  | failed (e : Error) : Settles (.failed e) (.fault (.failed e.message))
  | aborted : Settles .aborted .missing

theorem ofMatch_greeting (app : AppName)
    : WireMatch.ofMatch (Greeter.greeting app) = greetingRecord app := rfl

theorem find_greeter (app : AppName) (query : String)
    : (Greeter.answer app ⟨query⟩).map WireMatch.ofMatch =
        if utf8Bytes query = utf8Bytes "hello" then [greetingRecord app] else [] := by
  have hbytes : utf8Bytes query = utf8Bytes "hello" ↔ query = Greeter.trigger :=
    utf8Bytes_injective.eq_iff
  unfold Greeter.answer
  simp only [hbytes]
  split
  . rw [List.map_singleton, ofMatch_greeting]
  . rfl

section

variable {σ : Type} (app : AppName) (log : Event → StateM σ Unit)

def keptOutput : Output (StateM (RunLog × σ)) :=
  RunLog.output.lift fun x s => ((x s.1).1, ((x s.1).2, s.2))

def logBeside (event : Event) : StateM (RunLog × σ) Unit :=
  fun s => ((), (s.1, (log event s.2).2))

def conversation {τ : Type} (log : Event → StateM τ Unit) (runner : Runner (StateM τ))
    (objectPath : String) (requests : List Request) : StateM τ (List Reply) :=
  requests.mapM fun request => reply log runner objectPath (request.call objectPath)

def session (objectPath : String) (requests : List Request) : StateM (RunLog × σ) (List Reply) :=
  conversation (logBeside log) (greeter app keptOutput (logBeside log)) objectPath requests

theorem conversation_cons {τ : Type} (log : Event → StateM τ Unit) (runner : Runner (StateM τ))
    (objectPath : String) (request : Request) (requests : List Request) (s : τ)
    : conversation log runner objectPath (request :: requests) s =
        let (reply, next) := request.reply log runner s
        let (replies, last) := conversation log runner objectPath requests next
        (reply :: replies, last) := by
  unfold conversation
  rw [List.mapM_cons, reply_call]
  rfl

theorem conversation_of_steps {log : Event → StateM (RunLog × σ) Unit}
    {runner : Runner (StateM (RunLog × σ))} {answers : Request → Reply → Prop}
    {kept? : Request → Option (String × String)}
    (hstep : ∀ (request : Request) (s : RunLog × σ),
      answers request (request.reply log runner s).1 ∧
        (request.reply log runner s).2.1.calls = s.1.calls ++ (kept? request).toList)
    (objectPath : String) (requests : List Request) (start : RunLog × σ)
    : List.Forall₂ answers requests (conversation log runner objectPath requests start).1 ∧
      (conversation log runner objectPath requests start).2.1.calls =
        start.1.calls ++ requests.filterMap kept? := by
  -- By induction on the requests. Each is known whatever came before it, so nothing about the state
  -- has to be carried along.
  induction requests generalizing start with
  | nil => exact ⟨.nil, (List.append_nil start.1.calls).symm⟩
  | cons request requests ih =>
    obtain ⟨hanswer, hkept⟩ := hstep request start
    obtain ⟨hanswers, hcalls⟩ := ih (request.reply log runner start).2
    rw [conversation_cons]
    refine ⟨.cons hanswer hanswers, hcalls.trans ?_⟩
    rw [hkept, List.append_assoc, List.filterMap_cons]
    cases kept? request <;> rfl

theorem reply_greeter (request : Request) (s : RunLog × σ)
    : answer app request =
        (request.reply (logBeside log) (greeter app keptOutput (logBeside log)) s).1 ∧
      (request.reply (logBeside log) (greeter app keptOutput (logBeside log)) s).2.1.calls =
        s.1.calls ++ request.choice?.toList := by
  -- Only a choice reaches the output. The log of the others is kept beside it.
  cases request with
  | find query =>
    exact ⟨congrArg Reply.found (find_greeter app query).symm, (List.append_nil s.1.calls).symm⟩
  | run data actionId => exact ⟨rfl, rfl⟩
  | actions | teardown => exact ⟨rfl, (List.append_nil s.1.calls).symm⟩

theorem session_eq (objectPath : String) (requests : List Request) (start : RunLog × σ)
    : (session app log objectPath requests start).1 = requests.map (answer app) ∧
      (session app log objectPath requests start).2.1.calls =
        start.1.calls ++ requests.filterMap Request.choice? := by
  obtain ⟨hanswers, hcalls⟩ :=
    conversation_of_steps (reply_greeter app log) objectPath requests start
  refine ⟨?_, hcalls⟩
  rw [← List.forall₂_map_left_iff, List.forall₂_eq_eq_eq] at hanswers
  exact hanswers.symm

end

theorem settles_replyRun {σ : Type} (log : Event → StateM σ Unit) (runner : Runner (StateM σ))
    (data actionId : String) (state : σ)
    : Settles (runner.run data actionId state).1
        ((Request.run data actionId).reply log runner state).1 := by
  simp only [Request.reply, replyRun, bind, StateT.bind]
  obtain ⟨outcome, after⟩ := runner.run data actionId state
  cases outcome with
  | done => exact .done
  | failed e => exact .failed e
  | aborted => exact .aborted

theorem replies_and_choices
    : (∀ {σ : Type} (app : AppName) (log : Event → StateM σ Unit) (objectPath : String)
        (requests : List Request) (start : RunLog × σ),
        (session app log objectPath requests start).1 = requests.map (answer app) ∧
        (session app log objectPath requests start).2.1.calls =
          start.1.calls ++ requests.filterMap Request.choice?) ∧
      ∀ {σ : Type} (log : Event → StateM σ Unit) (runner : Runner (StateM σ))
        (objectPath data actionId : String) (state : σ),
        Settles (runner.run data actionId state).1
          (reply log runner objectPath ((Request.run data actionId).call objectPath) state).1 := by
  constructor
  . intro σ app log objectPath requests start
    exact session_eq app log objectPath requests start
  . intro σ log runner objectPath data actionId state
    rw [reply_call]
    exact settles_replyRun log runner data actionId state

end Bus

end RunnerKit
