import RunnerKit.Proofs.Command.Machine
/-!
This module contains pairs of runs that are watched side by side. The second run of a pair does what
the first one does, but writes nothing to the output except payload. There is a rule for each step
that a command is made of.
-/

namespace RunnerKit

inductive Utterance where
  | message (message : Message)
  | script (text : String)
  deriving DecidableEq, Repr

namespace Utterance

def isPayload : Utterance → Bool
  | message m => m.isPayload
  | script _ => true

def text (coloured : Bool) : Utterance → String
  | message m => m.line coloured ++ "\n"
  | script text => text

def written (coloured : Bool) (utterances : List Utterance) : String :=
  String.join (utterances.map (text coloured))

theorem written_nil (coloured : Bool) : written coloured [] = "" := rfl

theorem written_singleton (coloured : Bool) (utterance : Utterance)
    : written coloured [utterance] = utterance.text coloured := by
  simp [written, String.join]

theorem written_append (coloured : Bool) (utterances more : List Utterance)
    : written coloured (utterances ++ more) =
      written coloured utterances ++ written coloured more := by
  simp [written]

end Utterance

namespace Machine

def Alike (machine machine' : Machine) : Prop :=
  ∃ output records, machine' = { machine with output, records }

theorem Alike.refl (machine : Machine) : machine.Alike machine := ⟨_, _, rfl⟩

theorem Alike.disk_eq {machine machine' : Machine} (h : machine.Alike machine')
    : machine'.disk = machine.disk ∧ machine'.calls = machine.calls := by
  obtain ⟨_, _, rfl⟩ := h
  exact ⟨rfl, rfl⟩

structure Tells (coloured : Bool) (machine machine' : Machine) (utterances : List Utterance)
    (after after' : Machine) : Prop where
  alike : after.Alike after'
  output_eq : after.output = machine.output ++ Utterance.written coloured utterances
  output_eq' : after'.output =
    machine'.output ++ Utterance.written coloured (utterances.filter Utterance.isPayload)

theorem Tells.silent {coloured : Bool} {machine machine' after after' : Machine}
    (halike : after.Alike after') (h : after.output = machine.output)
    (h' : after'.output = machine'.output) : Tells coloured machine machine' [] after after' where
  alike := halike
  output_eq := by rw [h, Utterance.written_nil, String.append_empty]
  output_eq' := by rw [h', List.filter_nil, Utterance.written_nil, String.append_empty]

theorem Tells.trans {coloured : Bool} {machine machine' after after' last last' : Machine}
    {utterances more : List Utterance} (h : Tells coloured machine machine' utterances after after')
    (hmore : Tells coloured after after' more last last')
    : Tells coloured machine machine' (utterances ++ more) last last' where
  alike := hmore.alike
  output_eq := by rw [hmore.output_eq, h.output_eq, Utterance.written_append, String.append_assoc]
  output_eq' := by
    rw [hmore.output_eq', h.output_eq', List.filter_append, Utterance.written_append,
      String.append_assoc]

end Machine

/--
Whether two programs do the same from machines that are alike, but the second writes no more than the
payload of what the first writes. That payload and the result, which they share, are related by `P`.
-/
def Paired (coloured : Bool) {α : Type} (x x' : StateM Machine α) (P : List Utterance → α → Prop)
    : Prop :=
  ∀ machine machine' : Machine, machine.Alike machine' → ∃ utterances,
    (x' machine').1 = (x machine).1 ∧
    Machine.Tells coloured machine machine' utterances (x machine).2 (x' machine').2 ∧
    P (utterances.filter Utterance.isPayload) (x machine).1

abbrev PairedAside {α : Type} (x x' : StateM Machine α) : Prop :=
  ∀ coloured, Paired coloured x x' fun said _ => said = []

namespace Paired

section

variable {coloured : Bool} {α β : Type} {x x' : StateM Machine α} {P : List Utterance → α → Prop}
  {next next' : α → StateM Machine β} {Q : List Utterance → β → Prop}

theorem pure {a : α} (h : P [] a) : Paired coloured (pure a) (pure a) P :=
  fun _ _ halike => ⟨[], rfl, .silent halike rfl rfl, h⟩

theorem bind (h : Paired coloured x x' P)
    (hnext : ∀ said a, P said a →
      Paired coloured (next a) (next' a) fun more b => Q (said ++ more) b)
    : Paired coloured (x >>= next) (x' >>= next') Q := by
  intro machine machine' halike
  obtain ⟨utterances, hresult, htells, hP⟩ := h machine machine' halike
  obtain ⟨more, hresult', htells', hQ⟩ := hnext _ _ hP _ _ htells.alike
  have hrun : (x' >>= next') machine' = next' (x machine).1 (x' machine').2 := by
    rw [← hresult]
    rfl
  rw [← List.filter_append] at hQ
  rw [hrun]
  exact ⟨utterances ++ more, hresult', htells.trans htells', hQ⟩

theorem aside (h : PairedAside x x') (hnext : ∀ a, Paired coloured (next a) (next' a) Q)
    : Paired coloured (x >>= next) (x' >>= next') Q := by
  apply (h coloured).bind
  rintro _ a rfl
  exact hnext a

theorem mono {Q : List Utterance → α → Prop} (h : Paired coloured x x' P)
    (hPQ : ∀ said a, P said a → Q said a) : Paired coloured x x' Q := by
  intro machine machine' halike
  obtain ⟨utterances, hresult, htells, hP⟩ := h machine machine' halike
  exact ⟨utterances, hresult, htells, hPQ _ _ hP⟩

theorem forM {x x' : α → StateM Machine PUnit} (h : ∀ a, PairedAside (x a) (x' a))
    (as : List α) : PairedAside (as.forM x) (as.forM x') := by
  intro coloured
  induction as with
  | nil => exact .pure rfl
  | cons a as ih => exact .aside (h a) fun _ => ih

end

section

variable {coloured : Bool} {α β : Type} {x x' : Task (StateM Machine) α}
  {P : List Utterance → Except CommandError α → Prop} {next next' : α → Task (StateM Machine) β}
  {Q : List Utterance → Except CommandError β → Prop}

theorem bind_run (h : Paired coloured x.run x'.run P)
    (hnext : ∀ said a, P said (.ok a) →
      Paired coloured (next a).run (next' a).run fun more result => Q (said ++ more) result)
    (herror : ∀ said e, P said (.error e) → Q said (.error e))
    : Paired coloured (x >>= next).run (x' >>= next').run Q := by
  rw [ExceptT.run_bind, ExceptT.run_bind]
  apply h.bind
  intro said result hP
  cases result with
  | ok a => exact hnext said a hP
  | error e =>
    apply Paired.pure
    rw [List.append_nil]
    exact herror said e hP

theorem lift_run {x x' : StateM Machine α} {P : List Utterance → α → Prop}
    (h : Paired coloured x x' P)
    (hnext : ∀ said a, P said a →
      Paired coloured (next a).run (next' a).run fun more result => Q (said ++ more) result)
    : Paired coloured (liftM x >>= next).run (liftM x' >>= next').run Q :=
  h.bind hnext

theorem aside_run {x x' : StateM Machine α} (h : PairedAside x x')
    (hnext : ∀ a, Paired coloured (next a).run (next' a).run Q)
    : Paired coloured (liftM x >>= next).run (liftM x' >>= next').run Q :=
  .aside h hnext

theorem last_run {x x' : StateM Machine α} {P : List Utterance → α → Prop}
    {Q : List Utterance → Except CommandError α → Prop} (h : Paired coloured x x' P)
    (hPQ : ∀ said a, P said a → Q said (.ok a))
    : Paired coloured (liftM x : Task (StateM Machine) α).run
        (liftM x' : Task (StateM Machine) α).run Q := by
  change Paired coloured (x >>= fun a => Pure.pure (.ok a)) (x' >>= fun a => Pure.pure (.ok a)) Q
  apply h.bind
  intro said a hP
  apply Paired.pure
  rw [List.append_nil]
  exact hPQ said a hP

theorem ofResult {result : Except CommandError α}
    (hnext : ∀ a, result = .ok a → Paired coloured (next a).run (next' a).run Q)
    (herror : ∀ e, result = .error e → Q [] (.error e))
    : Paired coloured (ExceptT.mk (Pure.pure result) >>= next).run
        (ExceptT.mk (Pure.pure result) >>= next').run Q := by
  cases result with
  | ok a => exact hnext a rfl
  | error e => exact .pure (herror e rfl)

end

/-! These are the steps that machines do. -/

section

variable (around : Surroundings)

theorem attempt (call : Call)
    : PairedAside ((Machine.host around).attempt call) ((Machine.host around).attempt call) := by
  rintro coloured machine _ ⟨output, records, rfl⟩
  exact ⟨[], rfl, .silent ⟨output, records, rfl⟩ rfl rfl, rfl⟩

theorem holds (path : Path)
    : PairedAside ((Machine.host around).holds path) ((Machine.host around).holds path) := by
  rintro coloured machine _ ⟨output, records, rfl⟩
  exact ⟨[], rfl, .silent ⟨output, records, rfl⟩ rfl rfl, rfl⟩

theorem writeError (text : String)
    : PairedAside ((Machine.host around).write .error text)
        ((Machine.host around).write .error text) := by
  rintro coloured machine _ ⟨output, records, rfl⟩
  exact ⟨[], rfl, .silent ⟨output, records, rfl⟩ rfl rfl, rfl⟩

theorem writePayload (coloured : Bool) {utterance : Utterance} (h : utterance.isPayload = true)
    : Paired coloured ((Machine.host around).write .output (utterance.text coloured))
        ((Machine.host around).write .output (utterance.text coloured))
        fun said _ => said = [utterance] := by
  rintro machine _ ⟨output, records, rfl⟩
  have hpayload : [utterance].filter Utterance.isPayload = [utterance] := by
    rw [List.filter_singleton, h, cond_true]
  refine ⟨[utterance], rfl, ⟨⟨_, records, rfl⟩, ?_, ?_⟩, hpayload⟩
  . rw [Utterance.written_singleton]
    rfl
  . rw [hpayload, Utterance.written_singleton]
    rfl

theorem writeAside (coloured : Bool) {utterance : Utterance} (h : utterance.isPayload = false)
    : Paired coloured ((Machine.host around).write .output (utterance.text coloured))
        (Pure.pure ()) fun said _ => said = [] := by
  rintro machine _ ⟨output, records, rfl⟩
  have hpayload : [utterance].filter Utterance.isPayload = [] := by
    rw [List.filter_singleton, h, cond_false]
  refine ⟨[utterance], rfl, ⟨⟨output, records, rfl⟩, ?_, ?_⟩, hpayload⟩
  . rw [Utterance.written_singleton]
    rfl
  . rw [hpayload, Utterance.written_nil, String.append_empty]
    rfl

end

/-! The generation of a project writes nothing to the output. -/

section

variable (around : Surroundings)

theorem perform (call : Call)
    : PairedAside ((Machine.host around).filesystem.perform call)
        ((Machine.host around).filesystem.perform call) := by
  intro coloured
  exact .aside (attempt around call) fun _ => .pure rfl

theorem performAll (calls : List Call)
    : PairedAside ((Machine.host around).filesystem.performAll calls)
        ((Machine.host around).filesystem.performAll calls) := by
  intro coloured
  induction calls with
  | nil => exact .pure rfl
  | cons call calls ih =>
    apply aside (perform around call)
    intro answer
    cases answer with
    | ok => exact ih
    | error e => exact .pure rfl

variable {log log' : Event → StateM Machine Unit}
  (hlog : ∀ event, PairedAside (log event) (log' event))
include hlog

theorem rollback (root : Path)
    : PairedAside (Scaffold.rollback (Machine.host around).filesystem log root)
        (Scaffold.rollback (Machine.host around).filesystem log' root) := by
  intro coloured
  apply aside (perform around (.removeDirAll root))
  intro answer
  cases answer with
  | ok => exact hlog _ coloured
  | error e => exact hlog _ coloured

theorem write (project : ProjectStructure)
    : PairedAside (Scaffold.write (Machine.host around).filesystem log project)
        (Scaffold.write (Machine.host around).filesystem log' project) := by
  intro coloured
  apply aside (performAll around project.writeCalls)
  intro answer
  cases answer with
  | ok => exact .pure rfl
  | error e =>
    apply aside (hlog Scaffold.rollingBack)
    intro _
    apply aside (rollback around hlog project.root)
    intro _
    exact .pure rfl

theorem clear (root : Path) (overwrite : Bool)
    : PairedAside (Scaffold.clear (Machine.host around).filesystem log root overwrite)
        (Scaffold.clear (Machine.host around).filesystem log' root overwrite) := by
  intro coloured
  apply aside (holds around root)
  intro there
  cases there with
  | false => exact .pure rfl
  | true =>
    cases overwrite with
    | false => exact .pure rfl
    | true =>
      apply aside (hlog Scaffold.removing)
      intro _
      exact perform around _ coloured

theorem scaffold (store : Store) (request : ScaffoldRequest) (overwrite : Bool)
    : PairedAside (Scaffold.run (Machine.host around).filesystem log store request overwrite)
        (Scaffold.run (Machine.host around).filesystem log' store request overwrite) := by
  intro coloured
  apply aside (Paired.forM hlog (store.planEvents request))
  intro _
  cases store.plan request with
  | error e => exact .pure rfl
  | ok project =>
    apply aside (hlog (Scaffold.rendered project))
    intro _
    apply aside (clear around hlog project.root overwrite)
    intro cleared
    cases cleared with
    | error e => exact .pure rfl
    | ok =>
      apply aside (write around hlog project)
      intro written
      cases written with
      | error e => exact .pure rfl
      | ok =>
        apply aside (hlog Scaffold.completed)
        intro _
        exact .pure rfl

end

end Paired

end RunnerKit
