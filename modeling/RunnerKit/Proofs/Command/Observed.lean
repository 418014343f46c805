import RunnerKit.Proofs.Command.Machine
import RunnerKit.Proofs.Scaffold.Course
/-!
This module contains systems that are observed. What a command asks of the storage of such a system
is written down, with the answers, and so is everything that it writes to a channel.
-/

namespace RunnerKit

structure Observed (σ : Type) extends Transcribed σ where
  written : List (Channel × String) := []

namespace Observed

variable {σ : Type}

def unseen {α : Type} (x : StateM σ α) : StateM (Observed σ) α := fun t =>
  let reply := x t.inner
  (reply.1, { t with inner := reply.2 })

def calls (t : Observed σ) : List Call := t.exchanges.filterMap Exchange.call?

def writtenPaths (t : Observed σ) : List Path := t.calls.filterMap Call.written?

end Observed

def Host.observed {σ : Type} (host : Host (StateM σ)) : Host (StateM (Observed σ)) where
  surroundings := host.surroundings
  attempt call := fun t =>
    let reply := host.attempt call t.inner
    let exchange := .call call (reply.1.mapError call.refusal)
    (reply.1, { t with inner := reply.2, exchanges := t.exchanges ++ [exchange] })
  holds path := fun t =>
    let reply := host.holds path t.inner
    (reply.1, { t with inner := reply.2, exchanges := t.exchanges ++ [.asked path reply.1] })
  read? path := Observed.unseen (host.read? path)
  write channel text := fun t =>
    let reply := host.write channel text t.inner
    ((), { t with inner := reply.2, written := t.written ++ [(channel, text)] })
  record coloured event := Observed.unseen (host.record coloured event)
  key? := Observed.unseen host.key?
  bus := host.bus.lift Observed.unseen

/--
A system whose files change through calls to the storage and through nothing else. What the calls do,
and which of them fail, is left open.
-/
structure System (σ : Type) where
  host : Host (StateM σ)
  holds : σ → Path → Bool
  read? : σ → Path → Option String
  holds_apply : ∀ (path : Path) (s : σ), host.holds path s = (holds s path, s)
  read?_apply : ∀ (path : Path) (s : σ), host.read? path s = (read? s path, s)
  holds_write : ∀ (channel : Channel) (text : String) (s : σ),
    holds (host.write channel text s).2 = holds s
  read?_write : ∀ (channel : Channel) (text : String) (s : σ),
    read? (host.write channel text s).2 = read? s
  holds_record : ∀ (coloured : Bool) (event : Event) (s : σ),
    holds (host.record coloured event s).2 = holds s
  read?_record : ∀ (coloured : Bool) (event : Event) (s : σ),
    read? (host.record coloured event s).2 = read? s

def Machine.system (around : Surroundings) : System Machine where
  host := Machine.host around
  holds machine := machine.disk.holds
  read? machine := machine.disk.read?
  holds_apply _ _ := rfl
  read?_apply _ _ := rfl
  holds_write channel text machine := by
    rw [(Machine.LeavesDisk.write around channel text machine).1]
  read?_write channel text machine := by
    rw [(Machine.LeavesDisk.write around channel text machine).1]
  holds_record _ _ _ := rfl
  read?_record _ _ _ := rfl

namespace System

variable {σ : Type} (system : System σ)

structure Told (t : Observed σ) (texts : List (Channel × String)) (t' : Observed σ) : Prop where
  exchanges_eq : t'.exchanges = t.exchanges
  written_eq : t'.written = t.written ++ texts
  holds_eq : system.holds t'.inner = system.holds t.inner
  read?_eq : system.read? t'.inner = system.read? t.inner

variable {system} {t t' t'' : Observed σ} {texts texts' : List (Channel × String)}

theorem Told.refl (t : Observed σ) : system.Told t [] t := ⟨rfl, (List.append_nil _).symm, rfl, rfl⟩

theorem Told.trans (h : system.Told t texts t') (h' : system.Told t' texts' t'')
    : system.Told t (texts ++ texts') t'' where
  exchanges_eq := h'.exchanges_eq.trans h.exchanges_eq
  written_eq := by rw [h'.written_eq, h.written_eq, List.append_assoc]
  holds_eq := h'.holds_eq.trans h.holds_eq
  read?_eq := h'.read?_eq.trans h.read?_eq

variable (system)

inductive Gives : Exchange → Prop where
  | call (call : Call) (s : σ)
    : Gives (.call call ((system.host.attempt call s).1.mapError call.refusal))
  | asked (path : Path) (s : σ) : Gives (.asked path (system.holds s path))

/--
Whatever a system is like apart from what it holds, a task has exchanges with its storage, writes
texts and has a result that are related by `P`.
-/
def Does {α : Type} (holds : Path → Bool) (task : Task (StateM (Observed σ)) α)
    (P : List Exchange → List (Channel × String) → Except CommandError α → Prop) : Prop :=
  ∀ t : Observed σ, system.holds t.inner = holds → ∃ xs texts,
    (task.run t).2.exchanges = t.exchanges ++ xs ∧ (task.run t).2.written = t.written ++ texts ∧
    (∀ x ∈ xs, system.Gives x) ∧ P xs texts (task.run t).1

namespace Does

variable {system} {α β : Type} {holds : Path → Bool}
  {P : List Exchange → List (Channel × String) → Except CommandError α → Prop}
  {Q : List Exchange → List (Channel × String) → Except CommandError β → Prop}

theorem throw {e : CommandError} (h : P [] [] (.error e))
    : system.Does holds (throw e) P := by
  intro t _
  exact ⟨[], [], (List.append_nil _).symm, (List.append_nil _).symm, by simp, h⟩

theorem bind {task : Task (StateM (Observed σ)) α} {next : α → Task (StateM (Observed σ)) β}
    (h : system.Does holds task P)
    (hnext : ∀ xs texts a, P xs texts (.ok a) → ∀ holds',
      system.Does holds' (next a) fun ys texts' result => Q (xs ++ ys) (texts ++ texts') result)
    (herror : ∀ xs texts e, P xs texts (.error e) → Q xs texts (.error e))
    : system.Does holds (task >>= next) Q := by
  -- Once the task has made calls to the storage, nothing is known any more of what is held there,
  -- so `next` is run in a system that may hold anything.
  intro t ht
  obtain ⟨xs, texts, hxs, htexts, hgives, hresult⟩ := h t ht
  cases hend : (task.run t).1 with
  | error e =>
    have hrun : (task >>= next).run t = (.error e, (task.run t).2) :=
      Command.run_bind_of_error (Prod.ext hend rfl)
    rw [hend] at hresult
    rw [hrun]
    exact ⟨xs, texts, hxs, htexts, hgives, herror _ _ _ hresult⟩
  | ok a =>
    have hrun : (task >>= next).run t = (next a).run (task.run t).2 :=
      Command.run_bind_of_ok (Prod.ext hend rfl)
    rw [hend] at hresult
    obtain ⟨ys, texts', hys, htexts', hgives', hresult'⟩ :=
      hnext xs texts a hresult _ (task.run t).2 rfl
    rw [hrun]
    refine ⟨xs ++ ys, texts ++ texts', ?_, ?_,
      List.forall_mem_append.mpr ⟨hgives, hgives'⟩, hresult'⟩
    . rw [hys, hxs, List.append_assoc]
    . rw [htexts', htexts, List.append_assoc]

theorem ofResult {result : Except CommandError α} {next : α → Task (StateM (Observed σ)) β}
    (hok : ∀ a, result = .ok a → system.Does holds (next a) Q)
    (herror : ∀ e, result = .error e → Q [] [] (.error e))
    : system.Does holds (ExceptT.mk (pure result) >>= next) Q := by
  cases result with
  | error e => exact throw (herror e rfl)
  | ok a => exact hok a rfl

theorem ofExcept {result : Except Error α} {next : α → Task (StateM (Observed σ)) β}
    (hok : ∀ a, result = .ok a → system.Does holds (next a) Q)
    (herror : ∀ e, result = .error e → Q [] [] (.error (.library e)))
    : system.Does holds (Task.ofExcept result >>= next) Q := by
  cases result with
  | error e => exact throw (herror e rfl)
  | ok a => exact hok a rfl

theorem tell {x : StateM (Observed σ) α} {next : α → Task (StateM (Observed σ)) β}
    {texts : List (Channel × String)} (hx : ∀ t, system.Told t texts (x t).2)
    (hnext : ∀ a, system.Does holds (next a) fun xs texts' result => Q xs (texts ++ texts') result)
    : system.Does holds (liftM x >>= next) Q := by
  intro t ht
  have htold := hx t
  obtain ⟨xs, texts', hxs, htexts', hgives, hresult⟩ :=
    hnext (x t).1 (x t).2 (htold.holds_eq.trans ht)
  refine ⟨xs, texts ++ texts', ?_, ?_, hgives, hresult⟩
  . rw [← htold.exchanges_eq]
    exact hxs
  . rw [← List.append_assoc, ← htold.written_eq]
    exact htexts'

theorem told {x : StateM (Observed σ) α} {texts : List (Channel × String)}
    (hx : ∀ t, system.Told t texts (x t).2) (h : ∀ a, P [] texts (.ok a))
    : system.Does holds (liftM x) P := by
  intro t _
  refine ⟨[], texts, ?_, (hx t).written_eq, by simp, h _⟩
  rw [List.append_nil]
  exact (hx t).exchanges_eq

end Does

end System

namespace Session

def reported {m : Type → Type} (s : Session m) (e : CommandError) : String :=
  let coloured := !s.globals.noColour && !s.settings.noColour && s.host.surroundings.errorIsTerminal
  if coloured then e.coloured s.configPath s.isVerbose else e.plain s.configPath s.isVerbose

def texts {m : Type → Type} (s : Session m) (messages : List Message) : List (Channel × String) :=
  messages.filterMap fun message => (s.console.text? message).map (Channel.output, ·)

section

variable {σ : Type} {system : System σ} {s : Session (StateM (Observed σ))}
  (hhost : s.host = system.host.observed)
include hhost

theorem told_log (event : Event) (t : Observed σ) : system.Told t [] (s.log event t).2 := by
  rw [log, hhost]
  split
  . exact ⟨rfl, (List.append_nil _).symm, system.holds_record _ event t.inner,
      system.read?_record _ event t.inner⟩
  . exact .refl t

theorem told_logAll (events : List Event) (t : Observed σ)
    : system.Told t [] (s.logAll events t).2 := by
  unfold logAll
  induction events generalizing t with
  | nil => exact .refl t
  | cons event events ih => exact (told_log hhost event t).trans (ih _)

theorem told_write (channel : Channel) (text : String) (t : Observed σ)
    : system.Told t [(channel, text)] (s.host.write channel text t).2 := by
  rw [hhost]
  exact ⟨rfl, rfl, system.holds_write channel text t.inner, system.read?_write channel text t.inner⟩

theorem told_say (message : Message) (t : Observed σ)
    : system.Told t (s.texts [message]) (s.say message t).2 := by
  unfold say
  cases htext : s.console.text? message with
  | none =>
    simp only [texts, List.filterMap_cons, htext]
    exact .refl t
  | some text =>
    simp only [texts, List.filterMap_cons, htext]
    exact told_write hhost .output text t

theorem told_sayAll (messages : List Message) (t : Observed σ)
    : system.Told t (s.texts messages) (s.sayAll messages t).2 := by
  unfold sayAll
  induction messages generalizing t with
  | nil => exact .refl t
  | cons message messages ih =>
    have hfirst := (told_say hhost message t).trans (ih _)
    unfold texts at hfirst ⊢
    rwa [← List.filterMap_append] at hfirst

theorem told_report (e : CommandError) (t : Observed σ)
    : system.Told t [(.error, s.reported e)] (s.report e t).2 :=
  (told_logAll hhost e.events t).trans (told_write hhost .error (s.reported e) _)

theorem holds_apply (path : Path) (t : Observed σ)
    : s.host.holds path t =
      (system.holds t.inner path,
        { t with exchanges := t.exchanges ++ [.asked path (system.holds t.inner path)] }) := by
  rw [hhost]
  simp only [Host.observed, system.holds_apply]

theorem observed_of_converses {t t' : Observed σ} {xs : List Exchange}
    (h : Converses s.host.filesystem s.log t xs t')
    : t'.exchanges = t.exchanges ++ xs ∧ t'.written = t.written ∧ (∀ x ∈ xs, system.Gives x) ∧
      ∀ path answer, xs.head? = some (.asked path answer) → answer = system.holds t.inner path := by
  induction h with
  | nil => simp
  | @event t _ _ event _ ih =>
    have htold := told_log hhost event t
    rw [htold.exchanges_eq, htold.written_eq, htold.holds_eq, List.append_nil] at ih
    exact ih
  | @call t _ _ call _ ih =>
    obtain ⟨hexchanges, hwritten, hgives, _⟩ := ih
    rw [hhost] at hexchanges hwritten ⊢
    refine ⟨?_, hwritten, List.forall_mem_cons.mpr ⟨.call call t.inner, hgives⟩, ?_⟩
    . rw [List.append_cons]
      exact hexchanges
    . intro path answer hhead
      cases hhead
  | @asked t _ _ path _ ih =>
    obtain ⟨hexchanges, hwritten, hgives, _⟩ := ih
    rw [show s.host.filesystem.holds path t = _ from holds_apply hhost path t]
      at hexchanges hwritten ⊢
    refine ⟨?_, hwritten, List.forall_mem_cons.mpr ⟨.asked path t.inner, hgives⟩, ?_⟩
    . rw [List.append_cons]
      exact hexchanges
    . intro path answer hhead
      cases hhead
      rfl

variable {holds : Path → Bool}

theorem does_holds {α : Type} {path : Path} {next : Bool → Task (StateM (Observed σ)) α}
    {P : List Exchange → List (Channel × String) → Except CommandError α → Prop}
    (hnext : system.Does holds (next (holds path)) fun xs texts result =>
      P (.asked path (holds path) :: xs) texts result)
    : system.Does holds (liftM (s.host.holds path) >>= next) P := by
  rintro t rfl
  let asked : Observed σ :=
    { t with exchanges := t.exchanges ++ [.asked path (system.holds t.inner path)] }
  have hrun : (liftM (s.host.holds path) >>= next : Task _ _).run t =
      (next (system.holds t.inner path)).run asked := by
    apply Command.run_bind_of_ok
    exact congrArg (fun reply => (Except.ok reply.1, reply.2)) (holds_apply hhost path t)
  obtain ⟨xs, texts, hxs, htexts, hgives, hresult⟩ := hnext asked rfl
  rw [hrun]
  refine ⟨_, texts, ?_, htexts, List.forall_mem_cons.mpr ⟨.asked path t.inner, hgives⟩, hresult⟩
  rw [List.append_cons, hxs]

theorem does_scaffold (store : Store) (request : ScaffoldRequest) (overwrite : Bool)
    : system.Does holds
        (Task.ofLibrary (Scaffold.run s.host.filesystem s.log store request overwrite))
        fun xs texts result => texts = [] ∧
          (∀ path answer, xs.head? = some (.asked path answer) → answer = holds path) ∧
          ∃ outcome, Scaffold.Course store request overwrite xs outcome ∧
            result = outcome.mapError .library := by
  intro t ht
  obtain ⟨xs, _, hxs, hcourse⟩ :=
    Scaffold.run_dialogue s.host.filesystem s.log store request overwrite { inner := t }
  obtain ⟨hexchanges, hwritten, hgives, hholds⟩ := observed_of_converses hhost hxs
  rw [ht] at hholds
  refine ⟨xs, [], hexchanges, ?_, hgives, rfl, hholds, _, hcourse, rfl⟩
  rw [List.append_nil]
  exact hwritten

end

end Session

end RunnerKit
