import Mathlib.Control.Monad.Basic
import RunnerKit.Storage.Basic
import RunnerKit.Log
/-!
This module contains the exchanges that a program has with a storage, and the rules that tell which
ones it has. A program may also report events, which are no part of them.
-/

namespace RunnerKit

inductive Exchange where
  | call (call : Call) (answer : Except Error Unit)
  | asked (path : Path) (answer : Bool)
  deriving DecidableEq

abbrev Exchange.done (call : Call) : Exchange := .call call (.ok ())

namespace Exchange

def call? : Exchange → Option Call
  | call made _ => some made
  | asked .. => none

theorem filterMap_call?_map_done (calls : List Call) : (calls.map done).filterMap call? = calls := by
  rw [List.filterMap_map]
  exact List.filterMap_some

end Exchange

def Call.written? : Call → Option Path
  | writeFile path _ => some path
  | createDirAll _ | setExecutable _ | removeDirAll _ => none

structure Transcribed (σ : Type) where
  inner : σ
  exchanges : List Exchange := []

namespace Transcribed

variable {σ : Type}

def filesystem (fs : Filesystem (StateM σ)) : Filesystem (StateM (Transcribed σ)) where
  perform call := fun t =>
    let reply := fs.perform call t.inner
    (reply.1, { inner := reply.2, exchanges := t.exchanges ++ [.call call reply.1] })
  holds path := fun t =>
    let reply := fs.holds path t.inner
    (reply.1, { inner := reply.2, exchanges := t.exchanges ++ [.asked path reply.1] })

def log (log : Event → StateM σ Unit) (event : Event) : StateM (Transcribed σ) Unit :=
  fun t => ((), { t with inner := (log event t.inner).2 })

end Transcribed

section

variable {σ : Type} (fs : Filesystem (StateM σ)) (log : Event → StateM σ Unit)

inductive Converses : σ → List Exchange → σ → Prop where
  | nil (s : σ) : Converses s [] s
  | event {s s' : σ} {xs : List Exchange} (event : Event) (h : Converses (log event s).2 xs s')
    : Converses s xs s'
  | call {s s' : σ} {xs : List Exchange} (call : Call) (h : Converses (fs.perform call s).2 xs s')
    : Converses s (.call call (fs.perform call s).1 :: xs) s'
  | asked {s s' : σ} {xs : List Exchange} (path : Path) (h : Converses (fs.holds path s).2 xs s')
    : Converses s (.asked path (fs.holds path s).1 :: xs) s'

variable {fs} {log}

theorem Converses.append {s s' s'' : σ} {xs ys : List Exchange} (h : Converses fs log s xs s')
    (h' : Converses fs log s' ys s'') : Converses fs log s (xs ++ ys) s'' := by
  induction h with
  | nil => exact h'
  | event event _ ih => exact .event event (ih h')
  | call call _ ih => exact .call call (ih h')
  | asked path _ ih => exact .asked path (ih h')

end

section

variable {σ α β : Type} (fs : Filesystem (StateM σ)) (log : Event → StateM σ Unit)

/--
Whatever state a program starts in, its exchanges and its result are related by `P`. The same program
with a storage that writes them down does the same.
-/
def Dialogue (program : StateM σ α) (transcribed : StateM (Transcribed σ) α)
    (P : List Exchange → α → Prop) : Prop :=
  ∀ t : Transcribed σ, ∃ xs,
    transcribed t = ((program t.inner).1, ⟨(program t.inner).2, t.exchanges ++ xs⟩) ∧
    Converses fs log t.inner xs (program t.inner).2 ∧ P xs (program t.inner).1

namespace Dialogue

variable {fs} {log} {P : List Exchange → α → Prop}

theorem pure {a : α} (h : P [] a) : Dialogue fs log (pure a) (pure a) P := by
  intro t
  refine ⟨[], ?_, .nil t.inner, h⟩
  rw [List.append_nil]
  rfl

theorem bind {program : StateM σ α} {transcribed : StateM (Transcribed σ) α}
    {next : α → StateM σ β} {next' : α → StateM (Transcribed σ) β} {Q : List Exchange → β → Prop}
    (h : Dialogue fs log program transcribed P)
    (hnext : ∀ xs a, P xs a → Dialogue fs log (next a) (next' a) fun ys b => Q (xs ++ ys) b)
    : Dialogue fs log (program >>= next) (transcribed >>= next') Q := by
  intro t
  obtain ⟨xs, ht, hxs, ha⟩ := h t
  obtain ⟨ys, ht', hys, hb⟩ := hnext xs _ ha ⟨(program t.inner).2, t.exchanges ++ xs⟩
  refine ⟨xs ++ ys, ?_, hxs.append hys, hb⟩
  calc (transcribed >>= next') t
    _ = next' (transcribed t).1 (transcribed t).2 := rfl
    _ = next' (program t.inner).1 ⟨(program t.inner).2, t.exchanges ++ xs⟩ := by rw [ht]
    _ = _ := by
      rw [ht', List.append_assoc]
      rfl

theorem weaken {program : StateM σ α} {transcribed : StateM (Transcribed σ) α}
    {Q : List Exchange → α → Prop} (h : Dialogue fs log program transcribed P)
    (hPQ : ∀ xs a, P xs a → Q xs a) : Dialogue fs log program transcribed Q := by
  intro t
  obtain ⟨xs, ht, hxs, ha⟩ := h t
  exact ⟨xs, ht, hxs, hPQ _ _ ha⟩

variable (fs) (log)

theorem event (event : Event)
    : Dialogue fs log (log event) (Transcribed.log log event) fun xs _ => xs = [] := by
  intro t
  refine ⟨[], ?_, .event event (.nil _), rfl⟩
  rw [List.append_nil]
  rfl

theorem perform (call : Call)
    : Dialogue fs log (fs.perform call) ((Transcribed.filesystem fs).perform call)
        fun xs answer => xs = [.call call answer] := by
  intro t
  exact ⟨_, rfl, .call call (.nil _), rfl⟩

theorem holds (path : Path)
    : Dialogue fs log (fs.holds path) ((Transcribed.filesystem fs).holds path)
        fun xs answer => xs = [.asked path answer] := by
  intro t
  exact ⟨_, rfl, .asked path (.nil _), rfl⟩

theorem events (events : List Event)
    : Dialogue fs log (events.forM log) (events.forM (Transcribed.log log)) fun xs _ => xs = [] := by
  induction events with
  | nil => exact .pure rfl
  | cons e es ih =>
    rw [List.forM_eq_forM, List.forM_eq_forM] at ih ⊢
    rw [List.forM_cons, List.forM_cons]
    apply bind (event fs log e)
    intro xs _ hxs
    subst hxs
    exact ih

inductive Performed : List Call → List Exchange → Except Error Unit → Prop where
  | all (calls : List Call) : Performed calls (calls.map .done) (.ok ())
  | failed (before after : List Call) (call : Call) (e : Error)
    : Performed (before ++ call :: after) (before.map .done ++ [.call call (.error e)]) (.error e)

theorem Performed.cons {calls : List Call} {xs : List Exchange} {answer : Except Error Unit}
    (call : Call) (h : Performed calls xs answer)
    : Performed (call :: calls) (.done call :: xs) answer := by
  cases h with
  | all => exact .all (call :: calls)
  | failed before after failing e => exact .failed (call :: before) after failing e

theorem performAll (calls : List Call)
    : Dialogue fs log (fs.performAll calls) ((Transcribed.filesystem fs).performAll calls)
        (Performed calls) := by
  induction calls with
  | nil => exact .pure (.all [])
  | cons call calls ih =>
    unfold Filesystem.performAll
    apply bind (perform fs log call)
    intro xs answer hxs
    subst hxs
    cases answer with
    | ok =>
      apply weaken ih
      intro ys result hys
      exact hys.cons call
    | error e => exact .pure (.failed [] calls call e)

end Dialogue

end

end RunnerKit
