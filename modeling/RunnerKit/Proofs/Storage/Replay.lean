import RunnerKit.Proofs.Storage.Reachable
import RunnerKit.Proofs.Storage.Transcript
import RunnerKit.Storage.Recorder
/-!
This module contains what a conversation does to a storage that keeps a memory, with and without
calls that fail for no reason of the memory.
-/

namespace RunnerKit

/--
A storage that keeps a memory in its state. If `faulty`, it may refuse any call, with any error; the
memory then stays as it is. Reported events do not concern the memory.
-/
structure MemoryStorage (faulty : Bool) (σ : Type) where
  filesystem : Filesystem (StateM σ)
  log : Event → StateM σ Unit
  memory : σ → Memory
  perform_cases : ∀ (call : Call) (s : σ),
    ((filesystem.perform call s).1 = ((memory s).apply call).1 ∧
      memory (filesystem.perform call s).2 = ((memory s).apply call).2) ∨
    (faulty = true ∧ (∃ e, (filesystem.perform call s).1 = .error e) ∧
      memory (filesystem.perform call s).2 = memory s)
  holds_eq : ∀ (path : Path) (s : σ), (filesystem.holds path s).1 = (memory s).holds path
  memory_holds : ∀ (path : Path) (s : σ), memory (filesystem.holds path s).2 = memory s
  memory_log : ∀ (event : Event) (s : σ), memory (log event s).2 = memory s

def Memory.storage : MemoryStorage false Memory where
  filesystem := Memory.filesystem
  log _ := return ()
  memory s := s
  perform_cases _ _ := Or.inl ⟨rfl, rfl⟩
  holds_eq _ _ := rfl
  memory_holds _ _ := rfl
  memory_log _ _ := rfl

def Recorder.storage : MemoryStorage true (Recorder Memory) where
  filesystem := Recorder.filesystem Memory.filesystem
  log _ := return ()
  memory r := r.inner
  perform_cases call r := by
    dsimp only [Recorder.filesystem]
    split
    . exact Or.inr ⟨rfl, ⟨_, rfl⟩, rfl⟩
    . exact Or.inl ⟨rfl, rfl⟩
  holds_eq _ _ := rfl
  memory_holds _ _ := rfl
  memory_log _ _ := rfl

namespace Memory

/--
What exchanges with a memory do to it. A call fails if the memory does not admit it, or for no
reason if `faulty`.
-/
inductive Replay (faulty : Bool) : Memory → List Exchange → Memory → Prop where
  | nil (s : Memory) : Replay faulty s [] s
  | done {s s' : Memory} {xs : List Exchange} {call : Call} (hadmits : s.admits call = true)
      (h : Replay faulty (s.after call) xs s') : Replay faulty s (.call call (.ok ()) :: xs) s'
  | failed {s s' : Memory} {xs : List Exchange} {call : Call} {e : Error}
      (hrefused : s.admits call = false ∨ faulty = true) (h : Replay faulty s xs s')
    : Replay faulty s (.call call (.error e) :: xs) s'
  | asked {s s' : Memory} {xs : List Exchange} {path : Path} {answer : Bool}
      (hanswer : answer = s.holds path) (h : Replay faulty s xs s')
    : Replay faulty s (.asked path answer :: xs) s'

variable {faulty : Bool} {s s' : Memory} {xs ys : List Exchange}

theorem Replay.call (call : Call) (h : Replay faulty (s.apply call).2 xs s')
    : Replay faulty s (.call call (s.apply call).1 :: xs) s' := by
  cases hadmits : s.admits call with
  | true =>
    rw [apply_of_admits s hadmits] at h ⊢
    exact .done hadmits h
  | false =>
    rw [apply_of_not_admits s hadmits] at h ⊢
    exact .failed (Or.inl hadmits) h

theorem Replay.of_converses {σ : Type} (storage : MemoryStorage faulty σ) {a b : σ}
    (h : Converses storage.filesystem storage.log a xs b)
    : Replay faulty (storage.memory a) xs (storage.memory b) := by
  induction h with
  | nil => exact .nil _
  | @event s _ _ event _ ih => rwa [storage.memory_log] at ih
  | @call s _ _ call _ ih =>
    cases storage.perform_cases call s with
    | inl h =>
      rw [h.2] at ih
      rw [h.1]
      exact ih.call call
    | inr h =>
      obtain ⟨hfaulty, ⟨e, herror⟩, hmemory⟩ := h
      rw [hmemory] at ih
      rw [herror]
      exact .failed (Or.inr hfaulty) ih
  | @asked s _ _ path _ ih =>
    rw [storage.memory_holds] at ih
    exact .asked (storage.holds_eq path s) ih

theorem Replay.eq_of_nil (h : Replay faulty s [] s') : s' = s := by
  cases h
  rfl

theorem Replay.of_append (h : Replay faulty s (xs ++ ys) s')
    : ∃ t, Replay faulty s xs t ∧ Replay faulty t ys s' := by
  induction xs generalizing s with
  | nil => exact ⟨s, .nil s, h⟩
  | cons x xs ih =>
    cases h with
    | done hadmits h =>
      obtain ⟨t, ht, h⟩ := ih h
      exact ⟨t, .done hadmits ht, h⟩
    | failed hrefused h =>
      obtain ⟨t, ht, h⟩ := ih h
      exact ⟨t, .failed hrefused ht, h⟩
    | asked hanswer h =>
      obtain ⟨t, ht, h⟩ := ih h
      exact ⟨t, .asked hanswer ht, h⟩

end Memory
end RunnerKit
