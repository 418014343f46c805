import RunnerKit.Proofs.Scaffold.Atomicity
import RunnerKit.Proofs.Scaffold.Generation
import RunnerKit.Proofs.Storage.Independent
/-!
This module contains the fact that projects with unrelated roots can be generated in either order. A
generation comes down to calls that concern its root, and which calls these are depends on nothing in
the memory but on whether there is something at the root.
-/

namespace RunnerKit
namespace Scaffold

open Memory

section

variable (store : Store) (request : ScaffoldRequest) (overwrite occupied : Bool)

def settled : Except Error ProjectStructure := do
  let project ← store.plan request
  if occupied && !overwrite then .error (.failure (.projectExists request.root)) else .ok project

def settledCalls : List Call :=
  match settled store request overwrite occupied with
  | .error _ => []
  | .ok project =>
    (if occupied then [.removeDirAll request.root] else []) ++
      writeSequence request.root project.files

variable {store} {request} {overwrite} {occupied}

theorem settled_of_plan_error {e : Error} (hplan : store.plan request = .error e)
    : settled store request overwrite occupied = .error e := by
  rw [settled, hplan]
  rfl

theorem settled_of_plan_ok {project : ProjectStructure} (hplan : store.plan request = .ok project)
    : settled store request overwrite occupied =
      if occupied && !overwrite then .error (.failure (.projectExists request.root))
      else .ok project := by
  rw [settled, hplan]
  rfl

theorem concerns_of_mem_settledCalls
    : ∀ call ∈ settledCalls store request overwrite occupied, call.Concerns request.root := by
  intro call hcall
  unfold settledCalls at hcall
  split at hcall
  . simp at hcall
  . next project hsettled =>
    cases hplan : store.plan request with
    | error e =>
      rw [settled_of_plan_error hplan] at hsettled
      cases hsettled
    | ok planned =>
      rw [settled_of_plan_ok hplan] at hsettled
      split at hsettled
      . cases hsettled
      . cases hsettled
        cases List.mem_append.mp hcall with
        | inl hcall =>
          split at hcall
          . rw [List.mem_singleton.mp hcall]
            exact List.prefix_rfl
          . simp at hcall
        | inr hcall => exact concerns_of_mem_writeSequence (store.isAbsolute_of_plan hplan) hcall

end

variable {σ : Type} (storage : MemoryStorage false σ) (store : Store)

theorem vacated_eq_afterAll (root : Path) (s : Memory)
    : vacated root s = s.afterAll (if s.holds root then [.removeDirAll root] else []) := by
  unfold vacated
  split <;> rfl

theorem afterAll_append (s : Memory) (calls calls' : List Call)
    : s.afterAll (calls ++ calls') = (s.afterAll calls).afterAll calls' := List.foldl_append

theorem run_eq_settled (request : ScaffoldRequest) (overwrite : Bool) (s : σ)
    : let outcome := run storage.filesystem storage.log store request overwrite s
      let occupied := (storage.memory s).holds request.root
      outcome.1 = settled store request overwrite occupied ∧
      storage.memory outcome.2 =
        (storage.memory s).afterAll (settledCalls store request overwrite occupied) := by
  intro outcome occupied
  obtain ⟨xs, _, hxs, hcourse⟩ :=
    run_dialogue storage.filesystem storage.log store request overwrite { inner := s }
  have hreplay : Replay false (storage.memory s) xs (storage.memory outcome.2) :=
    .of_converses storage hxs
  have hresult : outcome.1 = (run storage.filesystem storage.log store request overwrite s).1 := rfl
  rw [← hresult] at hcourse
  generalize outcome.1 = result at hcourse ⊢
  cases hcourse with
  | unplanned hplan =>
    rw [settledCalls, settled_of_plan_error hplan]
    exact ⟨rfl, hreplay.eq_of_nil⟩
  | blocked hplan hclearing =>
    rw [settledCalls, settled_of_plan_ok hplan]
    cases hclearing.of_replay hreplay with
    | inl h => exact absurd h.1 (by simp)
    | inr h =>
      obtain ⟨herror, hfull, hsame⟩ := h
      have hoccupied : (occupied && !overwrite) = true := by
        simpa [occupied] using hfull
      rw [hoccupied]
      cases herror
      exact ⟨rfl, hsame⟩
  | written hplan hclearing hwriting =>
    rw [settledCalls, settled_of_plan_ok hplan]
    obtain ⟨t, ht, hreplay⟩ := hreplay.of_append
    cases hclearing.of_replay ht with
    | inl h =>
      obtain ⟨_, hfree, hvacated⟩ := h
      have hoccupied : (occupied && !overwrite) = false := by
        cases hfree with
        | inl hfree => simp [occupied, hfree]
        | inr hfree => simp [hfree]
      rw [hoccupied]
      refine ⟨rfl, ?_⟩
      rw [(hwriting.of_replay hreplay).2, hvacated, vacated_eq_afterAll, ← afterAll_append]
      rfl
    | inr h => exact absurd h.1 (by simp)
  | rolledBack _ _ hwriting =>
    obtain ⟨t, _, hreplay⟩ := hreplay.of_append
    exact absurd (hwriting.of_replay hreplay).1 (by simp)

theorem holds_of_run {first second : ScaffoldRequest} (hroots : first.root.Unrelated second.root)
    (overwrite : Bool) (s : σ)
    : (storage.memory (run storage.filesystem storage.log store first overwrite s).2).holds second.root =
      (storage.memory s).holds second.root := by
  rw [(run_eq_settled storage store first overwrite s).2]
  apply AgreeAt.holds_eq
  exact agreeAt_afterAll hroots concerns_of_mem_settledCalls List.prefix_rfl _

theorem run_comm {first second : ScaffoldRequest} (hroots : first.root.Unrelated second.root)
    (overwriteFirst overwriteSecond : Bool) (s : σ)
    : let runFirst := run storage.filesystem storage.log store first overwriteFirst
      let runSecond := run storage.filesystem storage.log store second overwriteSecond
      (runFirst (runSecond s).2).1 = (runFirst s).1 ∧
      (runSecond (runFirst s).2).1 = (runSecond s).1 ∧
      Same (storage.memory (runSecond (runFirst s).2).2)
        (storage.memory (runFirst (runSecond s).2).2) := by
  -- Each generation comes down to its settled calls, and these change nothing at an unrelated root.
  intro runFirst runSecond
  have hfirst (s : σ) := run_eq_settled storage store first overwriteFirst s
  have hsecond (s : σ) := run_eq_settled storage store second overwriteSecond s
  have hheld := holds_of_run storage store hroots overwriteFirst s
  have hheld' := holds_of_run storage store hroots.symm overwriteSecond s
  refine ⟨?_, ?_, ?_⟩
  . rw [(hfirst _).1, hheld', (hfirst s).1]
  . rw [(hsecond _).1, hheld, (hsecond s).1]
  . rw [(hsecond _).2, hheld, (hfirst s).2, (hfirst _).2, hheld', (hsecond s).2]
    exact afterAll_comm hroots concerns_of_mem_settledCalls concerns_of_mem_settledCalls _

def firstSibling : ScaffoldRequest := { twoFileRequest with root := .ofString "w/p" }

def secondSibling : ScaffoldRequest := { twoFileRequest with root := .ofString "w/q" }

def crowded : Memory :=
  .ofCalls [.createDirAll (.ofString "w/p/old"), .writeFile (.ofString "w/p/old/f") "x",
    .writeFile (.ofString "w/q") "y"]

theorem siblings_comm :
    let runFirst := run Memory.storage.filesystem Memory.storage.log twoFileStore firstSibling true
    let runSecond := run Memory.storage.filesystem Memory.storage.log twoFileStore secondSibling false
    firstSibling.root.Unrelated secondSibling.root ∧
    (runSecond crowded).1 = .error (.failure (.projectExists (.ofString "w/q"))) ∧
    (runFirst (runSecond crowded).2).1 = (runFirst crowded).1 ∧
    (runSecond (runFirst crowded).2).1 = (runSecond crowded).1 ∧
    Same (runSecond (runFirst crowded).2).2 (runFirst (runSecond crowded).2).2 := by
  have hfirst : firstSibling.root.components = [.normal [119], .normal [112]] := by decide +kernel
  have hsecond : secondSibling.root.components = [.normal [119], .normal [113]] := by decide +kernel
  have hroots : firstSibling.root.Unrelated secondSibling.root := by
    rw [Path.Unrelated, hfirst, hsecond]
    decide
  exact ⟨hroots, by decide +kernel, run_comm Memory.storage twoFileStore hroots true false crowded⟩

end Scaffold
end RunnerKit
