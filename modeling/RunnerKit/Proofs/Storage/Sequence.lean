import RunnerKit.Proofs.Storage.Replay
/-!
This module contains what a sequence of calls does to a memory if all of them are done, one place at
a time.
-/

namespace RunnerKit
namespace Memory

def afterAll (s : Memory) (calls : List Call) : Memory := calls.foldl after s

def AdmitsAll : Memory → List Call → Prop
  | _, [] => True
  | s, call :: calls => s.admits call = true ∧ (s.after call).AdmitsAll calls

variable {s s' : Memory} {call : Call} {calls : List Call} {place : List Component}

@[simp]
theorem afterAll_nil : s.afterAll [] = s := rfl

@[simp]
theorem afterAll_cons : s.afterAll (call :: calls) = (s.after call).afterAll calls := rfl

theorem admitsAll_append {before after : List Call}
    : s.AdmitsAll (before ++ after) ↔ s.AdmitsAll before ∧ (s.afterAll before).AdmitsAll after := by
  induction before generalizing s with
  | nil => simp [AdmitsAll]
  | cons call before ih => simp [AdmitsAll, ih, and_assoc]

theorem Replay.eq_afterAll {faulty : Bool} (h : Replay faulty s (calls.map .done) s')
    : s' = s.afterAll calls := by
  induction calls generalizing s with
  | nil => exact h.eq_of_nil
  | cons call calls ih =>
    cases h with
    | done _ h => exact ih h

theorem Replay.not_admitsAll {before after : List Call} {e : Error} {xs : List Exchange}
    (h : Replay false s (before.map .done ++ .call call (.error e) :: xs) s')
    : ¬s.AdmitsAll (before ++ call :: after) := by
  induction before generalizing s with
  | nil =>
    intro hadmits
    cases h with
    | failed hrefused => simp [hadmits.1] at hrefused
  | cons first before ih =>
    intro hadmits
    cases h with
    | done _ h => exact ih h hadmits.2

theorem mem_directories_after (hcall : ∀ path, .removeDirAll path ≠ call)
    : place ∈ (s.after call).directories
        ↔
      place ∈ s.directories
        ∨ (place ≠ [] ∧ ∃ path, call = .createDirAll path ∧ place <+: path.components) := by
  cases call with
  | removeDirAll path => exact absurd rfl (hcall path)
  | _ => simp [after]

theorem mem_directories_afterAll (hcalls : ∀ path, .removeDirAll path ∉ calls)
    : place ∈ (s.afterAll calls).directories
        ↔
      place ∈ s.directories
        ∨ (place ≠ [] ∧ ∃ path, .createDirAll path ∈ calls ∧ place <+: path.components) := by
  induction calls generalizing s with
  | nil => simp
  | cons call calls ih =>
    simp only [List.mem_cons, not_or, forall_and] at hcalls
    rw [afterAll_cons, ih hcalls.2, mem_directories_after hcalls.1]
    simp only [List.mem_cons, or_and_right, exists_or, and_or_left, or_assoc, @eq_comm _ call]

theorem mem_executables_after (hcall : ∀ path, .removeDirAll path ≠ call)
    : place ∈ (s.after call).executables
        ↔
      place ∈ s.executables ∨ ∃ path, call = .setExecutable path ∧ path.components = place := by
  cases call with
  | removeDirAll path => exact absurd rfl (hcall path)
  | _ => simp [after]

theorem mem_executables_afterAll (hcalls : ∀ path, .removeDirAll path ∉ calls)
    : place ∈ (s.afterAll calls).executables
        ↔
      place ∈ s.executables ∨ ∃ path, .setExecutable path ∈ calls ∧ path.components = place := by
  induction calls generalizing s with
  | nil => simp
  | cons call calls ih =>
    simp only [List.mem_cons, not_or, forall_and] at hcalls
    rw [afterAll_cons, ih hcalls.2, mem_executables_after hcalls.1]
    simp only [List.mem_cons, or_and_right, exists_or, or_assoc, @eq_comm _ call]

def written (place : List Component) (old? : Option MemoryFile) : Call → Option MemoryFile
  | .writeFile path content =>
    if path.components = place then some (rewritten old? path content) else old?
  | _ => old?

theorem getElem?_files_after (hcall : ∀ path, .removeDirAll path ≠ call)
    : (s.after call).files[place]? = written place s.files[place]? call := by
  cases call with
  | removeDirAll path => exact absurd rfl (hcall path)
  | writeFile path content => exact getElem?_files_put s path content place
  | _ => rfl

theorem getElem?_files_afterAll (hcalls : ∀ path, .removeDirAll path ∉ calls)
    : (s.afterAll calls).files[place]? = calls.foldl (written place) s.files[place]? := by
  induction calls generalizing s with
  | nil => rfl
  | cons call calls ih =>
    simp only [List.mem_cons, not_or, forall_and] at hcalls
    rw [afterAll_cons, ih hcalls.2, List.foldl_cons,
      getElem?_files_after hcalls.1]

end Memory
end RunnerKit
