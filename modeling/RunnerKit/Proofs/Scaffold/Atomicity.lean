import RunnerKit.Proofs.Path.Parent
import RunnerKit.Proofs.Scaffold.Course
import RunnerKit.Proofs.Storage.Confined
/-!
This module contains what a generation that fails leaves behind in memory, whichever calls failed:
nothing but directories on the way to its root, as long as it could remove the root again.
-/

namespace RunnerKit
namespace Scaffold

theorem concerns_of_mem_writeSequence {root : Path} {files : List ProjectFile}
    (hfiles : ∀ file ∈ files, file.path.isAbsolute = false) {call : Call}
    (hcall : call ∈ writeSequence root files) : call.Concerns root := by
  simp only [writeSequence, fileSequence, List.mem_cons, List.mem_flatMap, List.mem_append] at hcall
  cases hcall with
  | inl hcall =>
    rw [hcall]
    exact Or.inl List.prefix_rfl
  | inr hcall =>
    obtain ⟨file, hfile, hcall⟩ := hcall
    have hroot := Path.components_prefix_join root (hfiles file hfile)
    obtain (hparent | hwrite) | hmark := hcall
    . simp only [Option.mem_toList, Option.map_eq_some_iff] at hparent
      obtain ⟨parent, hparent, rfl⟩ := hparent
      have hfront := List.dropLast_prefix (root.join file.path).components
      rw [← Path.components_of_parent?_eq_some hparent] at hfront
      exact List.prefix_or_prefix_of_prefix hfront hroot
    . rw [hwrite.resolve_right List.not_mem_nil]
      exact hroot
    . split at hmark
      . rw [List.mem_singleton.mp hmark]
        exact hroot
      . simp at hmark

variable {store : Store} {request : ScaffoldRequest} {overwrite : Bool} {xs : List Exchange}
  {result : Except Error ProjectStructure}

theorem Course.concerns (h : Course store request overwrite xs result) (call : Call)
    (answer : Except Error Unit) (hcall : .call call answer ∈ xs) : call.Concerns request.root := by
  cases h.mem_or_eq hcall with
  | inl hcall =>
    obtain ⟨project, hplan, hcall⟩ := hcall
    exact concerns_of_mem_writeSequence (store.isAbsolute_of_plan hplan) hcall
  | inr hcall =>
    rw [hcall]
    exact List.prefix_rfl

/--
Whether anything was asked of the storage that writes the project. The first such call makes the
root.
-/
def BeganWriting (root : Path) (xs : List Exchange) : Prop :=
  ∃ answer, .call (.createDirAll root) answer ∈ xs

theorem Writing.beganWriting {root : Path} {files : List ProjectFile} {e : Error}
    (h : Writing root files xs (.error e)) : BeganWriting root xs := by
  generalize hresult : Except.error e = result at h
  cases h with
  | written => simp at hresult
  | @rolledBack before after call e _ hcalls =>
    cases before with
    | nil =>
      have : call = .createDirAll root := by
        simp only [writeSequence, List.nil_append, List.cons.injEq] at hcalls
        exact hcalls.1.symm
      rw [this]
      exact ⟨_, List.mem_cons_self⟩
    | cons first rest =>
      have : first = .createDirAll root := by
        simp only [writeSequence, List.cons_append, List.cons.injEq] at hcalls
        exact hcalls.1.symm
      rw [this]
      exact ⟨_, List.mem_cons_self⟩

theorem Clearing.not_beganWriting {root : Path} {result : Except Error Unit}
    (h : Clearing root overwrite xs result) : ¬BeganWriting root xs := by
  rintro ⟨answer, hcall⟩
  cases h <;> simp at hcall

theorem Course.getLast?_eq {e : Error} (h : Course store request overwrite xs (.error e))
    (hbegan : BeganWriting request.root xs)
    : ∃ answer, xs.getLast? = some (.call (.removeDirAll request.root) answer) := by
  cases h with
  | unplanned =>
    obtain ⟨_, hcall⟩ := hbegan
    simp at hcall
  | blocked _ hclearing => exact absurd hbegan hclearing.not_beganWriting
  | rolledBack _ _ hwriting =>
    cases hwriting with
    | @rolledBack _ _ _ _ answer _ => exact ⟨answer, by simp⟩

open Memory in
theorem Course.eq_of_not_beganWriting {faulty : Bool} {s s' : Memory} {e : Error}
    (h : Course store request overwrite xs (.error e)) (hbegan : ¬BeganWriting request.root xs)
    (hreplay : Replay faulty s xs s') : s' = s := by
  cases h with
  | unplanned => exact hreplay.eq_of_nil
  | blocked _ hclearing =>
    cases hclearing with
    | occupied =>
      cases hreplay with
      | asked _ hreplay => exact hreplay.eq_of_nil
    | unremoved =>
      cases hreplay with
      | asked _ hreplay =>
        cases hreplay with
        | failed _ hreplay => exact hreplay.eq_of_nil
  | rolledBack _ _ hwriting =>
    obtain ⟨answer, hcall⟩ := hwriting.beganWriting
    exact absurd ⟨answer, List.mem_append_right _ hcall⟩ hbegan

theorem atomic_of_run_eq_error {σ : Type} (storage : MemoryStorage true σ) (store : Store)
    (request : ScaffoldRequest) (overwrite : Bool) (s : σ) (calls : List Call)
    (hreachable : storage.memory s = Memory.ofCalls calls) (hroot : request.root.isEmpty = false)
    {e : Error} {t : Transcribed σ}
    (hrun : run (Transcribed.filesystem storage.filesystem) (Transcribed.log storage.log) store request
      overwrite { inner := s } = (.error e, t))
    : Memory.SameOutside request.root (storage.memory s) (storage.memory t.inner) ∧
      (¬BeganWriting request.root t.exchanges → storage.memory t.inner = storage.memory s) ∧
      (BeganWriting request.root t.exchanges →
        ∃ answer, t.exchanges.getLast? = some (.call (.removeDirAll request.root) answer) ∧
          (answer = .ok () →
            Memory.Cleared request.root (storage.memory t.inner) ∧
            ((storage.memory s).holds request.root = false →
              Memory.Restored request.root (storage.memory s) (storage.memory t.inner)))) := by
  -- Every call of a generation concerns its root, and one that fails after it began to write ends
  -- with the removal of the root. What a memory makes of such calls is replayed.
  obtain ⟨xs, htranscribed, hxs, hcourse⟩ :=
    run_dialogue storage.filesystem storage.log store request overwrite { inner := s }
  rw [hrun] at htranscribed
  obtain ⟨herror, rfl⟩ := Prod.mk.inj htranscribed
  rw [← herror] at hcourse
  have hreplay := Memory.Replay.of_converses storage hxs
  have hsame := hreplay.sameOutside hcourse.concerns
  rw [List.nil_append]
  refine ⟨hsame, ?_, ?_⟩
  . intro hbegan
    exact hcourse.eq_of_not_beganWriting hbegan hreplay
  . intro hbegan
    obtain ⟨answer, hlast⟩ := hcourse.getLast?_eq hbegan
    refine ⟨answer, hlast, ?_⟩
    intro hanswer
    subst hanswer
    obtain ⟨front, hfront⟩ := List.getLast?_eq_some_iff.mp hlast
    rw [hfront] at hreplay
    have hcleared := hreplay.cleared
    refine ⟨hcleared, ?_⟩
    intro hmissing
    have hclosed := Memory.closed_ofCalls calls
    rw [← hreachable] at hclosed
    exact .of_missing hclosed hroot hmissing hsame hcleared

def twoFileStore : Store :=
  let files : List TemplateFile :=
    [{ path := .ofString "a", content := "x" },
     { path := .ofString "b/c", content := "", executable := true }]
  ⟨Std.TreeMap.empty.insert "t" { id := "t", description := "", pathStyle := .default, files }⟩

def twoFileRequest : ScaffoldRequest where
  template := "t"
  context := ⟨Std.TreeMap.empty⟩
  root := .ofString "p"

def fullDisk : Recorder Memory where
  inner := .ofCalls [.createDirAll (.ofString "q"), .writeFile (.ofString "q/d") "kept"]
  faults := [⟨.writeFile, 2, "disk full"⟩]

def fullDiskRun : Except Error ProjectStructure × Transcribed (Recorder Memory) :=
  run (Transcribed.filesystem Recorder.storage.filesystem) (Transcribed.log Recorder.storage.log)
    twoFileStore twoFileRequest false { inner := fullDisk }

theorem restored_of_fullDisk :
    fullDiskRun.1 = .error (.failure (.filesystem (.ofString "p/b/c") "disk full")) ∧
    BeganWriting twoFileRequest.root fullDiskRun.2.exchanges ∧
    Memory.Restored twoFileRequest.root fullDisk.inner fullDiskRun.2.inner.inner := by
  have herror : fullDiskRun.1 =
      .error (.failure (.filesystem (.ofString "p/b/c") "disk full")) := by decide +kernel
  have hexchanges : fullDiskRun.2.exchanges =
      [.asked twoFileRequest.root false,
       .done (.createDirAll twoFileRequest.root),
       .done (.createDirAll twoFileRequest.root),
       .done (.writeFile (.ofString "p/a") "x"),
       .done (.createDirAll (.ofString "p/b")),
       .call (.writeFile (.ofString "p/b/c") "")
         (.error (.failure (.filesystem (.ofString "p/b/c") "disk full"))),
       .done (.removeDirAll twoFileRequest.root)] := by decide +kernel
  have hbegan : BeganWriting twoFileRequest.root fullDiskRun.2.exchanges := by
    rw [hexchanges]
    exact ⟨.ok (), by simp⟩
  have hatomic := atomic_of_run_eq_error Recorder.storage twoFileStore twoFileRequest false fullDisk
    [.createDirAll (.ofString "q"), .writeFile (.ofString "q/d") "kept"] rfl (by decide +kernel)
    (show fullDiskRun = _ from Prod.ext herror rfl)
  obtain ⟨answer, hlast, hrestored⟩ := hatomic.2.2 hbegan
  have hanswer : answer = .ok () := by
    rw [hexchanges] at hlast
    simpa using hlast.symm
  exact ⟨herror, hbegan, (hrestored hanswer).2 (by decide +kernel)⟩

end Scaffold
end RunnerKit
