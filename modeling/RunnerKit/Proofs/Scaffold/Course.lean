import RunnerKit.Proofs.Project.Render
import RunnerKit.Proofs.Storage.Transcript
/-!
This module contains the exchanges that the generation of a project has with a storage, whatever the
storage answers.
-/

namespace RunnerKit
namespace Scaffold

/--
The calls that write a file below a root. It comes after the directory that it lies in, and it is
marked at once if it is executable.
-/
def fileSequence (root : Path) (file : ProjectFile) : List Call :=
  let path := root.join file.path
  (path.parent?.map Call.createDirAll).toList
    ++ [.writeFile path file.content]
    ++ (if file.executable then [.setExecutable path] else [])

def writeSequence (root : Path) (files : List ProjectFile) : List Call :=
  .createDirAll root :: files.flatMap (fileSequence root)

theorem writeCalls_eq_writeSequence (project : ProjectStructure)
    : project.writeCalls = writeSequence project.root project.files := by
  unfold ProjectStructure.writeCalls writeSequence
  congr
  funext file
  simp only [ProjectStructure.fileCalls, ProjectStructure.location, fileSequence]
  cases (project.root.join file.path).parent? <;> simp

inductive Clearing (root : Path) (overwrite : Bool) : List Exchange → Except Error Unit → Prop where
  | free : Clearing root overwrite [.asked root false] (.ok ())
  | removed (hoverwrite : overwrite = true)
    : Clearing root overwrite [.asked root true, .call (.removeDirAll root) (.ok ())] (.ok ())
  | occupied (hoverwrite : overwrite = false)
    : Clearing root overwrite [.asked root true] (.error (.failure (.projectExists root)))
  | unremoved {e : Error} (hoverwrite : overwrite = true)
    : Clearing root overwrite [.asked root true, .call (.removeDirAll root) (.error e)] (.error e)

/--
The exchanges that write a project, with what comes of them. The first call that fails is followed
by the removal of the root, whose answer has no say.
-/
inductive Writing (root : Path) (files : List ProjectFile)
    : List Exchange → Except Error Unit → Prop where
  | written : Writing root files ((writeSequence root files).map .done) (.ok ())
  | rolledBack {before after : List Call} {call : Call} {e : Error} {answer : Except Error Unit}
      (hcalls : writeSequence root files = before ++ call :: after)
    : Writing root files
        (before.map .done ++ [.call call (.error e), .call (.removeDirAll root) answer]) (.error e)

inductive Course (store : Store) (request : ScaffoldRequest) (overwrite : Bool)
    : List Exchange → Except Error ProjectStructure → Prop where
  | unplanned {e : Error} (hplan : store.plan request = .error e)
    : Course store request overwrite [] (.error e)
  | blocked {project : ProjectStructure} {xs : List Exchange} {e : Error}
      (hplan : store.plan request = .ok project)
      (hclearing : Clearing request.root overwrite xs (.error e))
    : Course store request overwrite xs (.error e)
  | written {project : ProjectStructure} {xs ys : List Exchange}
      (hplan : store.plan request = .ok project)
      (hclearing : Clearing request.root overwrite xs (.ok ()))
      (hwriting : Writing request.root project.files ys (.ok ()))
    : Course store request overwrite (xs ++ ys) (.ok project)
  | rolledBack {project : ProjectStructure} {xs ys : List Exchange} {e : Error}
      (hplan : store.plan request = .ok project)
      (hclearing : Clearing request.root overwrite xs (.ok ()))
      (hwriting : Writing request.root project.files ys (.error e))
    : Course store request overwrite (xs ++ ys) (.error e)

section

variable {root : Path} {files : List ProjectFile} {overwrite : Bool} {xs : List Exchange}
  {call : Call} {answer : Except Error Unit}

theorem mem_of_mem_map_done {calls : List Call} (h : .call call answer ∈ calls.map Exchange.done)
    : call ∈ calls := by
  obtain ⟨other, hmem, heq⟩ := List.mem_map.mp h
  cases heq
  exact hmem

theorem Clearing.eq_removeDirAll {result : Except Error Unit}
    (h : Clearing root overwrite xs result) (hcall : .call call answer ∈ xs)
    : call = .removeDirAll root := by
  cases h <;> simp_all

theorem Writing.mem_or_eq {result : Except Error Unit} (h : Writing root files xs result)
    (hcall : .call call answer ∈ xs)
    : call ∈ writeSequence root files ∨ call = .removeDirAll root := by
  cases h with
  | written => exact Or.inl (mem_of_mem_map_done hcall)
  | @rolledBack before after failed e _ hcalls =>
    cases List.mem_append.mp hcall with
    | inl hbefore =>
      left
      rw [hcalls]
      exact List.mem_append_left _ (mem_of_mem_map_done hbefore)
    | inr hlast =>
      cases hlast with
      | head =>
        left
        rw [hcalls]
        exact List.mem_append_right _ List.mem_cons_self
      | tail _ hrollback =>
        cases List.mem_singleton.mp hrollback
        exact Or.inr rfl

theorem Course.mem_or_eq {store : Store} {request : ScaffoldRequest}
    {result : Except Error ProjectStructure} (h : Course store request overwrite xs result)
    (hcall : .call call answer ∈ xs)
    : (∃ project, store.plan request = .ok project ∧
        call ∈ writeSequence request.root project.files) ∨
      call = .removeDirAll request.root := by
  cases h with
  | unplanned => simp at hcall
  | blocked _ hclearing => exact Or.inr (hclearing.eq_removeDirAll hcall)
  | written hplan hclearing hwriting | rolledBack hplan hclearing hwriting =>
    cases List.mem_append.mp hcall with
    | inl hcall => exact Or.inr (hclearing.eq_removeDirAll hcall)
    | inr hcall =>
      cases hwriting.mem_or_eq hcall with
      | inl hcall => exact Or.inl ⟨_, hplan, hcall⟩
      | inr hcall => exact Or.inr hcall

theorem Course.mem_writeSequence {store : Store} {request : ScaffoldRequest}
    {result : Except Error ProjectStructure} (h : Course store request overwrite xs result)
    {project : ProjectStructure} (hplan : store.plan request = .ok project)
    (hcall : .call call answer ∈ xs) (hremoval : call ≠ .removeDirAll request.root)
    : call ∈ writeSequence project.root project.files := by
  cases h.mem_or_eq hcall with
  | inl hcall =>
    obtain ⟨_, hother, hcall⟩ := hcall
    rw [hplan, Except.ok.injEq] at hother
    rw [store.root_of_plan hplan, hother]
    exact hcall
  | inr heq => exact absurd heq hremoval

end

variable {σ : Type} (fs : Filesystem (StateM σ)) (log : Event → StateM σ Unit)

theorem clear_dialogue (root : Path) (overwrite : Bool)
    : Dialogue fs log (clear fs log root overwrite)
        (clear (Transcribed.filesystem fs) (Transcribed.log log) root overwrite)
        (Clearing root overwrite) := by
  unfold clear
  apply Dialogue.bind (.holds fs log root)
  intro xs there hxs
  subst hxs
  cases there with
  | false => exact .pure .free
  | true =>
    cases overwrite with
    | false => exact .pure (.occupied rfl)
    | true =>
      apply Dialogue.bind (.event fs log removing)
      intro ys _ hys
      subst hys
      apply Dialogue.weaken (.perform fs log (.removeDirAll root))
      intro zs answer hzs
      subst hzs
      cases answer with
      | error e => exact .unremoved rfl
      | ok => exact .removed rfl

theorem rollback_dialogue (root : Path)
    : Dialogue fs log (rollback fs log root)
        (rollback (Transcribed.filesystem fs) (Transcribed.log log) root)
        fun xs _ => ∃ answer, xs = [.call (.removeDirAll root) answer] := by
  unfold rollback
  apply Dialogue.bind (.perform fs log (.removeDirAll root))
  intro xs answer hxs
  subst hxs
  cases answer <;>
  . apply Dialogue.weaken (.event fs log _)
    intro ys _ hys
    subst hys
    exact ⟨_, rfl⟩

theorem write_dialogue (project : ProjectStructure)
    : Dialogue fs log (write fs log project)
        (write (Transcribed.filesystem fs) (Transcribed.log log) project)
        (Writing project.root project.files) := by
  unfold write
  rw [writeCalls_eq_writeSequence]
  apply Dialogue.bind (.performAll fs log (writeSequence project.root project.files))
  intro xs answer hxs
  generalize hcalls : writeSequence project.root project.files = calls at hxs
  cases hxs with
  | all =>
    apply Dialogue.pure
    rw [List.append_nil, ← hcalls]
    exact .written
  | failed before after call e =>
    apply Dialogue.bind (.event fs log rollingBack)
    intro ys _ hys
    subst hys
    apply Dialogue.bind (rollback_dialogue fs log project.root)
    intro zs _ hzs
    obtain ⟨answer, rfl⟩ := hzs
    apply Dialogue.pure
    rw [List.append_nil, List.nil_append, List.append_assoc]
    exact .rolledBack hcalls

theorem run_dialogue (store : Store) (request : ScaffoldRequest) (overwrite : Bool)
    : Dialogue fs log (run fs log store request overwrite)
        (run (Transcribed.filesystem fs) (Transcribed.log log) store request overwrite)
        (Course store request overwrite) := by
  unfold run
  apply Dialogue.bind (.events fs log (store.planEvents request))
  intro xs _ hxs
  subst hxs
  cases hplan : store.plan request with
  | error e => exact .pure (.unplanned hplan)
  | ok project =>
    have hroot := store.root_of_plan hplan
    apply Dialogue.bind (.event fs log (rendered project))
    intro xs _ hxs
    subst hxs
    apply Dialogue.bind (clear_dialogue fs log project.root overwrite)
    intro xs answer hclearing
    rw [hroot] at hclearing
    cases answer with
    | error e =>
      apply Dialogue.pure
      simpa using Course.blocked hplan hclearing
    | ok =>
      apply Dialogue.bind (write_dialogue fs log project)
      intro ys answer hwriting
      rw [hroot] at hwriting
      cases answer with
      | error e =>
        apply Dialogue.pure
        simpa using Course.rolledBack hplan hclearing hwriting
      | ok =>
        apply Dialogue.bind (.event fs log completed)
        intro zs _ hzs
        subst hzs
        apply Dialogue.pure
        simpa using Course.written hplan hclearing hwriting

theorem course_of_run (store : Store) (request : ScaffoldRequest) (overwrite : Bool) (s : σ)
    : let outcome := run fs log store request overwrite s
      ∃ xs,
        run (Transcribed.filesystem fs) (Transcribed.log log) store request overwrite { inner := s } =
          (outcome.1, { inner := outcome.2, exchanges := xs }) ∧
        Course store request overwrite xs outcome.1 := by
  intro outcome
  obtain ⟨xs, htranscribed, _, hcourse⟩ :=
    run_dialogue fs log store request overwrite { inner := s }
  exact ⟨xs, htranscribed, hcourse⟩

end Scaffold
end RunnerKit
