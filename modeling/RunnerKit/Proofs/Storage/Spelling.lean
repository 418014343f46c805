import Mathlib.Data.List.Forall2
import RunnerKit.Proofs.Storage.Memory
import RunnerKit.Proofs.Values
/-!
This module contains the fact that a memory does not see how paths are spelled. Asked the same about
the same places, it answers the same, and only what it shows of paths may be spelled differently.
-/

namespace RunnerKit

/-! What is the same but for the spelling of paths. -/

inductive Call.Respelled : Call → Call → Prop where
  | createDirAll {path path' : Path} (h : path.SamePlace path')
    : Respelled (.createDirAll path) (.createDirAll path')
  | writeFile {path path' : Path} (content : String) (h : path.SamePlace path')
    : Respelled (.writeFile path content) (.writeFile path' content)
  | setExecutable {path path' : Path} (h : path.SamePlace path')
    : Respelled (.setExecutable path) (.setExecutable path')
  | removeDirAll {path path' : Path} (h : path.SamePlace path')
    : Respelled (.removeDirAll path) (.removeDirAll path')

inductive Error.Respelled : Error → Error → Prop where
  | filesystem {path path' : Path} (reason : String) (h : path.SamePlace path')
    : Respelled (.failure (.filesystem path reason)) (.failure (.filesystem path' reason))

namespace Memory

inductive Operation where
  | perform (call : Call)
  | holds (path : Path)
  | read (path : Path)
  | isExecutable (path : Path)

inductive Answer where
  | result (result : Except Error Unit)
  | flag (flag : Bool)
  | content (content? : Option String)

def operate (s : Memory) : Operation → Answer × Memory
  | .perform call => (.result (s.apply call).1, (s.apply call).2)
  | .holds path => (.flag (s.holds path), s)
  | .read path => (.content (s.read? path), s)
  | .isExecutable path => (.flag (s.isExecutable path), s)

/--
Asks a memory for some things in turn. A call that is refused does not end this.
-/
def operateAll (s : Memory) : List Operation → List Answer × Memory
  | [] => ([], s)
  | op :: ops =>
    let first := s.operate op
    let rest := first.2.operateAll ops
    (first.1 :: rest.1, rest.2)

inductive Operation.Respelled : Operation → Operation → Prop where
  | perform {call call' : Call} (h : call.Respelled call')
    : Respelled (.perform call) (.perform call')
  | holds {path path' : Path} (h : path.SamePlace path') : Respelled (.holds path) (.holds path')
  | read {path path' : Path} (h : path.SamePlace path') : Respelled (.read path) (.read path')
  | isExecutable {path path' : Path} (h : path.SamePlace path')
    : Respelled (.isExecutable path) (.isExecutable path')

inductive Answer.Respelled : Answer → Answer → Prop where
  | same (answer : Answer) : Respelled answer answer
  | refused {e e' : Error} (h : e.Respelled e')
    : Respelled (.result (.error e)) (.result (.error e'))

def placed (file : MemoryFile) : List Component × String := (file.spelling.components, file.content)

structure Alike (s s' : Memory) : Prop where
  files : ∀ place : List Component, s.files[place]?.map placed = s'.files[place]?.map placed
  directories : ∀ place : List Component, place ∈ s.directories ↔ place ∈ s'.directories
  executables : ∀ place : List Component, place ∈ s.executables ↔ place ∈ s'.executables

theorem Alike.refl (s : Memory) : Alike s s where
  files _ := rfl
  directories _ := Iff.rfl
  executables _ := Iff.rfl

theorem placed_rewritten_congr {old? old?' : Option MemoryFile} {path path' : Path}
    (hold : old?.map placed = old?'.map placed) (hpath : path.SamePlace path') (content : String)
    : placed (rewritten old? path content) = placed (rewritten old?' path' content) := by
  cases old? with
  | none =>
    cases old?' with
    | none => exact Prod.ext hpath rfl
    | some file' => simp at hold
  | some file =>
    cases old?' with
    | none => simp at hold
    | some file' =>
      simp only [Option.map_some, Option.some.injEq, placed, Prod.mk.injEq] at hold
      exact Prod.ext hold.1 rfl

namespace Alike

variable {s s' : Memory} (h : Alike s s')
include h

theorem isSome_iff (place : List Component)
    : s.files[place]?.isSome ↔ s'.files[place]?.isSome := by
  rw [← Option.isSome_map (f := placed), h.files, Option.isSome_map]

section

variable {path path' : Path} (hpath : path.SamePlace path')
include hpath

theorem hasParent_eq : s.hasParent path = s'.hasParent path' := by
  rw [Bool.eq_iff_iff, hasParent_iff, hasParent_iff, hpath, h.directories]

theorem holds_eq : s.holds path = s'.holds path' := by
  rw [Bool.eq_iff_iff, holds_iff, holds_iff, hpath, h.isSome_iff, h.directories]

theorem isExecutable_eq : s.isExecutable path = s'.isExecutable path' := by
  rw [Bool.eq_iff_iff, isExecutable_iff, isExecutable_iff, hpath, h.executables]

theorem read?_eq : s.read? path = s'.read? path' := by
  have hcontent := congrArg (Option.map Prod.snd) (h.files path.components)
  rw [Option.map_map, Option.map_map] at hcontent
  rw [read?, read?, ← hpath]
  exact hcontent

end

theorem admits_eq {call call' : Call} (hcall : call.Respelled call')
    : s.admits call = s'.admits call' := by
  cases hcall with
  | writeFile content hpath => exact h.hasParent_eq hpath
  | _ => rfl

theorem after {call call' : Call} (hcall : call.Respelled call')
    : Alike (s.after call) (s'.after call') := by
  cases hcall with
  | createDirAll hpath =>
    refine ⟨h.files, ?_, h.executables⟩
    intro place
    simp only [Memory.after, mem_directories_createDirAll]
    rw [h.directories, hpath]
  | writeFile content hpath =>
    refine ⟨?_, h.directories, h.executables⟩
    intro place
    simp only [Memory.after, getElem?_files_put]
    rw [← hpath]
    split
    . simp only [Option.map_some, placed_rewritten_congr (h.files place) hpath]
    . exact h.files place
  | setExecutable hpath =>
    refine ⟨h.files, h.directories, ?_⟩
    intro place
    simp only [Memory.after, mem_executables_setExecutable]
    rw [h.executables, hpath]
  | removeDirAll hpath =>
    constructor
    . intro place
      simp only [Memory.after, getElem?_files_removeDirAll]
      rw [← hpath]
      split
      . rfl
      . exact h.files place
    . intro place
      simp only [Memory.after, mem_directories_removeDirAll]
      rw [h.directories, hpath]
    . intro place
      simp only [Memory.after, mem_executables_removeDirAll]
      rw [h.executables, hpath]

theorem apply {call call' : Call} (hcall : call.Respelled call')
    : Answer.Respelled (.result (s.apply call).1) (.result (s'.apply call').1) ∧
      Alike (s.apply call).2 (s'.apply call').2 := by
  have hadmits' := h.admits_eq hcall
  cases hadmits : s.admits call with
  | true =>
    rw [hadmits] at hadmits'
    rw [apply_of_admits s hadmits, apply_of_admits s' hadmits'.symm]
    exact ⟨.same _, h.after hcall⟩
  | false =>
    rw [hadmits] at hadmits'
    rw [apply_of_not_admits s hadmits, apply_of_not_admits s' hadmits'.symm]
    refine ⟨.refused (.filesystem _ ?_), h⟩
    cases hcall <;> assumption

theorem operate {op op' : Operation} (hop : op.Respelled op')
    : (s.operate op).1.Respelled (s'.operate op').1 ∧
      Alike (s.operate op).2 (s'.operate op').2 := by
  cases hop with
  | perform hcall => exact h.apply hcall
  | holds hpath =>
    simp only [Memory.operate, h.holds_eq hpath]
    exact ⟨.same _, h⟩
  | read hpath =>
    simp only [Memory.operate, h.read?_eq hpath]
    exact ⟨.same _, h⟩
  | isExecutable hpath =>
    simp only [Memory.operate, h.isExecutable_eq hpath]
    exact ⟨.same _, h⟩

theorem operateAll {ops ops' : List Operation} (hops : List.Forall₂ Operation.Respelled ops ops')
    : List.Forall₂ Answer.Respelled (s.operateAll ops).1 (s'.operateAll ops').1 ∧
      Alike (s.operateAll ops).2 (s'.operateAll ops').2 := by
  induction hops generalizing s s' with
  | nil => exact ⟨.nil, h⟩
  | cons hop _ ih =>
    obtain ⟨hanswer, hnext⟩ := h.operate hop
    obtain ⟨hanswers, hlast⟩ := ih hnext
    exact ⟨.cons hanswer hanswers, hlast⟩

theorem toList : List.Forall₂ (fun file file' => placed file = placed file') s.toList s'.toList := by
  have hplaced : s.toList.map placed = s'.toList.map placed := map_values_congr h.files
  rw [← List.forall₂_eq_eq_eq, List.forall₂_map_left_iff, List.forall₂_map_right_iff] at hplaced
  exact hplaced

end Alike

theorem operateAll_respelled (s : Memory) {ops ops' : List Operation}
    (h : List.Forall₂ Operation.Respelled ops ops')
    : let (answers, t) := s.operateAll ops
      let (answers', t') := s.operateAll ops'
      List.Forall₂ Answer.Respelled answers answers' ∧
      List.Forall₂
        (fun file file' => file.spelling.SamePlace file'.spelling ∧ file.content = file'.content ∧
          t.isExecutable file.spelling = t'.isExecutable file'.spelling)
        t.toList t'.toList := by
  obtain ⟨hanswers, halike⟩ := (Alike.refl s).operateAll h
  refine ⟨hanswers, halike.toList.imp ?_⟩
  intro file file' hplaced
  obtain ⟨hpath, hcontent⟩ := Prod.mk.inj hplaced
  exact ⟨hpath, hcontent, halike.isExecutable_eq hpath⟩

def plainOperations : List Operation :=
  [.perform (.createDirAll (.ofString "a/b")), .perform (.writeFile (.ofString "a/b/c") "x"),
   .perform (.setExecutable (.ofString "a/b/c")), .perform (.writeFile (.ofString "d/e") "y"),
   .read (.ofString "a/b/c"), .perform (.removeDirAll (.ofString "a/b/..")),
   .holds (.ofString "a")]

def paddedOperations : List Operation :=
  [.perform (.createDirAll (.ofString "a//b/")), .perform (.writeFile (.ofString "a/./b/c") "x"),
   .perform (.setExecutable (.ofString "a/b/c/.")), .perform (.writeFile (.ofString "d//e") "y"),
   .read (.ofString "a/b//c/"), .perform (.removeDirAll (.ofString "a/b/./../")),
   .holds (.ofString "a/./.")]

theorem operateAll_padded
    : List.Forall₂ Operation.Respelled plainOperations paddedOperations ∧
      List.Forall₂ Answer.Respelled (operateAll {} plainOperations).1
        (operateAll {} paddedOperations).1 ∧
      List.Forall₂
        (fun file file' => file.spelling.SamePlace file'.spelling ∧ file.content = file'.content ∧
          (operateAll {} plainOperations).2.isExecutable file.spelling =
            (operateAll {} paddedOperations).2.isExecutable file'.spelling)
        (operateAll {} plainOperations).2.toList (operateAll {} paddedOperations).2.toList := by
  have h : List.Forall₂ Operation.Respelled plainOperations paddedOperations := by
    refine .cons (.perform (.createDirAll ?_)) ?_
    . decide +kernel
    refine .cons (.perform (.writeFile _ ?_)) ?_
    . decide +kernel
    refine .cons (.perform (.setExecutable ?_)) ?_
    . decide +kernel
    refine .cons (.perform (.writeFile _ ?_)) ?_
    . decide +kernel
    refine .cons (.read ?_) ?_
    . decide +kernel
    refine .cons (.perform (.removeDirAll ?_)) ?_
    . decide +kernel
    refine .cons (.holds ?_) .nil
    decide +kernel
  exact ⟨h, operateAll_respelled {} h⟩

end Memory
end RunnerKit
