import RunnerKit.Proofs.Storage.History
/-!
This module contains when a memory is a tree of files and directories. It does not see to that by
itself: it is one for as long as every call that it does leaves it one.
-/

namespace RunnerKit
namespace Memory

structure IsTree (s : Memory) : Prop where
  isDirectory_eq_false : ∀ file : Path, (s.read? file).isSome → s.isDirectory file = false
  samePlace : ∀ file below : Path, (s.read? file).isSome → (s.read? below).isSome →
    below.startsWith file = true → file.SamePlace below
  isSome_read? : ∀ path : Path, s.isExecutable path = true → (s.read? path).isSome

def Fits (s : Memory) : Call → Prop
  | .createDirAll path => ∀ file : Path, (s.read? file).isSome → file.isEmpty = false →
    path.startsWith file = false
  | .writeFile path _ => s.isDirectory path = false ∧ ∀ file : Path, (s.read? file).isSome →
    file.startsWith path = true ∨ path.startsWith file = true → file.SamePlace path
  | .setExecutable path => (s.read? path).isSome
  | .removeDirAll _ => True

theorem startsWith_iff {path front : Path}
    : path.startsWith front = true ↔ front.components <+: path.components :=
  List.isPrefixOf_iff_prefix

/-! What is asked of a tree, after each call. -/

section

variable (s : Memory) (path : Path)

theorem isDirectory_createDirAll_iff {place : Path}
    : (s.createDirAll path).isDirectory place = true ↔
      s.isDirectory place = true ∨ place.isEmpty = false ∧ path.startsWith place = true := by
  rw [isDirectory_iff, isDirectory_iff, mem_directories_createDirAll, startsWith_iff,
    ← Bool.not_eq_true, Path.isEmpty_eq_true_iff]

theorem isSome_read?_put_iff (content : String) {file : Path}
    : ((s.put path content).read? file).isSome ↔ path.SamePlace file ∨ (s.read? file).isSome := by
  rw [isSome_read?_iff, isSome_read?_iff, getElem?_files_put, Path.SamePlace]
  split
  . next h => simp [h]
  . next h => simp [h]

theorem isExecutable_setExecutable_iff {file : Path}
    : (s.setExecutable path).isExecutable file = true ↔
      s.isExecutable file = true ∨ path.SamePlace file := by
  rw [isExecutable_iff, isExecutable_iff, mem_executables_setExecutable, Path.SamePlace]

theorem isSome_read?_removeDirAll_iff {file : Path}
    : ((s.removeDirAll path).read? file).isSome ↔
      (s.read? file).isSome ∧ ¬file.startsWith path = true := by
  rw [isSome_read?_iff, isSome_read?_iff, getElem?_files_removeDirAll, startsWith_iff]
  split
  . next h => simp [h]
  . next h => simp [h]

end

namespace IsTree

variable {s : Memory} (h : s.IsTree) {path : Path}
include h

theorem createDirAll_iff : (s.createDirAll path).IsTree ↔ s.Fits (.createDirAll path) := by
  constructor
  . intro h' file hfile hne
    rw [← Bool.not_eq_true]
    intro hfront
    have hdirectory := (s.isDirectory_createDirAll_iff path).mpr (Or.inr ⟨hne, hfront⟩)
    simp [h'.isDirectory_eq_false file hfile] at hdirectory
  . intro hfits
    refine ⟨?_, h.samePlace, h.isSome_read?⟩
    intro file hfile
    rw [← Bool.not_eq_true, isDirectory_createDirAll_iff]
    rintro (hdirectory | ⟨hne, hfront⟩)
    . simp [h.isDirectory_eq_false file hfile] at hdirectory
    . simp [hfits file hfile hne] at hfront

theorem writeFile_iff {content : String}
    : (s.put path content).IsTree ↔ s.Fits (.writeFile path content) := by
  have hput {file : Path} : ((s.put path content).read? file).isSome ↔
      path.SamePlace file ∨ (s.read? file).isSome :=
    s.isSome_read?_put_iff path content
  constructor
  . intro h'
    have hpath : ((s.put path content).read? path).isSome := hput.mpr (Or.inl rfl)
    refine ⟨h'.isDirectory_eq_false path hpath, ?_⟩
    rintro file hfile (hfront | hfront)
    . exact (h'.samePlace path file hpath (hput.mpr (Or.inr hfile)) hfront).symm
    . exact h'.samePlace file path (hput.mpr (Or.inr hfile)) hpath hfront
  . rintro ⟨hdirectory, hothers⟩
    constructor
    . intro file hfile
      cases hput.mp hfile with
      | inl hplace =>
        rw [isDirectory, ← hplace]
        exact hdirectory
      | inr hold => exact h.isDirectory_eq_false file hold
    . intro file below hfile hbelow hfront
      rw [startsWith_iff] at hfront
      cases hput.mp hfile with
      | inl hplace =>
        cases hput.mp hbelow with
        | inl hplace' => exact hplace.symm.trans hplace'
        | inr hold =>
          rw [← hplace, ← startsWith_iff] at hfront
          exact hplace.symm.trans (hothers below hold (Or.inl hfront)).symm
      | inr hold =>
        cases hput.mp hbelow with
        | inl hplace =>
          rw [← hplace, ← startsWith_iff] at hfront
          exact (hothers file hold (Or.inr hfront)).trans hplace
        | inr hold' => exact h.samePlace file below hold hold' (startsWith_iff.mpr hfront)
    . intro file hfile
      exact hput.mpr (Or.inr (h.isSome_read? file hfile))

theorem setExecutable_iff : (s.setExecutable path).IsTree ↔ s.Fits (.setExecutable path) := by
  constructor
  . intro h'
    exact h'.isSome_read? path ((s.isExecutable_setExecutable_iff path).mpr (Or.inr rfl))
  . intro hfits
    refine ⟨h.isDirectory_eq_false, h.samePlace, ?_⟩
    intro file hfile
    cases (s.isExecutable_setExecutable_iff path).mp hfile with
    | inl hold => exact h.isSome_read? file hold
    | inr hplace =>
      rw [isSome_read?_iff, ← hplace, ← isSome_read?_iff]
      exact hfits

theorem removeDirAll : (s.removeDirAll path).IsTree where
  isDirectory_eq_false file hfile := by
    have hold := h.isDirectory_eq_false file ((s.isSome_read?_removeDirAll_iff path).mp hfile).1
    rw [← Bool.not_eq_true, isDirectory_iff] at hold ⊢
    rw [mem_directories_removeDirAll]
    exact fun hdirectory => hold hdirectory.1
  samePlace file below hfile hbelow hfront := by
    rw [isSome_read?_removeDirAll_iff] at hfile hbelow
    exact h.samePlace file below hfile.1 hbelow.1 hfront
  isSome_read? file hfile := by
    rw [isExecutable_iff, mem_executables_removeDirAll, ← isExecutable_iff] at hfile
    rw [isSome_read?_removeDirAll_iff, startsWith_iff]
    exact ⟨h.isSome_read? file hfile.1, hfile.2⟩

theorem after_iff (call : Call) : (s.after call).IsTree ↔ s.Fits call := by
  cases call with
  | createDirAll path => exact h.createDirAll_iff
  | writeFile path content => exact h.writeFile_iff
  | setExecutable path => exact h.setExecutable_iff
  | removeDirAll path => exact iff_of_true h.removeDirAll trivial

theorem apply_iff (call : Call)
    : (s.apply call).2.IsTree ↔ ((s.apply call).1 = .ok () → s.Fits call) := by
  cases hadmits : s.admits call with
  | true =>
    rw [apply_of_admits s hadmits, h.after_iff]
    simp
  | false =>
    rw [apply_of_not_admits s hadmits]
    simpa using h

end IsTree

theorem isTree_empty : IsTree {} where
  isDirectory_eq_false file hfile := by simp [read?] at hfile
  samePlace file below hfile := by simp [read?] at hfile
  isSome_read? path hpath := by simp [isExecutable] at hpath

theorem isTree_ofCalls_iff (calls : List Call)
    : (∀ before, before <+: calls → (ofCalls before).IsTree) ↔
      ∀ before call, before ++ [call] <+: calls → ((ofCalls before).apply call).1 = .ok () →
        (ofCalls before).Fits call := by
  constructor
  . intro h before call hcalls
    have hbefore := h before ((List.prefix_append before [call]).trans hcalls)
    have hafter := h (before ++ [call]) hcalls
    rw [ofCalls_concat] at hafter
    exact (hbefore.apply_iff call).mp hafter
  . intro h before hcalls
    induction before using List.reverseRecOn with
    | nil => exact isTree_empty
    | append_singleton before call ih =>
      have hbefore := ih ((List.prefix_append before [call]).trans hcalls)
      rw [ofCalls_concat]
      exact (hbefore.apply_iff call).mpr (h before call hcalls)

def tangledCalls : List Call := [
  .createDirAll (.ofString "a"),
  .writeFile (.ofString "a") "x",
  .createDirAll (.ofString "a/b"),
  .writeFile (.ofString "a/b/c") "y",
  .setExecutable (.ofString "d")]

theorem not_isTree_tangled
    : (ofCalls tangledCalls).read? (.ofString "a") = some "x" ∧
    (ofCalls tangledCalls).isDirectory (.ofString "a") = true ∧
    (ofCalls tangledCalls).read? (.ofString "a/b/c") = some "y" ∧
    (ofCalls tangledCalls).read? (.ofString "d") = none ∧
    (ofCalls tangledCalls).isExecutable (.ofString "d") = true ∧
    ¬(ofCalls tangledCalls).IsTree := by
  have hfile : (ofCalls tangledCalls).read? (.ofString "a") = some "x" := by decide +kernel
  have hdirectory : (ofCalls tangledCalls).isDirectory (.ofString "a") = true := by decide +kernel
  refine ⟨hfile, hdirectory, by decide +kernel, by decide +kernel, by decide +kernel, ?_⟩
  intro h
  have hfalse := h.isDirectory_eq_false (.ofString "a") (by rw [hfile]; rfl)
  rw [hdirectory] at hfalse
  cases hfalse

end Memory
end RunnerKit
