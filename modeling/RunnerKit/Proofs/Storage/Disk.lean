import Mathlib.Data.List.Basic
import RunnerKit.Storage.Disk
/-!
This module contains what a disk keeps. Directories stay while others are made, and what has been
written to a file can be read under the path that it was written to.
-/

namespace RunnerKit
namespace Disk

variable {d d' : Disk} {path : Path} {place location : Location}

theorem node?_put (hplace : place ≠ []) (node : Node) (location : Location)
    : (d.put place node).node? location =
      if location = place then some node else d.node? location := by
  simp only [node?, put, List.isEmpty_iff, Std.TreeMap.getElem?_insert,
    Std.LawfulEqCmp.compare_eq_iff_eq]
  by_cases hlocation : location = place
  . subst hlocation
    simp [hplace]
  . simp [hlocation, Ne.symm hlocation]

structure Keeps (d d' : Disk) : Prop where
  current_eq : d'.current = d.current
  directory : ∀ location, d.node? location = some .directory → d'.node? location = some .directory

theorem Keeps.refl (d : Disk) : Keeps d d where
  current_eq := rfl
  directory _ h := h

theorem Keeps.trans {d'' : Disk} (h : Keeps d d') (h' : Keeps d' d'') : Keeps d d'' where
  current_eq := h'.current_eq.trans h.current_eq
  directory location hlocation := h'.directory location (h.directory location hlocation)

theorem keeps_put (hplace : place ≠ []) (hfree : d.node? place ≠ some .directory) (node : Node)
    : Keeps d (d.put place node) where
  current_eq := rfl
  directory location hlocation := by
    have hne : location ≠ place := by
      rintro rfl
      exact hfree hlocation
    rw [node?_put hplace, if_neg hne, hlocation]

theorem keeps_makeDir (h : d.makeDir path = .ok d') : Keeps d d' := by
  unfold makeDir at h
  cases htarget : d.target path with
  | error fault =>
    rw [htarget] at h
    cases h
  | ok target =>
    rw [htarget] at h
    cases target with
    | place directory dots => cases h
    | entry directory name slash =>
      simp only [bind, Except.bind] at h
      split at h
      . cases h
      . next hfree =>
        cases h
        apply keeps_put (by simp)
        rw [hfree]
        simp

theorem keeps_missing {parents paths : List Path} (h : d.missing parents = .ok (paths, d'))
    : Keeps d d' := by
  induction parents generalizing paths with
  | nil =>
    cases h
    exact .refl d
  | cons path parents ih =>
    rw [missing] at h
    split at h
    . cases h
      exact .refl d
    . split at h
      . next hmake =>
        cases h
        exact keeps_makeDir hmake
      . cases hparents : d.missing parents with
        | error fault =>
          rw [hparents] at h
          cases h
        | ok found =>
          rw [hparents] at h
          cases h
          exact ih hparents
      . split at h
        . cases h
          exact .refl d
        . cases h
      . cases h

theorem keeps_makeAll (d : Disk) (paths : List Path) : Keeps d (d.makeAll paths).2 := by
  induction paths with
  | nil => exact .refl d
  | cons path paths ih =>
    rw [makeAll]
    split
    . next hparents =>
      rw [hparents] at ih
      exact ih
    . next hparents =>
      rw [hparents] at ih
      split
      . next hmake => exact ih.trans (keeps_makeDir hmake)
      . split
        . exact ih
        . exact ih

theorem keeps_createDirAll (d : Disk) (path : Path) : Keeps d (d.createDirAll path).2 := by
  rw [createDirAll]
  split
  . exact .refl d
  . next hmissing => exact (keeps_missing hmissing).trans (keeps_makeAll _ _)

theorem leadsTo_eq_ok_iff (hcurrent : d.node? d.current = some .directory) (location : Location)
    (name : Name) : d.leadsTo location name = .ok () ↔ d.node? location = some .directory := by
  unfold leadsTo
  split
  . next h => simp [h]
  . next h => simp [h]
  . next h =>
    have hne : location ≠ d.current := by
      rintro rfl
      rw [hcurrent] at h
      cases h
    simp [hne, h]

theorem Keeps.walk_eq (h : Keeps d d') (hcurrent : d.node? d.current = some .directory)
    {slash : Bool} {names : List Name} {target : Target}
    (hwalk : d.walk slash location names = .ok target)
    : d'.walk slash location names = .ok target := by
  have hcurrent' : d'.node? d'.current = some .directory := by
    rw [h.current_eq]
    exact h.directory _ hcurrent
  induction names generalizing location with
  | nil => exact hwalk
  | cons name names ih =>
    rw [walk] at hwalk ⊢
    split at hwalk
    . cases hwalk
    . next hleads =>
      rw [leadsTo_eq_ok_iff hcurrent] at hleads
      rw [(leadsTo_eq_ok_iff hcurrent' location name).mpr (h.directory _ hleads)]
      by_cases hlast : names.isEmpty
      . simp only [if_pos hlast] at hwalk ⊢
        exact hwalk
      . simp only [if_neg hlast] at hwalk ⊢
        split at hwalk
        . next hstay =>
          rw [if_pos hstay]
          exact ih hwalk
        . next hstay =>
          rw [if_neg hstay]
          split at hwalk
          . next hup =>
            rw [if_pos hup]
            exact ih hwalk
          . next hup =>
            rw [if_neg hup]
            split at hwalk
            . cases hwalk
            . next hlength =>
              rw [if_neg hlength]
              exact ih hwalk

theorem Keeps.target_eq (h : Keeps d d') (hcurrent : d.node? d.current = some .directory)
    {found : Target} (htarget : d.target path = .ok found) : d'.target path = .ok found := by
  unfold target at htarget ⊢
  split at htarget
  . cases htarget
  . next hnul =>
    rw [if_neg hnul]
    split at htarget
    . cases htarget
    . next hempty =>
      rw [if_neg hempty]
      split at htarget
      . cases htarget
      . next hlength =>
        rw [if_neg hlength, h.current_eq]
        exact h.walk_eq hcurrent htarget

theorem exists_put_of_writeFile {content : String} (h : d.writeFile path content = .ok d')
    : ∃ directory name executable, d.target path = .ok (.entry directory name false) ∧
        d.node? (directory ++ [name]) ≠ some .directory ∧
        d' = d.put (directory ++ [name]) (.file content executable) := by
  unfold writeFile at h
  cases htarget : d.target path with
  | error fault =>
    rw [htarget] at h
    cases h
  | ok found =>
    rw [htarget] at h
    cases found with
    | place directory dots => cases h
    | entry directory name slash =>
      simp only [bind, Except.bind] at h
      split at h
      . cases h
      . next hslash =>
        rw [Bool.not_eq_true] at hslash
        split at h
        . cases h
        . next hnode =>
          cases h
          exact ⟨directory, name, _, by rw [hslash], by simp [hnode], rfl⟩
        . next hnode =>
          cases h
          exact ⟨directory, name, _, by rw [hslash], by simp [hnode], rfl⟩

theorem read?_of_writeFile (hcurrent : d.node? d.current = some .directory) {content : String}
    (h : d.writeFile path content = .ok d') : d'.read? path = some content := by
  -- The same path leads to the same place again, since no directory on its way is gone.
  obtain ⟨directory, name, executable, htarget, hfree, rfl⟩ := exists_put_of_writeFile h
  have hplace : directory ++ [name] ≠ [] := by simp
  have hkeeps := keeps_put hplace hfree (.file content executable)
  rw [read?, find, hkeeps.target_eq hcurrent htarget]
  simp only [bind, Except.bind, node?_put hplace]
  rfl

inductive Takes (d : Disk) (path : Path) (content : String) : Disk → Prop where
  | bare {d' : Disk} (hparent : ∀ parent ∈ path.parent?, parent.isEmpty = true)
      (hwrite : d.writeFile path content = .ok d')
    : Takes d path content d'
  | below {parent : Path} {made d' : Disk} (hparent : path.parent? = some parent)
      (hnamed : parent.isEmpty = false) (hmake : d.createDirAll parent = (.ok (), made))
      (hwrite : made.writeFile path content = .ok d')
    : Takes d path content d'

theorem Takes.read?_eq {content : String} (h : d.Takes path content d')
    (hcurrent : d.node? d.current = some .directory) : d'.read? path = some content := by
  cases h with
  | bare hparent hwrite => exact read?_of_writeFile hcurrent hwrite
  | @below parent made _ hparent hnamed hmake hwrite =>
    have hkeeps : Keeps d made := by
      have hkeeps := keeps_createDirAll d parent
      rw [hmake] at hkeeps
      exact hkeeps
    apply read?_of_writeFile _ hwrite
    rw [hkeeps.current_eq]
    exact hkeeps.directory _ hcurrent

end Disk
end RunnerKit
