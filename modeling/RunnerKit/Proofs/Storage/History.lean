import Mathlib.Data.List.Induction
import RunnerKit.Proofs.Storage.Reachable
import RunnerKit.Proofs.Storage.Transcript
import RunnerKit.Proofs.Values
/-!
This module contains what a memory is in terms of everything that was done with it. Of its history
only those calls count that were done, and of these only the ones since a place was last removed.
-/

namespace RunnerKit

namespace Call

/-! The ways in which a call can concern a place. -/

variable (place : List Component)

def Removes : Call → Prop
  | .removeDirAll path => path.components <+: place
  | _ => False

def Writes : Call → Prop
  | .writeFile path _ => path.components = place
  | _ => False

def Makes : Call → Prop
  | .createDirAll path => place ≠ [] ∧ place <+: path.components
  | _ => False

def Marks : Call → Prop
  | .setExecutable path => path.components = place
  | _ => False

end Call

/--
Whether a call was done after which no call was done that undoes it. What counts as the call may
depend on what happened before it.
-/
def Since (undoes : Call → Prop) (does : List Exchange → Call → Prop) (history : List Exchange) : Prop :=
  ∃ before call after, history = before ++ .done call :: after ∧ does before call ∧
    ∀ later, .done later ∈ after → ¬undoes later

section

variable {undoes : Call → Prop} {does : List Exchange → Call → Prop} {history : List Exchange}

theorem not_since_nil : ¬Since undoes does [] := by
  rintro ⟨before, call, after, h, -⟩
  simp at h

theorem since_concat_iff {x : Exchange} : Since undoes does (history ++ [x]) ↔
    (∃ call, x = .done call ∧ does history call) ∨
      ((∀ call, x = .done call → ¬undoes call) ∧ Since undoes does history) := by
  constructor
  . rintro ⟨before, call, after, heq, hdoes, hafter⟩
    cases List.eq_nil_or_concat after with
    | inl hnil =>
      rw [hnil] at heq
      obtain ⟨rfl, hlast⟩ := List.append_inj' heq rfl
      exact Or.inl ⟨call, List.singleton_inj.mp hlast, hdoes⟩
    | inr hconcat =>
      obtain ⟨front, last, rfl⟩ := hconcat
      rw [List.concat_eq_append, ← List.cons_append, ← List.append_assoc] at heq
      obtain ⟨hfront, hlast⟩ := List.append_inj' heq rfl
      cases List.singleton_inj.mp hlast
      refine Or.inr ⟨?_, before, call, front, hfront, hdoes, ?_⟩
      . intro later hx
        exact hafter later (by simp [hx])
      . intro later hlater
        exact hafter later (by simp [hlater])
  . rintro (⟨call, rfl, hdoes⟩ | ⟨hundoes, before, call, after, rfl, hdoes, hafter⟩)
    . exact ⟨history, call, [], rfl, hdoes, by simp⟩
    . refine ⟨before, call, after ++ [x], by simp, hdoes, ?_⟩
      intro later hlater
      cases List.mem_append.mp hlater with
      | inl hlater => exact hafter later hlater
      | inr hlater => exact hundoes later (List.mem_singleton.mp hlater).symm

theorem since_done_iff {call : Call} : Since undoes does (history ++ [.done call]) ↔
    does history call ∨ (¬undoes call ∧ Since undoes does history) := by
  simp [since_concat_iff]

theorem since_failed_iff {call : Call} {e : Error}
    : Since undoes does (history ++ [.call call (.error e)]) ↔ Since undoes does history := by
  simp [since_concat_iff]

end

/-! What a history says about a place, since something was removed last that the place lies in. -/

section

variable (place : List Component)

def LastWritten (content : String) : List Exchange → Prop :=
  Since (fun call => call.Writes place ∨ call.Removes place) fun _ call =>
    ∃ path, call = .writeFile path content ∧ path.components = place

def StillWritten : List Exchange → Prop :=
  Since (Call.Removes place) fun _ call => call.Writes place

def FirstSpelled (spelling : Path) : List Exchange → Prop :=
  Since (Call.Removes place) fun before call =>
    ¬StillWritten place before ∧
      ∃ content, call = .writeFile spelling content ∧ spelling.components = place

def StillMade : List Exchange → Prop :=
  Since (Call.Removes place) fun _ call => call.Makes place

def StillMarked : List Exchange → Prop :=
  Since (Call.Removes place) fun _ call => call.Marks place

end

theorem FirstSpelled.components_eq {place : List Component} {spelling : Path}
    {history : List Exchange} (h : FirstSpelled place spelling history)
    : spelling.components = place := by
  obtain ⟨_, _, _, _, ⟨_, _, _, hplace⟩, _⟩ := h
  exact hplace

namespace Memory

def exchanges (s : Memory) : List Call → List Exchange
  | [] => []
  | call :: calls => .call call (s.apply call).1 :: (s.apply call).2.exchanges calls

def history (calls : List Call) : List Exchange := exchanges {} calls

theorem exchanges_concat (s : Memory) (calls : List Call) (call : Call)
    : s.exchanges (calls ++ [call]) =
      s.exchanges calls
        ++ [.call call ((calls.foldl (fun s call => (s.apply call).2) s).apply call).1] := by
  induction calls generalizing s with
  | nil => rfl
  | cons first calls ih => simp [exchanges, ih]

theorem history_concat (calls : List Call) (call : Call)
    : history (calls ++ [call]) = history calls ++ [.call call ((ofCalls calls).apply call).1] :=
  exchanges_concat {} calls call

theorem ofCalls_concat (calls : List Call) (call : Call)
    : ofCalls (calls ++ [call]) = ((ofCalls calls).apply call).2 := by
  simp [ofCalls]

structure Remembers (history : List Exchange) (s : Memory) : Prop where
  content_iff : ∀ (place : List Component) (content : String),
    s.files[place]?.map MemoryFile.content = some content ↔ LastWritten place content history
  spelling_iff : ∀ (place : List Component) (spelling : Path),
    s.files[place]?.map MemoryFile.spelling = some spelling ↔ FirstSpelled place spelling history
  file_iff : ∀ place : List Component, s.files[place]?.isSome ↔ StillWritten place history
  directory_iff : ∀ place : List Component, place ∈ s.directories ↔ StillMade place history
  executable_iff : ∀ place : List Component, place ∈ s.executables ↔ StillMarked place history

theorem remembers_empty : Remembers [] {} where
  content_iff place content := by simp [LastWritten, not_since_nil]
  spelling_iff place spelling := by simp [FirstSpelled, not_since_nil]
  file_iff place := by simp [StillWritten, not_since_nil]
  directory_iff place := by simp [StillMade, not_since_nil]
  executable_iff place := by simp [StillMarked, not_since_nil]

variable {history : List Exchange} {s : Memory}

theorem Remembers.failed {call : Call} {e : Error} (h : Remembers history s)
    : Remembers (history ++ [.call call (.error e)]) s where
  content_iff place content := by
    rw [h.content_iff, LastWritten, since_failed_iff]
  spelling_iff place spelling := by
    rw [h.spelling_iff, FirstSpelled, since_failed_iff]
  file_iff place := by
    rw [h.file_iff, StillWritten, since_failed_iff]
  directory_iff place := by
    rw [h.directory_iff, StillMade, since_failed_iff]
  executable_iff place := by
    rw [h.executable_iff, StillMarked, since_failed_iff]

theorem Remembers.after {call : Call} (h : Remembers history s)
    : Remembers (history ++ [.done call]) (s.after call) where
  -- Either the call itself decides what is said about the place, or it leaves both the place and what
  -- was said about it alone.
  content_iff place content := by
    rw [LastWritten, since_done_iff, ← LastWritten, ← h.content_iff]
    cases call with
    | createDirAll path => simp [Memory.after, Call.Writes, Call.Removes]
    | setExecutable path => simp [Memory.after, Call.Writes, Call.Removes]
    | removeDirAll path =>
      by_cases hpath : path.components <+: place <;>
        simp [Memory.after, Call.Writes, Call.Removes, hpath]
    | writeFile path text =>
      by_cases hpath : path.components = place <;>
        simp [Memory.after, Call.Writes, Call.Removes, hpath, rewritten]
  spelling_iff place spelling := by
    rw [FirstSpelled, since_done_iff, ← FirstSpelled, ← h.spelling_iff, ← h.file_iff]
    cases call with
    | createDirAll path => simp [Memory.after, Call.Removes]
    | setExecutable path => simp [Memory.after, Call.Removes]
    | removeDirAll path =>
      by_cases hpath : path.components <+: place <;> simp [Memory.after, Call.Removes, hpath]
    | writeFile path text =>
      by_cases hpath : path.components = place
      . simp only [Memory.after, getElem?_files_put, hpath, ↓reduceIte, Option.map_some, rewritten,
          Call.Removes, Call.writeFile.injEq]
        cases s.files[place]? with
        | none => grind
        | some file => simp
      . simp only [Memory.after, getElem?_files_put, hpath, ↓reduceIte, Call.Removes,
          Call.writeFile.injEq]
        grind
  file_iff place := by
    rw [StillWritten, since_done_iff, ← StillWritten, ← h.file_iff]
    cases call with
    | createDirAll path => simp [Memory.after, Call.Writes, Call.Removes]
    | setExecutable path => simp [Memory.after, Call.Writes, Call.Removes]
    | removeDirAll path =>
      by_cases hpath : path.components <+: place <;>
        simp [Memory.after, Call.Writes, Call.Removes, hpath]
    | writeFile path text =>
      by_cases hpath : path.components = place <;>
        simp [Memory.after, Call.Writes, Call.Removes, hpath]
  directory_iff place := by
    rw [StillMade, since_done_iff, ← StillMade, ← h.directory_iff]
    cases call <;> simp [Memory.after, Call.Makes, Call.Removes, or_comm, and_comm]
  executable_iff place := by
    rw [StillMarked, since_done_iff, ← StillMarked, ← h.executable_iff]
    cases call <;> simp [Memory.after, Call.Marks, Call.Removes, or_comm, and_comm]

theorem remembers_history (calls : List Call)
    : Remembers (Memory.history calls) (ofCalls calls) := by
  -- A history grows at its end.
  induction calls using List.reverseRecOn with
  | nil => exact remembers_empty
  | append_singleton calls call ih =>
    rw [history_concat, ofCalls_concat]
    cases hadmits : (ofCalls calls).admits call with
    | true =>
      rw [apply_of_admits _ hadmits]
      exact ih.after
    | false =>
      rw [apply_of_not_admits _ hadmits]
      exact ih.failed

/-! What can be asked of a memory, by paths. -/

theorem mem_toList_iff {file : MemoryFile}
    : file ∈ s.toList ↔ ∃ place : List Component, s.files[place]? = some file := by
  unfold toList
  apply mem_values_iff

theorem Remembers.firstSpelled (h : Remembers history s) {place : List Component} {file : MemoryFile}
    (hfile : s.files[place]? = some file) : FirstSpelled place file.spelling history := by
  rw [← h.spelling_iff, hfile]
  rfl

theorem Remembers.components_spelling (h : Remembers history s) {place : List Component}
    {file : MemoryFile} (hfile : s.files[place]? = some file) : file.spelling.components = place :=
  (h.firstSpelled hfile).components_eq

theorem Remembers.pairwise_toList (h : Remembers history s)
    : s.toList.Pairwise fun file other =>
        compare file.spelling.components other.spelling.components = .lt := by
  unfold toList
  apply pairwise_values
  intro place file hfile
  exact h.components_spelling hfile

theorem admits_eq_false_iff {call : Call} : s.admits call = false ↔
    ∃ path content parent, call = .writeFile path content ∧ path.parent? = some parent ∧
      parent.isEmpty = false ∧ s.isDirectory parent = false := by
  cases call with
  | writeFile path content =>
    simp only [admits, hasParent]
    cases hparent : path.parent? <;> simp [hparent]
  | _ => simp [admits]

theorem apply_ne_ok_iff {call : Call} : (s.apply call).1 ≠ .ok () ↔ s.admits call = false := by
  cases hadmits : s.admits call with
  | true => simp [apply_of_admits s hadmits]
  | false => simp [apply_of_not_admits s hadmits]

/--
What a memory answers after a history. It does a call unless it would write a file whose directory is
not there, and a call that it does not do changes nothing.
-/
structure AnswersBy (history : List Exchange) (s : Memory) : Prop where
  read?_eq_some_iff : ∀ (path : Path) (content : String),
    s.read? path = some content ↔ LastWritten path.components content history
  isDirectory_iff : ∀ path : Path, s.isDirectory path = true ↔ StillMade path.components history
  isExecutable_iff : ∀ path : Path, s.isExecutable path = true ↔ StillMarked path.components history
  holds_iff : ∀ path : Path,
    s.holds path = true ↔ (s.read? path).isSome ∨ s.isDirectory path = true
  ascending : s.toList.Pairwise fun file other =>
    compare file.spelling.components other.spelling.components = .lt
  listed_iff : ∀ path : Path,
    (∃ file ∈ s.toList, file.spelling.SamePlace path) ↔ (s.read? path).isSome
  spelled : ∀ file ∈ s.toList, s.read? file.spelling = some file.content ∧
    FirstSpelled file.spelling.components file.spelling history
  refused_iff : ∀ call : Call, (s.apply call).1 ≠ .ok () ↔
    ∃ path content parent, call = .writeFile path content ∧ path.parent? = some parent ∧
      parent.isEmpty = false ∧ s.isDirectory parent = false
  unchanged : ∀ call : Call, (s.apply call).1 ≠ .ok () → (s.apply call).2 = s

theorem answersBy_history (calls : List Call)
    : AnswersBy (Memory.history calls) (ofCalls calls) := by
  have h := remembers_history calls
  generalize ofCalls calls = s at h ⊢
  constructor
  . intro path content
    exact h.content_iff path.components content
  . intro path
    rw [← h.directory_iff, isDirectory]
    simp
  . intro path
    rw [← h.executable_iff, isExecutable]
    simp
  . intro path
    rw [holds_iff, read?, Option.isSome_map, isDirectory]
    simp
  . exact h.pairwise_toList
  . intro path
    rw [read?, Option.isSome_map, Option.isSome_iff_exists]
    constructor
    . rintro ⟨file, hfile, hpath⟩
      obtain ⟨place, hplace⟩ := mem_toList_iff.mp hfile
      rw [← h.components_spelling hplace, hpath] at hplace
      exact ⟨file, hplace⟩
    . rintro ⟨file, hfile⟩
      exact ⟨file, mem_toList_iff.mpr ⟨_, hfile⟩, h.components_spelling hfile⟩
  . intro file hfile
    obtain ⟨place, hplace⟩ := mem_toList_iff.mp hfile
    have hspelling := h.components_spelling hplace
    rw [read?, hspelling, hplace]
    exact ⟨rfl, h.firstSpelled hplace⟩
  . intro call
    rw [apply_ne_ok_iff, admits_eq_false_iff]
  . intro call hrefused
    rw [apply_of_not_admits s (apply_ne_ok_iff.mp hrefused)]

end Memory
end RunnerKit
