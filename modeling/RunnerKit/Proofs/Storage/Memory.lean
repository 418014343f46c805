import RunnerKit.Proofs.Path.Order
import RunnerKit.Proofs.Path.Parent
import RunnerKit.Storage.Memory
/-!
This module contains what each call does to a memory, one place at a time.
-/

namespace RunnerKit
namespace Memory

variable (s : Memory)

theorem mem_nonemptyPrefixes_iff {α : Type} {front list : List α}
    : front ∈ nonemptyPrefixes list ↔ front ≠ [] ∧ front <+: list := by
  induction list generalizing front with
  | nil => simp [nonemptyPrefixes]
  | cons a as ih =>
    cases front with
    | nil => simp [nonemptyPrefixes]
    | cons b bs =>
      have : b :: bs ∈ nonemptyPrefixes (a :: as) ↔ a = b ∧ (bs = [] ∨ bs ∈ nonemptyPrefixes as) := by
        simp only [nonemptyPrefixes, List.mem_cons, List.cons.injEq, List.mem_map]
        constructor
        . rintro (⟨hb, hbs⟩ | ⟨front, hfront, hb, hbs⟩)
          . exact ⟨hb.symm, Or.inl hbs⟩
          . exact ⟨hb, Or.inr (hbs ▸ hfront)⟩
        . rintro ⟨hb, hbs | hbs⟩
          . exact Or.inl ⟨hb.symm, hbs⟩
          . exact Or.inr ⟨bs, hbs, hb, rfl⟩
      rw [this, ih, List.cons_prefix_cons]
      by_cases hbs : bs = []
      . simp [hbs, eq_comm]
      . simp [hbs, eq_comm]

@[simp]
theorem files_createDirAll (path : Path) : (s.createDirAll path).files = s.files := rfl

@[simp]
theorem executables_createDirAll (path : Path)
    : (s.createDirAll path).executables = s.executables := rfl

@[simp]
theorem mem_directories_createDirAll {path : Path} {place : List Component}
    : place ∈ (s.createDirAll path).directories
        ↔
      place ∈ s.directories ∨ (place ≠ [] ∧ place <+: path.components) := by
  simp [createDirAll, Std.TreeSet.mem_insertMany_list, mem_nonemptyPrefixes_iff]

@[simp]
theorem files_setExecutable (path : Path) : (s.setExecutable path).files = s.files := rfl

@[simp]
theorem directories_setExecutable (path : Path)
    : (s.setExecutable path).directories = s.directories := rfl

@[simp]
theorem mem_executables_setExecutable {path : Path} {place : List Component}
    : place ∈ (s.setExecutable path).executables
        ↔
      place ∈ s.executables ∨ path.components = place := by
  simp [setExecutable, or_comm]

@[simp]
theorem getElem?_files_removeDirAll (path : Path) (place : List Component)
    : (s.removeDirAll path).files[place]? =
      if path.components <+: place then none else s.files[place]? := by
  simp only [removeDirAll, Std.TreeMap.getElem?_filter', ← List.isPrefixOf_iff_prefix]
  cases path.components.isPrefixOf place with
  | true => simp
  | false => cases s.files[place]? <;> simp

@[simp]
theorem mem_directories_removeDirAll {path : Path} {place : List Component}
    : place ∈ (s.removeDirAll path).directories
        ↔
      place ∈ s.directories ∧ ¬path.components <+: place := by
  simp [removeDirAll, Std.TreeSet.mem_filter, ← List.isPrefixOf_iff_prefix]

@[simp]
theorem mem_executables_removeDirAll {path : Path} {place : List Component}
    : place ∈ (s.removeDirAll path).executables
        ↔
      place ∈ s.executables ∧ ¬path.components <+: place := by
  simp [removeDirAll, Std.TreeSet.mem_filter, ← List.isPrefixOf_iff_prefix]

def rewritten (old? : Option MemoryFile) (path : Path) (content : String) : MemoryFile where
  spelling := (old?.map MemoryFile.spelling).getD path
  content := content

def put (path : Path) (content : String) : Memory :=
  { s with
    files := s.files.insert path.components (rewritten s.files[path.components]? path content) }

@[simp]
theorem getElem?_files_put (path : Path) (content : String) (place : List Component)
    : (s.put path content).files[place]? =
      if path.components = place then some (rewritten s.files[place]? path content)
      else s.files[place]? := by
  simp only [put, Std.TreeMap.getElem?_insert, Std.LawfulEqCmp.compare_eq_iff_eq]
  split
  . next h => rw [h]
  . rfl

@[simp]
theorem directories_put (path : Path) (content : String)
    : (s.put path content).directories = s.directories := rfl

@[simp]
theorem executables_put (path : Path) (content : String)
    : (s.put path content).executables = s.executables := rfl

theorem hasParent_iff {path : Path} : s.hasParent path = true ↔
    path.components.dropLast = [] ∨ path.components.dropLast ∈ s.directories := by
  unfold hasParent
  split
  . next h => simp [Path.dropLast_components_of_parent?_eq_none h]
  . next parent h =>
    rw [← Path.components_of_parent?_eq_some h, ← Path.isEmpty_eq_true_iff]
    simp [isDirectory]

theorem isDirectory_iff {path : Path}
    : s.isDirectory path = true ↔ path.components ∈ s.directories := by
  rw [isDirectory, Std.TreeSet.contains_iff_mem]

theorem isExecutable_iff {path : Path}
    : s.isExecutable path = true ↔ path.components ∈ s.executables := by
  rw [isExecutable, Std.TreeSet.contains_iff_mem]

theorem isSome_read?_iff {path : Path}
    : (s.read? path).isSome ↔ s.files[path.components]?.isSome := by
  rw [read?, Option.isSome_map]

theorem holds_iff {path : Path} : s.holds path = true ↔
    s.files[path.components]?.isSome ∨ path.components ∈ s.directories := by
  simp [holds, isDirectory]

def admits : Call → Bool
  | .writeFile path _ => s.hasParent path
  | _ => true

def after : Call → Memory
  | .createDirAll path => s.createDirAll path
  | .writeFile path content => s.put path content
  | .setExecutable path => s.setExecutable path
  | .removeDirAll path => s.removeDirAll path

theorem apply_of_admits {call : Call} (h : s.admits call = true)
    : s.apply call = (.ok (), s.after call) := by
  cases call with
  | writeFile path content =>
    rw [admits] at h
    simp only [apply, writeFile, h, ↓reduceIte]
    cases hentry : s.files[path.components]? <;> simp [after, put, rewritten, hentry]
  | _ => rfl

theorem apply_of_not_admits {call : Call} (h : s.admits call = false) : s.apply call =
    (.error (.failure (.filesystem call.path "Parent directory does not exist")), s) := by
  cases call with
  | writeFile path content =>
    rw [admits] at h
    simp [apply, writeFile, h, Call.path]
  | _ => simp [admits] at h

end Memory
end RunnerKit
