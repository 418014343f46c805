import Mathlib
import RunnerKit.Proofs.Settings.Layers
import RunnerKit.Settings.Toml.Writer
/-!
This module contains which settings are loaded from given files and a given environment. If no file
is named, both that of the user and that of this directory count, the latter over the former.
-/

namespace RunnerKit.Settings

variable {backend : Backend} {read? : Path → Option String} {env : Environment} {home : Home}

theorem load_unnamed_eq_ofLayers {user here : Entries}
    (huser : fileLayer (m := Id) backend read? false (userPath env home) = .ok user)
    (hhere : fileLayer (m := Id) backend read? false localPath = .ok here)
    : load (m := Id) read? env home none backend =
      ofLayers backend [user, here, ofEnvironment env] := by
  simp only [load, fileLayers, huser, hhere]
  rfl

theorem exists_layers_of_load_unnamed {s : Settings}
    (h : load (m := Id) read? env home none backend = .ok s)
    : ∃ user here, fileLayer (m := Id) backend read? false (userPath env home) = .ok user ∧
        fileLayer (m := Id) backend read? false localPath = .ok here := by
  cases huser : fileLayer (m := Id) backend read? false (userPath env home) with
  | error fault =>
    simp only [load, fileLayers, huser] at h
    cases h
  | ok user =>
    cases hhere : fileLayer (m := Id) backend read? false localPath with
    | error fault =>
      simp only [load, fileLayers, huser, hhere] at h
      cases h
    | ok here => exact ⟨user, here, rfl, rfl⟩

theorem findSome?_setIn? (field : Field) (first second third : Entries)
    : [first, second, third].reverse.findSome? field.setIn? =
      (field.setIn? third).or ((field.setIn? second).or (field.setIn? first)) := by
  cases hthird : field.setIn? third with
  | some value => simp [hthird]
  | none =>
    cases hsecond : field.setIn? second with
    | some value => simp [hthird, hsecond]
    | none => cases hfirst : field.setIn? first <;> simp [hthird, hsecond, hfirst]

theorem load_unnamed_eq_ok_iff
    (hfiles : ∀ path ∈ [userPath env home, localPath], ∀ layer,
      fileLayer (m := Id) backend read? false path = .ok layer → Sectioned layer)
    (henv : Sectioned (ofEnvironment env)) (s : Settings)
    : load (m := Id) read? env home none backend = .ok s ↔ ∃ user here,
        fileLayer (m := Id) backend read? false (userPath env home) = .ok user ∧
        fileLayer (m := Id) backend read? false localPath = .ok here ∧
        ∀ field : Field,
          field.read (((field.setIn? (ofEnvironment env)).or
            ((field.setIn? here).or (field.setIn? user))).getD (({} : Settings).value field)) =
            some (s.value field) := by
  have hlayers {user here : Entries}
      (huser : fileLayer (m := Id) backend read? false (userPath env home) = .ok user)
      (hhere : fileLayer (m := Id) backend read? false localPath = .ok here)
      : ∀ layer ∈ [user, here, ofEnvironment env], Sectioned layer := by
    simp only [List.forall_mem_cons]
    exact ⟨hfiles _ (by simp) user huser, hfiles _ (by simp) here hhere, henv, by simp⟩
  constructor
  . intro h
    obtain ⟨user, here, huser, hhere⟩ := exists_layers_of_load_unnamed h
    rw [load_unnamed_eq_ofLayers huser hhere, ofLayers_eq_ok_iff (hlayers huser hhere)] at h
    simp only [findSome?_setIn?] at h
    exact ⟨user, here, huser, hhere, h⟩
  . rintro ⟨user, here, huser, hhere, h⟩
    rw [load_unnamed_eq_ofLayers huser hhere, ofLayers_eq_ok_iff (hlayers huser hhere)]
    simp only [findSome?_setIn?]
    exact h

def filesAt (files : List (Path × String)) (path : Path) : Option String := files.lookup path

def janesHome : Path := .ofString "/home/jane"

def janesFile : Path × String := (userPath [] janesHome, "[service]\napp_name = \"Platform\"\n")

def localFile : Path × String := (localPath, "[service]\napp_name = \"Local\"\n")

theorem load_unnamed_of_both_files
    : fileLayer (m := Id) {} (filesAt [janesFile, localFile]) false (userPath [] janesHome) =
        .ok [("service", .table [("app_name", .text "Platform")])] ∧
      fileLayer (m := Id) {} (filesAt [janesFile, localFile]) false localPath =
        .ok [("service", .table [("app_name", .text "Local")])] ∧
      load (m := Id) (filesAt [janesFile, localFile]) [] janesHome none =
        .ok { appName := "Local" } := by
  have huser : fileLayer (m := Id) {} (filesAt [janesFile, localFile]) false (userPath [] janesHome) =
      .ok [("service", .table [("app_name", .text "Platform")])] := by
    cbv
  have hhere : fileLayer (m := Id) {} (filesAt [janesFile, localFile]) false localPath =
      .ok [("service", .table [("app_name", .text "Local")])] := by
    cbv
  refine ⟨huser, hhere, (load_unnamed_eq_ok_iff ?_ ?_ _).mpr ⟨_, _, huser, hhere, ?_⟩⟩
  . simp only [List.forall_mem_cons, huser, hhere]
    refine ⟨?_, ?_, by simp⟩
    . intro layer hlayer
      cases hlayer
      decide +kernel
    . intro layer hlayer
      cases hlayer
      decide +kernel
  . decide +kernel
  . intro field
    cases field <;> rfl

theorem not_load_unnamed_eq_of_user_file
    : ¬∀ (read? other : Path → Option String) (env : Environment) (home : Path),
        (read? (userPath env home)).isSome → (∀ path, path ≠ localPath → read? path = other path) →
          load (m := Id) read? env home none = load (m := Id) other env home none := by
  intro h
  have hplatform : load (m := Id) (filesAt [janesFile]) [] janesHome none =
      .ok { appName := "Platform" } := by
    cbv
  have hlocal : load (m := Id) (filesAt [janesFile, localFile]) [] janesHome none =
      .ok { appName := "Local" } := by
    cbv
  have heq := h (filesAt [janesFile]) (filesAt [janesFile, localFile]) [] janesHome ?_ ?_
  . rw [hplatform, hlocal] at heq
    exact absurd (Except.ok.inj heq) (by decide)
  . decide +kernel
  . intro path hpath
    simp only [filesAt, localFile, janesFile, lookup_cons_ite, if_neg hpath]

/-! Reading does not change what is read from. -/

section

variable {σ : Type} {state : σ}

theorem findSomeM?_apply {α β : Type} {ask : α → StateM σ (Option β)} {answer : α → Option β}
    (h : ∀ a, ask a state = (answer a, state)) (as : List α)
    : as.findSomeM? ask state = (as.findSomeM? (m := Id) answer, state) := by
  induction as with
  | nil => rfl
  | cons a as ih =>
    simp only [List.findSomeM?, bind, StateT.bind, h]
    cases answer a with
    | none => exact ih
    | some b => rfl

variable {readFrom? : Path → StateM σ (Option String)}
  (hread : ∀ path, readFrom? path state = (read? path, state))
include hread

theorem fileBeside?_apply (path : Path) (format : FileFormat) (extension : Name)
    : fileBeside? readFrom? path format extension state =
      (fileBeside? (m := Id) read? path format extension, state) := by
  unfold fileBeside?
  cases FileFormat.appended? extension path with
  | none => rfl
  | some beside =>
    simp only [bind, StateT.bind, hread]
    rfl

theorem findFile_apply (path : Path)
    : findFile backend readFrom? path state = (findFile (m := Id) backend read? path, state) := by
  simp only [findFile, bind, StateT.bind, hread]
  cases read? path with
  | some text => cases FileFormat.ofPath? path <;> rfl
  | none =>
    simp only [StateT.bind, findSomeM?_apply fun attempt : FileFormat × Name =>
      fileBeside?_apply hread path attempt.1 attempt.2]
    cases List.findSomeM? (m := Id) _ backend.attempts <;> rfl

theorem fileLayer_apply (required : Bool) (path : Path)
    : fileLayer backend readFrom? required path state =
      (fileLayer (m := Id) backend read? required path, state) := by
  simp only [fileLayer, bind, StateT.bind, findFile_apply hread]
  cases findFile (m := Id) backend read? path with
  | error obstacle => rfl
  | ok found =>
    obtain ⟨found, format, text⟩ := found
    simp only
    cases backend.read? format (withoutMark text) <;> rfl

theorem fileLayers_apply (required : Bool) (paths : List Path)
    : fileLayers backend readFrom? required paths state =
      (fileLayers (m := Id) backend read? required paths, state) := by
  induction paths with
  | nil => rfl
  | cons path paths ih =>
    simp only [fileLayers, bind, StateT.bind, fileLayer_apply hread]
    cases fileLayer (m := Id) backend read? required path with
    | error fault => rfl
    | ok layer =>
      simp only [StateT.bind, ih]
      rfl

theorem load_apply (env : Environment) (home : Home) (path? : Option Path)
    : load readFrom? env home path? backend state =
      (load (m := Id) read? env home path? backend, state) := by
  cases path? with
  | none =>
    simp only [load, bind, StateT.bind, fileLayers_apply hread]
    rfl
  | some path =>
    simp only [load, bind, StateT.bind, fileLayers_apply hread]
    rfl

end

theorem ofEnvironment_eq_nil (henv : ∀ entry ∈ env, keyOfVariable? entry.1 = none)
    : ofEnvironment env = [] := by
  rw [ofEnvironment]
  induction env with
  | nil => rfl
  | cons entry env ih =>
    obtain ⟨name, text⟩ := entry
    simp only [List.foldl_cons, henv _ List.mem_cons_self]
    exact ih fun entry hentry => henv entry (List.mem_cons_of_mem _ hentry)

theorem findFile_eq_ok {path : Path} {format : FileFormat} {text : String}
    (hpath : read? path = some text) (hformat : FileFormat.ofPath? path = some format)
    : findFile (m := Id) backend read? path = .ok (path, format, text) := by
  simp only [findFile, hpath, hformat]
  rfl

theorem fileLayer_eq_ok {required : Bool} {path : Path} {format : FileFormat} {text : String}
    {entries : Entries} (hpath : read? path = some text)
    (hformat : FileFormat.ofPath? path = some format)
    (hentries : backend.read? format (withoutMark text) = some entries)
    : fileLayer (m := Id) backend read? required path = .ok entries := by
  simp only [fileLayer, findFile_eq_ok hpath hformat, bind, hentries]
  rfl

theorem load_named_eq_ofLayers {path : Path} {layer : Entries}
    (hlayer : fileLayer (m := Id) backend read? true path = .ok layer)
    : load (m := Id) read? env home (some path) backend =
      ofLayers backend [layer, ofEnvironment env] := by
  simp only [load, fileLayers, hlayer]
  rfl

inductive Unreadable (backend : Backend) (read? : Path → Option String) (path : Path)
    : Obstacle → Prop where
  | missing {obstacle : Obstacle} (hfound : findFile (m := Id) backend read? path = .error obstacle)
    : Unreadable backend read? path obstacle
  | malformed {format : FileFormat} {text : String} (hpath : read? path = some text)
      (hformat : FileFormat.ofPath? path = some format)
      (hentries : backend.read? format (withoutMark text) = none)
    : Unreadable backend read? path (.malformed path format text)

theorem Unreadable.load_named_eq_error {path : Path} {obstacle : Obstacle}
    (h : Unreadable backend read? path obstacle) (env : Environment) (home : Home)
    : load (m := Id) read? env home (some path) backend =
      .error ⟨.unreadable, backend.causes obstacle⟩ := by
  have hlayer : fileLayer (m := Id) backend read? true path =
      .error ⟨.unreadable, backend.causes obstacle⟩ := by
    cases h with
    | missing hfound =>
      simp only [fileLayer, hfound]
      rfl
    | malformed hpath hformat hentries =>
      simp only [fileLayer, findFile_eq_ok hpath hformat, bind, hentries]
      rfl
  simp only [load, fileLayers, hlayer]
  rfl

theorem exists_read?_toToml
    : ∃ entries, Toml.read? (withoutMark (toToml {})) = some entries ∧
        ∀ backend, ofLayers backend [entries, []] = .ok {} := by
  have hread : (Toml.read? (withoutMark (toToml {}))).map
      (fun entries => ofEntries? ([entries, []].foldl Entries.setAll (toEntries {}))) =
        some (some {}) := by
    decide +kernel
  obtain ⟨entries, hentries, hdefaults⟩ := Option.map_eq_some_iff.mp hread
  refine ⟨entries, hentries, fun backend => ?_⟩
  rw [ofLayers, hdefaults]

theorem load_toToml {path : Path} (hformat : FileFormat.ofPath? path = some .toml)
    (hpath : read? path = some (toToml {})) (henv : ∀ entry ∈ env, keyOfVariable? entry.1 = none)
    : load (m := Id) read? env home (some path) backend = .ok {} := by
  obtain ⟨entries, hentries, hdefaults⟩ := exists_read?_toToml
  rw [load_named_eq_ofLayers (fileLayer_eq_ok hpath hformat hentries), ofEnvironment_eq_nil henv]
  exact hdefaults backend

end RunnerKit.Settings
