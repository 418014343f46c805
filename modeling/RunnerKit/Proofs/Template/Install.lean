import RunnerKit.Proofs.Template.Builtin
/-!
This module contains where a generated program is said to be installed. A directory that is chosen is
checked, and a variable that is bound is not, even if it is the one that names the directory.
-/

namespace RunnerKit

inductive ContextStep where
  | chooseBinDir (dir : Path)
  | bindVariable (key value : String)

namespace ContextStep

def binDir? : ContextStep → Option String
  | chooseBinDir dir => if dir.isAbsolute then some dir.display else none
  | bindVariable key value => if key = PlaceholderKey.binDir then some value else none

inductive Installs (steps : List ContextStep) : String → Prop where
  | standard (hsteps : ∀ step ∈ steps, step.binDir? = none) : Installs steps defaultBinDir
  | chosen {before after : List ContextStep} {dir : Path}
      (hsteps : steps = before ++ chooseBinDir dir :: after) (habsolute : dir.isAbsolute = true)
      (hafter : ∀ step ∈ after, step.binDir? = none)
    : Installs steps dir.display
  | bound {before after : List ContextStep} {value : String}
      (hsteps : steps = before ++ bindVariable PlaceholderKey.binDir value :: after)
      (hafter : ∀ step ∈ after, step.binDir? = none)
    : Installs steps value

end ContextStep

namespace Context

def take (ctx : Context) : ContextStep → Context
  | .chooseBinDir dir =>
    match ctx.withBinDir dir with
    | .ok ctx => ctx
    | .error _ => ctx
  | .bindVariable key value => ctx.bind key value

def takeAll (ctx : Context) (steps : List ContextStep) : Context := steps.foldl take ctx

theorem takeAll_concat (ctx : Context) (steps : List ContextStep) (last : ContextStep)
    : ctx.takeAll (steps ++ [last]) = (ctx.takeAll steps).take last := by
  rw [takeAll, List.foldl_append]
  rfl

theorem take_chooseBinDir (ctx : Context) (dir : Path)
    : ctx.take (.chooseBinDir dir) =
      if dir.isAbsolute then ctx.bind PlaceholderKey.binDir dir.display else ctx := by
  simp only [take, withBinDir]
  cases dir.isAbsolute <;> simp

theorem exists_get?_take {ctx : Context} {key : String} (h : ∃ value, ctx.get? key = some value)
    (step : ContextStep) : ∃ value, (ctx.take step).get? key = some value := by
  have hbind (key' value : String) : ∃ value', (ctx.bind key' value).get? key = some value' := by
    rw [get?_bind]
    split
    . exact ⟨value, rfl⟩
    . exact h
  cases step with
  | chooseBinDir dir =>
    rw [take_chooseBinDir]
    split
    . apply hbind
    . exact h
  | bindVariable key' value => apply hbind

theorem get?_binDir_take (ctx : Context) (step : ContextStep)
    : (ctx.take step).get? PlaceholderKey.binDir =
      step.binDir?.or (ctx.get? PlaceholderKey.binDir) := by
  cases step with
  | chooseBinDir dir =>
    rw [take_chooseBinDir, ContextStep.binDir?]
    split
    . rw [get?_bind, if_pos rfl, Option.some_or]
    . rw [Option.none_or]
  | bindVariable key value =>
    rw [take, get?_bind, ContextStep.binDir?]
    split
    . rw [Option.some_or]
    . rw [Option.none_or]

theorem exists_get?_takeAll {ctx : Context} {key : String}
    (h : ∃ value, ctx.get? key = some value) (steps : List ContextStep)
    : ∃ value, (ctx.takeAll steps).get? key = some value := by
  induction steps generalizing ctx with
  | nil => exact h
  | cons step steps ih => exact ih (exists_get?_take h step)

end Context

namespace ContextStep

variable {steps : List ContextStep} {dir : String}

theorem Installs.concat_of_none (h : Installs steps dir) {last : ContextStep}
    (hlast : last.binDir? = none) : Installs (steps ++ [last]) dir := by
  have hlater {after : List ContextStep} (hafter : ∀ step ∈ after, step.binDir? = none)
      : ∀ step ∈ after ++ [last], step.binDir? = none := by
    intro step hstep
    rw [List.mem_append, List.mem_singleton] at hstep
    cases hstep with
    | inl hstep => exact hafter step hstep
    | inr hstep => rw [hstep, hlast]
  cases h with
  | standard hsteps => exact .standard (hlater hsteps)
  | @chosen before after dir hsteps habsolute hafter =>
    have hconcat : steps ++ [last] = before ++ chooseBinDir dir :: (after ++ [last]) := by
      simp [hsteps]
    exact .chosen hconcat habsolute (hlater hafter)
  | @bound before after value hsteps hafter =>
    have hconcat : steps ++ [last] =
        before ++ bindVariable PlaceholderKey.binDir dir :: (after ++ [last]) := by
      simp [hsteps]
    exact .bound hconcat (hlater hafter)

theorem installs_concat_of_some {last : ContextStep} (hlast : last.binDir? = some dir)
    : Installs (steps ++ [last]) dir := by
  cases last with
  | chooseBinDir path =>
    simp only [binDir?, Option.ite_none_right_eq_some, Option.some.injEq] at hlast
    rw [← hlast.2]
    exact .chosen rfl hlast.1 (by simp)
  | bindVariable key value =>
    simp only [binDir?, Option.ite_none_right_eq_some, Option.some.injEq] at hlast
    rw [hlast.1, ← hlast.2]
    exact .bound rfl (by simp)

theorem exists_installs {ctx : Context}
    (h : ctx.get? PlaceholderKey.binDir = some defaultBinDir) (steps : List ContextStep)
    : ∃ dir, (ctx.takeAll steps).get? PlaceholderKey.binDir = some dir ∧ Installs steps dir := by
  induction steps using List.reverseRecOn with
  | nil => exact ⟨_, h, .standard (by simp)⟩
  | append_singleton steps last ih =>
    obtain ⟨dir, hdir, hinstalls⟩ := ih
    rw [Context.takeAll_concat, Context.get?_binDir_take, hdir]
    cases hlast : last.binDir? with
    | none => exact ⟨dir, rfl, hinstalls.concat_of_none hlast⟩
    | some dir' => exact ⟨dir', rfl, installs_concat_of_some hlast⟩

theorem Installs.isAbsolute (h : Installs steps dir)
    (hbound : ∀ value, bindVariable PlaceholderKey.binDir value ∈ steps →
      (Path.ofString value).isAbsolute = true)
    : (Path.ofString dir).isAbsolute = true := by
  cases h with
  | standard _ => exact Path.isAbsolute_ofString_iff.mpr (by decide)
  | chosen _ habsolute _ => exact Path.isAbsolute_ofString_display habsolute
  | bound hsteps _ =>
    apply hbound
    rw [hsteps]
    exact List.mem_append_right _ List.mem_cons_self

end ContextStep

namespace Builtin

variable {ctx : Context}

def execLine : String := "Exec=" ++ slot PlaceholderKey.binDir ++ "/" ++ slot PlaceholderKey.appNameLower

theorem render_execLine {dir lower : String} (hdir : ctx.get? PlaceholderKey.binDir = some dir)
    (hlower : ctx.get? PlaceholderKey.appNameLower = some lower)
    : ctx.render execLine = .ok ("Exec=" ++ dir ++ "/" ++ lower) := by
  apply Context.render_append_slot (by decide) hlower
  apply Context.render_append_mark (by decide) (by decide)
  apply Context.render_mark_append (by decide)
  exact Context.render_slot (by decide) hdir

theorem exists_activation_eq
    : ∃ lines, activation = unlines (lines ++ [execLine]) ∧
        ∀ line ∈ lines, isKnown PlaceholderKey.all line := by
  refine ⟨[_, _, _, _, _], activation.eq_1, ?_⟩
  simp only [List.forall_mem_cons, List.not_mem_nil, false_imp_iff, implies_true, and_true]
  refine ⟨?_, ?_, ?_, ?_, ?_⟩ <;> decide +kernel

theorem exists_render_activation_eq
    (h : ∀ key ∈ PlaceholderKey.all, ∃ value, ctx.get? key = some value) {dir lower : String}
    (hdir : ctx.get? PlaceholderKey.binDir = some dir)
    (hlower : ctx.get? PlaceholderKey.appNameLower = some lower)
    : ∃ lines, ctx.render activation =
        .ok (unlines (lines ++ ["Exec=" ++ dir ++ "/" ++ lower])) := by
  obtain ⟨lines, hsource, hknown⟩ := exists_activation_eq
  have hexec := render_execLine hdir hlower
  have hrender : ∀ line ∈ lines ++ [execLine], ∃ text, ctx.render line = .ok text := by
    intro line hline
    rw [List.mem_append, List.mem_singleton] at hline
    cases hline with
    | inl hline => exact Context.exists_render h (hknown line hline)
    | inr hline => exact ⟨_, by rw [hline, hexec]⟩
  choose! fillLine hfill using hrender
  have hlast : fillLine execLine = "Exec=" ++ dir ++ "/" ++ lower := by
    have hfilled := hfill execLine (by simp)
    rw [hexec, Except.ok.injEq] at hfilled
    exact hfilled.symm
  refine ⟨lines.map fillLine, ?_⟩
  rw [hsource, Context.render_unlines hfill, List.map_append, List.map_singleton, hlast]

end Builtin

def ProjectStructure.Starts (project : ProjectStructure) (name program : String) : Prop :=
  ∃ file ∈ project.files, file.path = .ofString (name ++ ".service") ∧
    ∃ lines, file.content = Builtin.unlines (lines ++ ["Exec=" ++ program])

theorem exists_becomes_of_mem {ctx : Context} {files : List TemplateFile}
    {rendered : List ProjectFile} (h : List.Forall₂ (TemplateFile.Becomes ctx) files rendered)
    {file : TemplateFile} (hfile : file ∈ files) : ∃ other ∈ rendered, file.Becomes ctx other := by
  induction h with
  | nil => cases hfile
  | cons hfirst _ ih =>
    cases hfile with
    | head => exact ⟨_, List.mem_cons_self, hfirst⟩
    | tail _ hfile =>
      obtain ⟨other, hother, hbecomes⟩ := ih hfile
      exact ⟨other, List.mem_cons_of_mem _ hother, hbecomes⟩

theorem Template.forall₂_becomes_of_render {t : Template} {ctx : Context} {root : Path}
    {project : ProjectStructure} (h : t.render ctx root = .ok project)
    : List.Forall₂ (TemplateFile.Becomes ctx) t.files project.files := by
  obtain ⟨result, hresult⟩ := t.exists_rendering ctx root
  rw [hresult.render_eq] at h
  subst h
  cases hresult with
  | rendered _ hfiles _ _ => exact hfiles

theorem Builtin.starts_of_render {ctx : Context}
    (h : ∀ key ∈ PlaceholderKey.all, ∃ value, ctx.get? key = some value) {dir lower : String}
    (hdir : ctx.get? PlaceholderKey.binDir = some dir)
    (hlower : ctx.get? PlaceholderKey.appNameLower = some lower) {t : Template} (ht : t ∈ all)
    {root : Path} {project : ProjectStructure} (hrender : t.render ctx root = .ok project)
    : project.Starts (busNamePrefix ++ lower) (dir ++ "/" ++ lower) := by
  obtain ⟨id, description, htemplate⟩ := exists_eq_template t ht
  have hactivation : ⟨.ofString (busName ++ ".service"), activation, false⟩ ∈ t.files := by
    rw [htemplate, ← activationName_eq]
    simp [template]
  obtain ⟨file, hfile, hbecomes⟩ :=
    exists_becomes_of_mem (Template.forall₂_becomes_of_render hrender) hactivation
  have hname : ctx.render (busName ++ ".service") = .ok (busNamePrefix ++ lower ++ ".service") := by
    apply Context.render_append_mark (by decide) (by decide)
    apply Context.render_mark_append (by decide)
    exact Context.render_slot (by decide) hlower
  obtain ⟨path, hpath, hplace⟩ := hbecomes.path
  obtain ⟨lines, hlines⟩ := exists_render_activation_eq h hdir hlower
  refine ⟨file, hfile, ?_, lines, ?_⟩
  . rw [Path.display_ofString, hname, Except.ok.injEq] at hpath
    rw [hplace, hpath]
  . have hcontent := hbecomes.content
    rw [hlines, Except.ok.injEq] at hcontent
    rw [← hcontent, String.append_assoc, String.append_assoc, String.append_assoc]

theorem Path.isAbsolute_program_iff (dir lower : String)
    : (ofString (dir ++ "/" ++ lower)).isAbsolute = true ↔
      dir = "" ∨ (ofString dir).isAbsolute = true := by
  -- The slash that comes before the program makes it absolute in a directory without a name.
  rw [isAbsolute_ofString_iff, isAbsolute_ofString_iff, String.toList_append, String.toList_append]
  cases hdir : dir.toList with
  | nil => simp [String.toList_eq_nil_iff.mp hdir]
  | cons c cs =>
    have hne : dir ≠ "" := by
      rintro rfl
      cases hdir
    simp [hne]

structure Context.Installation (ctx : Context) (steps : List ContextStep) (dir lower : String)
    : Prop where
  binDir : ctx.get? PlaceholderKey.binDir = some dir
  appNameLower : ctx.get? PlaceholderKey.appNameLower = some lower
  source : ContextStep.Installs steps dir
  absolute : (∀ value, .bindVariable PlaceholderKey.binDir value ∈ steps →
    (Path.ofString value).isAbsolute = true) → (Path.ofString dir).isAbsolute = true
  program : (Path.ofString (dir ++ "/" ++ lower)).isAbsolute = true ↔
    dir = "" ∨ (Path.ofString dir).isAbsolute = true
  starts : ∀ t ∈ Builtin.all, ∀ root project, t.render ctx root = .ok project →
    project.Starts (busNamePrefix ++ lower) (dir ++ "/" ++ lower)

theorem Context.exists_installation (app : AppName) (author email : String) (year : Int)
    (steps : List ContextStep)
    : ∃ dir lower, ((ofProject app author email year).takeAll steps).Installation steps dir lower := by
  have hproject := IsFor.ofProject app author email year
  obtain ⟨dir, hdir, hinstalls⟩ := ContextStep.exists_installs hproject.binDir steps
  have hkeys : ∀ key ∈ PlaceholderKey.all, ∃ value,
      ((ofProject app author email year).takeAll steps).get? key = some value :=
    fun key hkey => exists_get?_takeAll (hproject.exists_get? key hkey) steps
  obtain ⟨lower, hlower⟩ := hkeys PlaceholderKey.appNameLower (by simp [PlaceholderKey.all])
  refine ⟨dir, lower, hdir, hlower, hinstalls, hinstalls.isAbsolute, ?_, ?_⟩
  . exact Path.isAbsolute_program_iff dir lower
  . intro t ht root project hrender
    exact Builtin.starts_of_render hkeys hdir hlower ht hrender

theorem Context.not_isAbsolute_binDir
    : ¬∀ (app : AppName) (author email : String) (year : Int) (steps : List ContextStep) (dir : String),
      ((ofProject app author email year).takeAll steps).get? PlaceholderKey.binDir = some dir →
        (Path.ofString dir).isAbsolute = true := by
  intro h
  have hdir := h helloApp "Jane Doe" "jane@example.org" 2026 [.bindVariable PlaceholderKey.binDir "bin"]
    "bin"
  rw [takeAll, List.foldl_cons, List.foldl_nil, take, get?_bind, if_pos rfl] at hdir
  have habsolute := hdir rfl
  rw [Path.isAbsolute_ofString_iff] at habsolute
  exact absurd habsolute (by decide)

end RunnerKit
