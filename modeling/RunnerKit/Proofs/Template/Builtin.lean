import RunnerKit.Proofs.Project.Outcome
import RunnerKit.Proofs.Template.Lines
/-!
This module contains what the built-in templates generate. Whatever the project is called, all of its
files name the same runner.
-/

namespace RunnerKit

structure Context.IsFor (ctx : Context) (app : AppName) (author email : String) (year : Int)
    (binDir : String) : Prop where
  appName : ctx.get? PlaceholderKey.appName = some app.text
  appNameLower : ctx.get? PlaceholderKey.appNameLower = some app.lowercase
  author : ctx.get? PlaceholderKey.author = some author
  email : ctx.get? PlaceholderKey.email = some email
  year : ctx.get? PlaceholderKey.year = some (toString year)
  binDir : ctx.get? PlaceholderKey.binDir = some binDir

namespace PlaceholderKey

def all : List String := [appName, appNameLower, author, email, year, binDir]

end PlaceholderKey

def Context.ofInstalled (app : AppName) (author email : String) (year : Int)
    : Option Path → Except Violation Context
  | none => .ok (ofProject app author email year)
  | some dir => (ofProject app author email year).withBinDir dir

def notice (author email : String) (year : Int) : String :=
  "SPDX-FileCopyrightText: " ++ toString year ++ " " ++ author ++ " <" ++ email ++ ">"

def shownBinDir (dir? : Option Path) : String := (dir?.map Path.display).getD defaultBinDir

structure RunnerProject where
  manifest : String
  program : String
  desktopEntry : String
  activation : String
  readme : String

namespace RunnerProject

def files (p : RunnerProject) (app : AppName) : List ProjectFile := [
  ⟨.ofString "Cargo.toml", p.manifest, false⟩,
  ⟨.ofString "src/main.rs", p.program, false⟩,
  ⟨.ofString (app.lowercase ++ ".desktop"), p.desktopEntry, false⟩,
  ⟨.ofString ("org.kde." ++ app.lowercase ++ ".service"), p.activation, false⟩,
  ⟨.ofString "README.md", p.readme, false⟩]

structure Coherent (p : RunnerProject) (identity : ServiceIdentity) (binDir notice : String)
    : Prop where
  busName : HasLine p.program ("const BUS_NAME: &str = \"" ++ identity.busName ++ "\";")
  objectPath : HasLine p.program ("const OBJECT_PATH: &str = \"" ++ identity.objectPath ++ "\";")
  service : HasLine p.desktopEntry ("X-Plasma-DBusRunner-Service=" ++ identity.busName)
  path : HasLine p.desktopEntry ("X-Plasma-DBusRunner-Path=" ++ identity.objectPath)
  name : HasLine p.activation ("Name=" ++ identity.busName)
  exec : HasLine p.activation ("Exec=" ++ binDir ++ "/" ++ identity.app.lowercase)
  notice : ∀ file ∈ p.files identity.app, Contains file.content notice

end RunnerProject

namespace Context.IsFor

variable {ctx : Context} {app : AppName} {author email binDir : String} {year : Int}

theorem ofProject (app : AppName) (author email : String) (year : Int)
    : IsFor (.ofProject app author email year) app author email year defaultBinDir := by
  constructor <;> simp [Context.ofProject, get?_bind, PlaceholderKey.appName,
    PlaceholderKey.appNameLower, PlaceholderKey.author, PlaceholderKey.email, PlaceholderKey.year,
    PlaceholderKey.binDir]

theorem bind_binDir (h : ctx.IsFor app author email year binDir) (dir : String)
    : (ctx.bind PlaceholderKey.binDir dir).IsFor app author email year dir where
  appName := by rw [get?_bind, if_neg (by decide), h.appName]
  appNameLower := by rw [get?_bind, if_neg (by decide), h.appNameLower]
  author := by rw [get?_bind, if_neg (by decide), h.author]
  email := by rw [get?_bind, if_neg (by decide), h.email]
  year := by rw [get?_bind, if_neg (by decide), h.year]
  binDir := by rw [get?_bind, if_pos rfl]

theorem exists_get? (h : ctx.IsFor app author email year binDir)
    : ∀ key ∈ PlaceholderKey.all, ∃ value, ctx.get? key = some value := by
  intro key hkey
  simp only [PlaceholderKey.all, List.mem_cons, List.not_mem_nil, or_false] at hkey
  obtain rfl | rfl | rfl | rfl | rfl | rfl := hkey
  . exact ⟨_, h.appName⟩
  . exact ⟨_, h.appNameLower⟩
  . exact ⟨_, h.author⟩
  . exact ⟨_, h.email⟩
  . exact ⟨_, h.year⟩
  . exact ⟨_, h.binDir⟩

end Context.IsFor

namespace AppName

theorem toLower_ne_slash {c : Char} (h : isStart c) : c.toLower ≠ '/' := by
  intro hlower
  unfold Char.toLower at hlower
  split at hlower
  . next hupper =>
    have hval : c.val + 32 = 47 := congrArg Char.val hlower
    have hbounds : 65 ≤ c.val ∧ c.val ≤ 90 := hupper
    grind
  . rw [hlower] at h
    exact absurd h (by decide)

theorem head?_lowercase (app : AppName) : app.lowercase.toList.head? ≠ some '/' := by
  have h := app.faultless
  unfold fault? at h
  split at h
  . cases h
  . next first rest htext =>
    split at h
    . cases h
    . next hfirst =>
      rw [Bool.not_eq_true, Bool.not_eq_false'] at hfirst
      rw [lowercase, asciiLower, String.toList_ofList, htext, List.map_cons, List.head?_cons,
        ne_eq, Option.some.injEq]
      exact toLower_ne_slash hfirst

end AppName

theorem RunnerProject.wellPlaced_files (p : RunnerProject) (app : AppName)
    : WellPlaced (p.files app) where
  relative := by
  -- The files differ in the last characters of their paths, whatever the project is called.
    simp only [files, List.forall_mem_cons, List.not_mem_nil, false_imp_iff, implies_true, and_true]
    refine ⟨?_, ?_, ?_, ?_, ?_⟩
    . exact Path.isAbsolute_ofString_eq_false (by decide)
    . exact Path.isAbsolute_ofString_eq_false (by decide)
    . apply Path.isAbsolute_ofString_eq_false
      have hname := app.head?_lowercase
      rw [String.toList_append]
      cases hlowercase : app.lowercase.toList with
      | nil => decide
      | cons c cs =>
        rw [hlowercase] at hname
        exact hname
    . apply Path.isAbsolute_ofString_eq_false
      simp
    . exact Path.isAbsolute_ofString_eq_false (by decide)
  distinct := by
    have hends : ((p.files app).map (·.path.display.toList.getLast?)).Nodup := by
      have hdesktop : ".desktop".toList.getLast? = some 'p' := by decide
      have hservice : ".service".toList.getLast? = some 'e' := by decide
      simp only [files, List.map_cons, List.map_nil, Path.display_ofString, String.toList_append,
        List.getLast?_append, hdesktop, hservice, Option.some_or]
      decide
    rw [List.Nodup, List.pairwise_map] at hends
    exact hends.imp fun hne heq => hne (by rw [heq])

theorem TemplateFile.becomes_ofString {ctx : Context} {shown shown' content content' : String}
    (hshown : ctx.render shown = .ok shown') (hcontent : ctx.render content = .ok content')
    : TemplateFile.Becomes ctx { path := .ofString shown, content }
        ⟨.ofString shown', content', false⟩ where
  path := ⟨shown', by rw [Path.display_ofString, hshown], rfl⟩
  content := hcontent
  executable := rfl

namespace Builtin

def attribution : String :=
  "SPDX-FileCopyrightText: " ++ slot PlaceholderKey.year ++ " " ++ slot PlaceholderKey.author ++
    " <" ++ slot PlaceholderKey.email ++ ">"

def busName : String := busNamePrefix ++ slot PlaceholderKey.appNameLower

def objectPath : PathStyle → String
  | .default => defaultObjectPath
  | .appScoped => "/" ++ slot PlaceholderKey.appNameLower

theorem attribution_eq
    : attribution = "SPDX-FileCopyrightText: %\x7bCURRENT_YEAR\x7d %\x7bAUTHOR\x7d <%\x7bEMAIL\x7d>" := by
  decide

theorem busName_eq : busName = "org.kde.%\x7bAPPNAMELC\x7d" := by
  decide

theorem slot_appNameLower_eq : slot PlaceholderKey.appNameLower = "%\x7bAPPNAMELC\x7d" := by
  decide

theorem slot_binDir_eq : slot PlaceholderKey.binDir = "%\x7bBINDIR\x7d" := by
  decide

theorem desktopEntryName_eq
    : "%\x7bAPPNAMELC\x7d.desktop" = slot PlaceholderKey.appNameLower ++ ".desktop" := by
  simp [slot_appNameLower_eq]

theorem activationName_eq : "org.kde.%\x7bAPPNAMELC\x7d.service" = busName ++ ".service" := by
  simp [busName_eq]

variable {ctx : Context} {app : AppName} {author email binDir : String} {year : Int}
  (h : ctx.IsFor app author email year binDir)
include h

theorem render_busName : ctx.render busName = .ok (busNamePrefix ++ app.lowercase) := by
  apply Context.render_mark_append (by decide)
  exact Context.render_slot (by decide) h.appNameLower

theorem render_objectPath (style : PathStyle)
    : ctx.render (objectPath style) = .ok (ServiceIdentity.objectPath ⟨app, style⟩) := by
  cases style with
  | default => exact Context.render_mark (by decide)
  | appScoped =>
    apply Context.render_mark_append (by decide)
    exact Context.render_slot (by decide) h.appNameLower

theorem render_attribution : ctx.render attribution = .ok (notice author email year) := by
  unfold attribution notice
  apply Context.render_append_mark (by decide) (by decide)
  apply Context.render_append_slot (by decide) h.email
  apply Context.render_append_mark (by decide) (by decide)
  apply Context.render_append_slot (by decide) h.author
  apply Context.render_append_mark (by decide) (by decide)
  apply Context.render_append_slot (by decide) h.year
  exact Context.render_mark (by decide)

theorem contains_notice {text mark : String} (hmark : '%' ∉ mark.toList)
    (hline : ∀ filled, ctx.render (mark ++ attribution) = .ok filled → HasLine text filled)
    : Contains text (notice author email year) := by
  apply (hline _ (Context.render_mark_append hmark (render_attribution h))).contains
  exact contains_append mark _

theorem exists_render_manifest
    : ∃ text, ctx.render manifest = .ok text ∧ Contains text (notice author email year) := by
  obtain ⟨lines, hsource, hknown, hnotice⟩ :
      ∃ lines, manifest = unlines lines ∧ (∀ line ∈ lines, isKnown PlaceholderKey.all line) ∧
        "# " ++ attribution ∈ lines := by
    refine ⟨_, manifest.eq_1, ?_, ?_⟩
    . decide +kernel
    . simp [attribution_eq]
  obtain ⟨text, htext, hlines⟩ := Context.exists_render_unlines h.exists_get? hknown
  refine ⟨text, by rw [hsource, htext], ?_⟩
  exact contains_notice h (by decide) (hlines _ hnotice)

theorem exists_render_program (style : PathStyle)
    : ∃ text, ctx.render (program (objectPath style)) = .ok text ∧ Contains text (notice author email year) ∧
      HasLine text ("const BUS_NAME: &str = \"" ++ ServiceIdentity.busName ⟨app, style⟩ ++ "\";") ∧
      HasLine text
        ("const OBJECT_PATH: &str = \"" ++ ServiceIdentity.objectPath ⟨app, style⟩ ++ "\";") := by
  obtain ⟨lines, hsource, hknown, hnotice, hbusName, hobjectPath⟩ :
      ∃ lines, program (objectPath style) = unlines lines ∧
        (∀ line ∈ lines, isKnown PlaceholderKey.all line) ∧
        "// " ++ attribution ∈ lines ∧ "const BUS_NAME: &str = \"" ++ busName ++ "\";" ∈ lines ∧
        "const OBJECT_PATH: &str = \"" ++ objectPath style ++ "\";" ∈ lines := by
    refine ⟨_, program.eq_1 (objectPath style), ?_, ?_, ?_, ?_⟩
    . cases style <;> decide +kernel
    . simp [attribution_eq]
    . simp [busName_eq]
    . simp
  obtain ⟨text, htext, hlines⟩ := Context.exists_render_unlines h.exists_get? hknown
  refine ⟨text, by rw [hsource, htext], ?_, ?_, ?_⟩
  . exact contains_notice h (by decide) (hlines _ hnotice)
  . apply hlines _ hbusName
    apply Context.render_append_mark (by decide) (by decide)
    apply Context.render_mark_append (by decide)
    exact render_busName h
  . apply hlines _ hobjectPath
    apply Context.render_append_mark (by decide) (by decide)
    apply Context.render_mark_append (by decide)
    exact render_objectPath h style

theorem exists_render_desktopEntry (style : PathStyle)
    : ∃ text, ctx.render (desktopEntry (objectPath style)) = .ok text ∧
      Contains text (notice author email year) ∧
      HasLine text ("X-Plasma-DBusRunner-Service=" ++ ServiceIdentity.busName ⟨app, style⟩) ∧
      HasLine text ("X-Plasma-DBusRunner-Path=" ++ ServiceIdentity.objectPath ⟨app, style⟩) := by
  obtain ⟨lines, hsource, hknown, hnotice, hservice, hpath⟩ :
      ∃ lines, desktopEntry (objectPath style) = unlines lines ∧
        (∀ line ∈ lines, isKnown PlaceholderKey.all line) ∧ "# " ++ attribution ∈ lines ∧
        "X-Plasma-DBusRunner-Service=" ++ busName ∈ lines ∧
        "X-Plasma-DBusRunner-Path=" ++ objectPath style ∈ lines := by
    refine ⟨_, desktopEntry.eq_1 (objectPath style), ?_, ?_, ?_, ?_⟩
    . cases style <;> decide +kernel
    . simp [attribution_eq]
    . simp [busName_eq]
    . simp
  obtain ⟨text, htext, hlines⟩ := Context.exists_render_unlines h.exists_get? hknown
  refine ⟨text, by rw [hsource, htext], ?_, ?_, ?_⟩
  . exact contains_notice h (by decide) (hlines _ hnotice)
  . apply hlines _ hservice
    apply Context.render_mark_append (by decide)
    exact render_busName h
  . apply hlines _ hpath
    apply Context.render_mark_append (by decide)
    exact render_objectPath h style

theorem exists_render_activation
    : ∃ text, ctx.render activation = .ok text ∧ Contains text (notice author email year) ∧
      HasLine text ("Name=" ++ (busNamePrefix ++ app.lowercase)) ∧
      HasLine text ("Exec=" ++ binDir ++ "/" ++ app.lowercase) := by
  obtain ⟨lines, hsource, hknown, hnotice, hname, hexec⟩ :
      ∃ lines, activation = unlines lines ∧ (∀ line ∈ lines, isKnown PlaceholderKey.all line) ∧
        "# " ++ attribution ∈ lines ∧ "Name=" ++ busName ∈ lines ∧
        "Exec=" ++ slot PlaceholderKey.binDir ++ "/" ++ slot PlaceholderKey.appNameLower ∈ lines := by
    refine ⟨_, activation.eq_1, ?_, ?_, ?_, ?_⟩
    . decide +kernel
    . simp [attribution_eq]
    . simp [busName_eq]
    . simp [slot_appNameLower_eq, slot_binDir_eq]
  obtain ⟨text, htext, hlines⟩ := Context.exists_render_unlines h.exists_get? hknown
  refine ⟨text, by rw [hsource, htext], ?_, ?_, ?_⟩
  . exact contains_notice h (by decide) (hlines _ hnotice)
  . apply hlines _ hname
    apply Context.render_mark_append (by decide)
    exact render_busName h
  . apply hlines _ hexec
    apply Context.render_append_slot (by decide) h.appNameLower
    apply Context.render_append_mark (by decide) (by decide)
    apply Context.render_mark_append (by decide)
    exact Context.render_slot (by decide) h.binDir

theorem exists_render_readme
    : ∃ text, ctx.render readme = .ok text ∧ Contains text (notice author email year) := by
  obtain ⟨lines, hsource, hknown, hnotice⟩ :
      ∃ lines, readme = unlines lines ∧ (∀ line ∈ lines, isKnown PlaceholderKey.all line) ∧
        attribution ∈ lines := by
    refine ⟨_, readme.eq_1, ?_, ?_⟩
    . decide +kernel
    . simp [attribution_eq]
  obtain ⟨text, htext, hlines⟩ := Context.exists_render_unlines h.exists_get? hknown
  refine ⟨text, by rw [hsource, htext], ?_⟩
  exact (hlines _ hnotice _ (render_attribution h)).contains (contains_refl _)

theorem render_template {id description : String} {style : PathStyle}
    (hvalid : (template id description style (objectPath style)).validate = .ok ()) (root : Path)
    : ∃ p : RunnerProject,
        (template id description style (objectPath style)).render ctx root =
          .ok { root, files := p.files app } ∧
          p.Coherent ⟨app, style⟩ binDir (notice author email year) := by
  obtain ⟨manifest, hmanifest, hmanifestNotice⟩ := exists_render_manifest h
  obtain ⟨program, hprogram, hprogramNotice, hbusName, hobjectPath⟩ := exists_render_program h style
  obtain ⟨entry, hentry, hentryNotice, hservice, hpath⟩ := exists_render_desktopEntry h style
  obtain ⟨activation, hactivation, hactivationNotice, hname, hexec⟩ := exists_render_activation h
  obtain ⟨readme, hreadme, hreadmeNotice⟩ := exists_render_readme h
  let p : RunnerProject := ⟨manifest, program, entry, activation, readme⟩
  have hfiles : List.Forall₂ (TemplateFile.Becomes ctx)
      (template id description style (objectPath style)).files (p.files app) := by
    refine .cons (TemplateFile.becomes_ofString ?_ hmanifest) ?_
    . exact Context.render_mark (by decide)
    refine .cons (TemplateFile.becomes_ofString ?_ hprogram) ?_
    . exact Context.render_mark (by decide)
    refine .cons (TemplateFile.becomes_ofString ?_ hentry) ?_
    . rw [desktopEntryName_eq]
      apply Context.render_append_mark (by decide) (by decide)
      exact Context.render_slot (by decide) h.appNameLower
    refine .cons (TemplateFile.becomes_ofString ?_ hactivation) ?_
    . rw [activationName_eq]
      apply Context.render_append_mark (by decide) (by decide)
      exact render_busName h
    refine .cons (TemplateFile.becomes_ofString ?_ hreadme) .nil
    exact Context.render_mark (by decide)
  refine ⟨p, ?_, hbusName, hobjectPath, hservice, hpath, hname, hexec, ?_⟩
  . exact Template.Rendering.render_eq
      (.rendered hvalid hfiles (List.cons_ne_nil _ _) (p.wellPlaced_files app))
  . simp [RunnerProject.files, p, *]

omit h

theorem validate_of_mem_all : ∀ t ∈ all, t.validate = .ok () := by
  decide +kernel

theorem exists_eq_template
    : ∀ t ∈ all, ∃ id description, t = template id description t.pathStyle (objectPath t.pathStyle) := by
  have hpath : "/%\x7bAPPNAMELC\x7d" = objectPath .appScoped := by decide
  intro t ht
  simp only [all, List.mem_cons, List.not_mem_nil, or_false] at ht
  obtain rfl | rfl := ht
  . exact ⟨_, _, rfl⟩
  . rw [runnerScoped, hpath]
    exact ⟨_, _, rfl⟩

end Builtin

theorem Context.exists_ofInstalled (app : AppName) (author email : String) (year : Int)
    {dir? : Option Path} (hdir : ∀ dir ∈ dir?, dir.isAbsolute = true)
    : ∃ ctx, ofInstalled app author email year dir? = .ok ctx ∧
        ctx.IsFor app author email year (shownBinDir dir?) := by
  have hproject := IsFor.ofProject app author email year
  cases dir? with
  | none => exact ⟨_, rfl, hproject⟩
  | some dir =>
    have hbound : withBinDir (.ofProject app author email year) dir = .ok _ := if_pos (hdir dir rfl)
    exact ⟨_, hbound, hproject.bind_binDir dir.display⟩

theorem Builtin.exists_render_coherent (app : AppName) (author email : String) (year : Int)
    {dir? : Option Path} (hdir : ∀ dir ∈ dir?, dir.isAbsolute = true) {t : Template} (ht : t ∈ all)
    (root : Path)
    : ∃ ctx, ∃ p : RunnerProject, Context.ofInstalled app author email year dir? = .ok ctx ∧
        t.render ctx root = .ok { root, files := p.files app } ∧
        p.Coherent ⟨app, t.pathStyle⟩ (shownBinDir dir?) (notice author email year) := by
  obtain ⟨ctx, hctx, hvalues⟩ := Context.exists_ofInstalled app author email year hdir
  obtain ⟨id, description, htemplate⟩ := exists_eq_template t ht
  have hvalid := validate_of_mem_all t ht
  rw [htemplate] at hvalid
  obtain ⟨p, hrender, hcoherent⟩ := render_template hvalues hvalid root
  rw [← htemplate] at hrender
  exact ⟨ctx, p, hctx, hrender, hcoherent⟩

def helloApp : AppName := ⟨"Hello", by decide +kernel⟩

theorem Builtin.exists_render_coherent_in_opt
    : (∀ dir ∈ some (Path.ofString "/opt/bin"), dir.isAbsolute = true) ∧ runnerScoped ∈ all ∧
        ∃ ctx, ∃ p : RunnerProject,
          Context.ofInstalled helloApp "%\x7bBINDIR\x7d" "jane@example.org" 2026
            (some (.ofString "/opt/bin")) = .ok ctx ∧
          runnerScoped.render ctx (.ofString "hello") = .ok
            { root := .ofString "hello", files := p.files helloApp } ∧
          p.Coherent ⟨helloApp, .appScoped⟩ (shownBinDir (some (.ofString "/opt/bin")))
            (notice "%\x7bBINDIR\x7d" "jane@example.org" 2026) := by
  have hdir : ∀ dir ∈ some (Path.ofString "/opt/bin"), dir.isAbsolute = true := by
    intro dir hdir
    cases hdir
    exact Path.isAbsolute_ofString_iff.mpr (by decide)
  have hmem : runnerScoped ∈ all := List.mem_cons_of_mem _ List.mem_cons_self
  exact ⟨hdir, hmem, exists_render_coherent _ _ _ _ hdir hmem _⟩

end RunnerKit
