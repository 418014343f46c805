import RunnerKit.Proofs.Settings.Toml.Strings
import RunnerKit.Proofs.Template.Builtin
/-!
This module contains what the manifest of a generated project says about its authors. They are put
between the quotes of a TOML string as they are given, so that the string gives them back if no
character of theirs has a meaning there.
-/

namespace RunnerKit

namespace Builtin

open Settings
open Toml (Verbatim isPlain)

def authorsLine (author email : String) : String :=
  "authors = [\"" ++ author ++ " <" ++ email ++ ">\"]"

def manifestLines (appName appNameLower author email year : String) : List String := [
  "# " ++ ("SPDX-FileCopyrightText: " ++ year ++ " " ++ author ++ " <" ++ email ++ ">"),
  "# SPDX-License-Identifier: LGPL-2.1-or-later",
  "",
  "[package]",
  "name = \"" ++ appNameLower ++ "\"",
  "version = \"0.1.0\"",
  "edition = \"2024\"",
  authorsLine author email,
  "description = \"" ++ appName ++ " search runner for KRunner\"",
  "license = \"LGPL-2.1-or-later\"",
  "",
  "[dependencies]",
  "serde = \x7b version = \"1\", features = [\"derive\"] \x7d",
  "zbus = \"5.5\""]

def GivesAuthors (text author email : String) : Prop :=
  '\n' ∉ text.toList ∧
    Toml.read? text.toList =
      some [("authors", .list [.text (author ++ " <" ++ email ++ ">")])]

theorem manifest_eq
    : manifest = unlines (manifestLines (slot PlaceholderKey.appName)
        (slot PlaceholderKey.appNameLower) (slot PlaceholderKey.author) (slot PlaceholderKey.email)
        (slot PlaceholderKey.year)) := by
  apply congrArg unlines
  decide +kernel

theorem render_manifest {ctx : Context} {app : AppName} {author email binDir : String} {year : Int}
    (h : ctx.IsFor app author email year binDir)
    : ctx.render manifest =
      .ok (unlines (manifestLines app.text app.lowercase author email (toString year))) := by
  have hplain {text : String} (htext : '%' ∉ text.toList) : ctx.render text = .ok text :=
    Context.render_mark htext
  rw [manifest_eq]
  apply Context.render_unlines_of_forall₂
  simp only [manifestLines, List.forall₂_cons, List.Forall₂.nil, and_true]
  refine ⟨?_, hplain (by decide), hplain (by decide), hplain (by decide), ?_, hplain (by decide),
    hplain (by decide), ?_, ?_, hplain (by decide), hplain (by decide), hplain (by decide),
    hplain (by decide), hplain (by decide)⟩
  . exact Context.render_mark_append (by decide) (render_attribution h)
  . apply Context.render_append_mark (by decide) (by decide)
    apply Context.render_mark_append (by decide)
    exact Context.render_slot (by decide) h.appNameLower
  . apply Context.render_append_mark (by decide) (by decide)
    apply Context.render_append_slot (by decide) h.email
    apply Context.render_append_mark (by decide) (by decide)
    apply Context.render_mark_append (by decide)
    exact Context.render_slot (by decide) h.author
  . apply Context.render_append_mark (by decide) (by decide)
    apply Context.render_mark_append (by decide)
    exact Context.render_slot (by decide) h.appName

theorem givesAuthors_authorsLine_iff (author email : String)
    : GivesAuthors (authorsLine author email) author email ↔
      Verbatim author.toList ∧ Verbatim email.toList := by
  have hline : authorsLine author email =
      "authors = [\"" ++ (author ++ " <" ++ email ++ ">") ++ "\"]" := by
    have hend : ">\"]" = ">" ++ "\"]" := by decide
    rw [authorsLine, hend]
    simp only [String.append_assoc]
  have hverbatim : Verbatim (author ++ " <" ++ email ++ ">").toList ↔
      Verbatim author.toList ∧ Verbatim email.toList := by
    have hopen : Verbatim " <".toList := by decide
    have hclose : Verbatim ">".toList := by decide
    simp only [String.toList_append, Toml.verbatim_append_iff, hopen, hclose, and_true]
  rw [GivesAuthors, hline, Toml.read?_list_iff, hverbatim]
  refine ⟨And.right, fun h => ⟨?_, h⟩⟩
  have hbreak : ¬(isPlain '\n' = true ∧ '\n' ≠ '"' ∧ '\n' ≠ '\\') := by decide
  intro hmem
  simp only [String.toList_append, List.mem_append] at hmem
  obtain (hmem | ((hmem | hmem) | hmem) | hmem) | hmem := hmem
  . exact absurd hmem (by decide)
  . exact hbreak (h.1 _ hmem)
  . exact absurd hmem (by decide)
  . exact hbreak (h.2 _ hmem)
  . exact absurd hmem (by decide)
  . exact absurd hmem (by decide)

theorem manifest_of_render {ctx : Context} {id description : String} {style : PathStyle} {root : Path}
    {objectPath : String} {p : RunnerProject} {app : AppName}
    (h : (template id description style objectPath).render ctx root =
      .ok { root, files := p.files app })
    : ctx.render manifest = .ok p.manifest := by
  obtain ⟨result, hresult⟩ :=
    (template id description style objectPath).exists_rendering ctx root
  rw [hresult.render_eq] at h
  subst h
  cases hresult with
  | rendered _ hfiles =>
    rw [RunnerProject.files, template, List.forall₂_cons] at hfiles
    exact hfiles.1.content

theorem exists_render_authors (app : AppName) (author email : String) (year : Int)
    {dir? : Option Path} (hdir : ∀ dir ∈ dir?, dir.isAbsolute = true) {t : Template} (ht : t ∈ all)
    (root : Path)
    : ∃ ctx others, Context.ofInstalled app author email year dir? = .ok ctx ∧
        t.render ctx root = .ok {
          root
          files := ⟨.ofString "Cargo.toml",
            unlines (manifestLines app.text app.lowercase author email (toString year)), false⟩ ::
            others } ∧
        (GivesAuthors (authorsLine author email) author email ↔
          Verbatim author.toList ∧ Verbatim email.toList) := by
  obtain ⟨ctx, hctx, hvalues⟩ := Context.exists_ofInstalled app author email year hdir
  obtain ⟨id, description, htemplate⟩ := exists_eq_template t ht
  have hvalid := validate_of_mem_all t ht
  rw [htemplate] at hvalid
  obtain ⟨p, hrender, _⟩ := render_template hvalues hvalid root
  have hmanifest := manifest_of_render hrender
  rw [render_manifest hvalues, Except.ok.injEq] at hmanifest
  rw [← htemplate, RunnerProject.files, ← hmanifest] at hrender
  exact ⟨ctx, _, hctx, hrender, givesAuthors_authorsLine_iff author email⟩

theorem exists_render_authors_tabbed
    : (∀ dir ∈ (none : Option Path), dir.isAbsolute = true) ∧ runner ∈ all ∧
        ∃ ctx others, Context.ofInstalled helloApp "Jane\tDoe" "jane@example.org" 2026 none = .ok ctx ∧
          runner.render ctx (.ofString "hello") = .ok {
            root := .ofString "hello"
            files := ⟨.ofString "Cargo.toml", unlines (manifestLines helloApp.text
              helloApp.lowercase "Jane\tDoe" "jane@example.org" "2026"), false⟩ :: others } ∧
          GivesAuthors (authorsLine "Jane\tDoe" "jane@example.org") "Jane\tDoe" "jane@example.org" := by
  have hdir : ∀ dir ∈ (none : Option Path), dir.isAbsolute = true := nofun
  have hmem : runner ∈ all := List.mem_cons_self
  obtain ⟨ctx, others, hctx, hrender, hgives⟩ :=
    exists_render_authors helloApp "Jane\tDoe" "jane@example.org" 2026 hdir hmem (.ofString "hello")
  exact ⟨hdir, hmem, ctx, others, hctx, hrender, hgives.mpr (by decide)⟩

theorem not_givesAuthors_of_quote
    : ¬∀ (app : AppName) (author email : String) (year : Int), ∀ t ∈ all, ∀ root,
        ∃ others, t.render (.ofProject app author email year) root = .ok {
            root
            files := ⟨.ofString "Cargo.toml",
              unlines (manifestLines app.text app.lowercase author email (toString year)), false⟩ ::
              others } ∧
          GivesAuthors (authorsLine author email) author email := by
  intro h
  obtain ⟨_, _, hgives⟩ :=
    h helloApp "Jane \"JD\" Doe" "jane@example.org" 2026 runner List.mem_cons_self (.ofString "hello")
  rw [givesAuthors_authorsLine_iff] at hgives
  exact absurd hgives.1 (by decide)

end Builtin

end RunnerKit
