import RunnerKit.Command.Error
import RunnerKit.Proofs.Template.Lines
/-!
This module contains what the user gets to know of an error. The report says what went wrong and
gives all advice, and a user who wants to know more is told all that it comes from.
-/

namespace RunnerKit.CommandError

open Builtin (unlines)

def reportLines (configPath : Path) (verbose : Bool) (e : CommandError) : List String :=
  ["", "Error: " ++ e.message] ++ (if verbose then e.sources.map ("  Caused by: " ++ ·) else []) ++
    ["", "Suggestions:"] ++ (e.suggestions configPath).map ("  " ++ ·) ++
    (if verbose then [] else ["", "Use -v / --verbose for more details."])

theorem join_eq_unlines (mark : String) (lines : List String)
    : String.join (lines.map fun line => mark ++ line ++ "\n") =
      unlines (lines.map (mark ++ ·)) := by
  rw [unlines, List.map_map]
  rfl

theorem plain_eq_unlines (configPath : Path) (verbose : Bool) (e : CommandError)
    : e.plain configPath verbose = unlines (e.reportLines configPath verbose) := by
  have hcauses := join_eq_unlines "  Caused by: " e.sources
  have hindented := join_eq_unlines "  " (e.suggestions configPath)
  have hnone : unlines [] = "" := rfl
  have hhead : unlines ["", "Error: " ++ e.message] = "\nError: " ++ e.message ++ "\n" := by
    have hmark : "\nError: " = "\n" ++ "Error: " := by decide
    rw [Builtin.unlines_cons, Builtin.unlines_cons, hnone, hmark]
    simp only [String.append_assoc, String.append_empty, String.empty_append]
  have htitle : unlines ["", "Suggestions:"] = "\nSuggestions:\n" := by decide
  have hhint : unlines ["", "Use -v / --verbose for more details."] =
      "\nUse -v / --verbose for more details.\n" := by
    decide
  rw [plain, reportLines, indented, hindented]
  simp only [Builtin.unlines_append, hhead, htitle]
  cases verbose with
  | true => simp [hcauses, hnone]
  | false => simp [hhint, hnone, String.join]

theorem exitCode_ne_zero (e : CommandError) : e.exitCode ≠ 0 := by
  rw [exitCode]
  cases e.category <;> decide

theorem hasLine_plain (configPath : Path) (verbose : Bool) (e : CommandError)
    : let text := e.plain configPath verbose
      HasLine text ("Error: " ++ e.message) ∧
      (∀ advice ∈ e.suggestions configPath, HasLine text ("  " ++ advice)) ∧
      (verbose = true → ∀ source ∈ e.sources, HasLine text ("  Caused by: " ++ source)) := by
  intro text
  have hline {line : String} (h : line ∈ e.reportLines configPath verbose) : HasLine text line := by
    rw [show text = _ from e.plain_eq_unlines configPath verbose]
    exact Builtin.hasLine_unlines h
  refine ⟨hline (by simp [reportLines]), ?_, ?_⟩
  . intro advice hadvice
    exact hline (by simp [reportLines, hadvice])
  . intro hverbose source hsource
    exact hline (by simp [reportLines, hverbose, hsource])

theorem hasLine_plain_ofSystem (configPath : Path) (cause : String)
    : (ofSystem cause).exitCode = 1 ∧
      HasLine ((ofSystem cause).plain configPath true) ("Error: I/O error: " ++ cause) ∧
      HasLine ((ofSystem cause).plain configPath true) ("  Caused by: " ++ cause) := by
  obtain ⟨hmessage, _, hcauses⟩ := (ofSystem cause).hasLine_plain configPath true
  have hmark : "Error: I/O error: " = "Error: " ++ "I/O error: " := by decide
  rw [hmark, String.append_assoc]
  exact ⟨rfl, hmessage, hcauses rfl cause List.mem_cons_self⟩

end RunnerKit.CommandError
