import RunnerKit.Proofs.CommandLine.Flag
/-!
This module contains what a command line is understood as with `--quiet` before all its words. It is
understood as the same, but quietly, unless it gives the flag there itself or asks for more to be
told.
-/

namespace RunnerKit

def Invocation.quietly (inv : Invocation) : Invocation :=
  { inv with globals := { inv.globals with quiet := true } }

namespace CommandLine

theorem Parameter.Offered.takes_eq_count {p : Parameter} (h : p.Offered) (hkey : p.key = .verbose)
    : p.takes = .count := by
  have hoptions : ∀ place : Place, ∀ option ∈ place.options,
      ∀ p, option.2.2 = .parameter p → p.key = .verbose → p.takes = .count := by
    intro place
    cases place <;> simp [Place.options, Place.ownOptions, Place.sharedOptions]
  obtain ⟨place, ⟨long, short, hmem⟩ | hpositional⟩ := h
  . exact hoptions place _ hmem p rfl hkey
  . cases place <;> cases hpositional <;> cases hkey

namespace Given

def Counted (g : Given) : Prop :=
  ∀ source value, g.get? .verbose = some (source, value) → ∃ n, 0 < n ∧ value = .count n

theorem Counted.take {g g' : Given} {p : Parameter} {text? : Option String} (hp : p.Offered)
    (htake : g.take p text? = .ok g') (hg : g.Counted) : g'.Counted := by
  by_cases hkey : p.key = .verbose
  . simp only [Given.take, hp.takes_eq_count hkey] at htake
    cases htake
    intro source value hget
    rw [get?_put, if_pos hkey.symm] at hget
    cases hget
    exact ⟨_, Nat.lt_min.mpr ⟨by decide, Nat.succ_pos _⟩, rfl⟩
  . obtain ⟨value, rfl, _⟩ := exists_put_of_take htake
    intro source found hget
    rw [get?_put, if_neg (Ne.symm hkey)] at hget
    exact hg source found hget

end Given

theorem not_has_verbose_of_read {noColour? : Option String} {place : Place} {words : List String}
    {levels : List Given} (hread : read noColour? (.start place) words = .ok levels)
    (hverbose : (globals levels).verbose = 0) : ∀ g ∈ levels, g.has .verbose = false := by
  -- A place that has `--verbose` counts it at least once, and then the whole command line does.
  have hcounted : ∀ g ∈ levels, g.Counted := by
    refine forall_of_read .take ?_ (fun _ _ _ hget => by cases hget) hread
    intro g g' hvariable hg
    rwa [Given.Counted, Given.get?_of_readVariable hvariable (by decide)]
  intro g hg
  rw [Bool.eq_false_iff]
  intro hhas
  obtain ⟨found, hget⟩ := Option.isSome_iff_exists.mp hhas
  obtain ⟨value, hshared⟩ := Option.isSome_iff_exists.mp (isSome_shared?_of_get? hg hget)
  obtain ⟨g', hg', source, hget'⟩ := exists_get?_of_shared? hshared
  obtain ⟨n, hn, rfl⟩ := hcounted g' hg' source value hget'
  simp only [globals, hshared, Option.bind_some, Value.count?, Option.getD_some] at hverbose
  exact absurd hverbose (Nat.ne_of_gt hn)

def quietAtFirst (noColour? : Option String) (words : List String) : Bool :=
  match read noColour? (.start .root) words with
  | .ok (g :: _) => g.has .quiet
  | _ => false

section

variable {noColour? : Option String} {words : List String}

theorem quietly_eq_of_quietAtFirst {inv : Invocation} (hfirst : quietAtFirst noColour? words)
    (hparse : parse noColour? words = .ok inv) : inv.quietly = inv := by
  obtain ⟨levels, hread, hglobals, _⟩ := parse_eq_ok_iff.mp hparse
  have hquiet : inv.globals.quiet = true := by
    rw [← hglobals, quiet_globals (spoken_of_read Key.isFlag_quiet (Or.inr (by decide)) hread),
      List.any_eq_true]
    rw [quietAtFirst, hread] at hfirst
    cases levels with
    | nil => cases hfirst
    | cons first below => exact ⟨first, List.mem_cons_self, hfirst⟩
  rw [Invocation.quietly, ← hquiet]

theorem parse_quiet {inv : Invocation} (hparse : parse noColour? words = .ok inv)
    (hverbose : inv.globals.verbose = 0) (hfirst : quietAtFirst noColour? words = false)
    : parse noColour? ("--quiet" :: words) = .ok inv.quietly := by
  obtain ⟨levels, hread, hglobals, hcommand⟩ := parse_eq_ok_iff.mp hparse
  obtain ⟨first, below, rfl⟩ := List.exists_cons_of_ne_nil (ne_nil_of_command? hcommand)
  have hspoken : noColour? = none ∨ Key.quiet ≠ .noColour := Or.inr (by decide)
  rw [← hglobals] at hverbose
  rw [quietAtFirst, hread] at hfirst
  have hplain : ¬first.Opposes .quiet := by
    simp [Given.Opposes, hfirst, not_has_verbose_of_read hread hverbose first List.mem_cons_self]
  obtain ⟨first', hread', hflagged⟩ :=
    exists_read_startWith Key.isFlag_quiet hspoken hread hplain
  rw [← read_quiet] at hread'
  have hsame := forall₂_sameBut_of_flagged below hflagged
  rw [parse_eq_of_sameBut hsame Key.isFlag_quiet hread hparse hread',
    globals_eq_of_sameBut_quiet hsame,
    quiet_globals (spoken_of_read Key.isFlag_quiet hspoken hread'),
    any_has_of_flagged below hflagged, hglobals, Invocation.quietly]

theorem akin_or_conflict_of_parse {fault : UsageFault}
    (hparse : parse noColour? words = .error fault)
    : (∃ fault', parse noColour? ("--quiet" :: words) = .error fault' ∧ fault.Akin fault') ∨
      parse noColour? ("--quiet" :: words) = .error .conflict := by
  have hmirrors : Mirrors (fun _ => True) (fun _ _ => True) (parse noColour? words)
      (parse noColour? ("--quiet" :: words)) := by
    unfold parse
    rw [read_quiet]
    have hspoken : noColour? = none ∨ Key.quiet ≠ .noColour := Or.inr (by decide)
    have hread := read_mirrors Key.isFlag_quiet hspoken (mirrored_startWith .quiet) words
    apply hread.bind
    . rintro _ _ ⟨h, below⟩
      rw [command?_eq_of_sameBut (forall₂_sameBut_of_flagged below h) Key.isFlag_quiet]
      split
      . exact .ok trivial
      . exact .fault .missingCommand
    . exact fun _ _ _ _ => trivial
  rw [hparse] at hmirrors
  generalize parse noColour? ("--quiet" :: words) = y at hmirrors ⊢
  cases hmirrors with
  | error h => exact Or.inl ⟨_, rfl, h⟩
  | conflict => exact Or.inr rfl

end

end CommandLine

end RunnerKit
