import Mathlib.Data.List.Forall2
import Mathlib.Data.List.Induction
import RunnerKit.Proofs.CommandLine.Reading
/-!
This module contains what the variable `NO_COLOR` does to a command line that is understood without
it. Its value is read like a flag's at every place that does not have the flag itself.
-/

namespace RunnerKit

def Invocation.withoutColour (inv : Invocation) : Invocation :=
  { inv with globals := { inv.globals with noColour := true } }

theorem Invocation.eq_withoutColour_iff {inv : Invocation}
    : inv = inv.withoutColour ↔ inv.globals.noColour = true := by
  constructor
  . intro h
    rw [h, withoutColour]
  . intro h
    obtain ⟨⟨verbose, quiet, noColour, config?, outputFormat⟩, command⟩ := inv
    cases h
    rfl

namespace CommandLine

def Key.IsFlag (key : Key) : Prop := key = .quiet ∨ key = .noColour

theorem Key.isFlag_quiet : Key.quiet.IsFlag := Or.inl rfl

theorem Key.isFlag_noColour : Key.noColour.IsFlag := Or.inr rfl

theorem Place.not_isFlag_of_positional? {place : Place} {p : Parameter}
    (h : place.positional? = some p) : ¬p.key.IsFlag := by
  cases place <;> cases h <;> simp [Key.IsFlag]

theorem Parameter.Offered.takes_eq_nothing {p : Parameter} (h : p.Offered) (hflag : p.key.IsFlag)
    : p.takes = .nothing := by
  have hoptions : ∀ place : Place, ∀ option ∈ place.options,
      ∀ p, option.2.2 = .parameter p → p.key.IsFlag → p.takes = .nothing := by
    intro place
    cases place <;>
      simp [Place.options, Place.ownOptions, Place.sharedOptions, Key.IsFlag]
  obtain ⟨place, ⟨long, short, hmem⟩ | hpositional⟩ := h
  . exact hoptions place _ hmem p rfl hflag
  . exact absurd hflag (Place.not_isFlag_of_positional? hpositional)

namespace Given

variable {g g' : Given} {key other : Key}

structure SameBut (key : Key) (g g' : Given) : Prop where
  place_eq : g'.place = g.place
  get?_eq : ∀ other, other ≠ key → g'.get? other = g.get? other

theorem sameBut_refl (key : Key) (g : Given) : g.SameBut key g := ⟨rfl, fun _ _ => rfl⟩

theorem sameBut_withVariable (g : Given) (v : String)
    : g.SameBut .noColour (g.withVariable v) := by
  unfold withVariable
  split
  . exact sameBut_refl .noColour g
  . refine ⟨rfl, ?_⟩
    intro key hkey
    rw [get?_put, if_neg hkey]

namespace SameBut

theorem has_eq (h : g.SameBut key g') (hother : other ≠ key) : g'.has other = g.has other := by
  rw [has, has, h.get?_eq other hother]

theorem has_positional_eq (h : g.SameBut key g') (hflag : key.IsFlag) {p : Parameter}
    (hp : g.place.positional? = some p) : g'.has p.key = g.has p.key := by
  apply h.has_eq
  rintro rfl
  exact Place.not_isFlag_of_positional? hp hflag

theorem check_eq_ok (h : g.SameBut .noColour g') {hasChild : Bool}
    (hcheck : g.check hasChild = .ok ()) : g'.check hasChild = .ok () := by
  unfold check at hcheck ⊢
  rw [h.place_eq, h.has_eq (by decide), h.has_eq (by decide)]
  split at hcheck
  . cases hcheck
  . next hchild =>
    rw [if_neg hchild]
    split at hcheck
    . cases hcheck
    . next hconflict =>
      rw [if_neg hconflict]
      cases hp : g.place.positional? with
      | none => rfl
      | some p =>
        rw [hp] at hcheck
        simpa only [Option.any_some, h.has_positional_eq Key.isFlag_noColour hp] using hcheck

theorem command?_eq (h : g.SameBut key g') (hflag : key.IsFlag) : command? g' = command? g := by
  obtain rfl | rfl := hflag <;> simp [command?, h.place_eq, h.get?_eq]

end SameBut

def Spoken (key : Key) (g : Given) : Prop :=
  ∀ source value, g.get? key = some (source, value) → source = .words ∧ value = .on true

theorem Spoken.get?_withVariable (h : g.Spoken .noColour) (v : String)
    : (g.withVariable v).get? .noColour =
      some (if g.has .noColour then (.words, .on true) else (.environment, .on (v == "true"))) := by
  unfold withVariable
  split
  . next hhas =>
    obtain ⟨⟨source, value⟩, hget⟩ := Option.isSome_iff_exists.mp hhas
    obtain ⟨rfl, rfl⟩ := h source value hget
    exact hget
  . rw [get?_put, if_pos rfl]

end Given

theorem Given.Spoken.take {g g' : Given} {key : Key} (hflag : key.IsFlag) {p : Parameter}
    {text? : Option String} (hp : p.Offered) (htake : g.take p text? = .ok g') (hg : g.Spoken key)
    : g'.Spoken key := by
  obtain ⟨value, rfl, hvalue⟩ := exists_put_of_take htake
  intro source found hget
  rw [get?_put] at hget
  split at hget
  . next hkey =>
    subst hkey
    cases hget
    exact ⟨rfl, hvalue (hp.takes_eq_nothing hflag)⟩
  . exact hg source found hget

theorem spoken_of_read {key : Key} (hflag : key.IsFlag) {noColour? : Option String}
    (hspoken : noColour? = none ∨ key ≠ .noColour) {place : Place} {words : List String}
    {levels : List Given} (h : read noColour? (.start place) words = .ok levels)
    : ∀ g ∈ levels, g.Spoken key := by
  refine forall_of_read (.take hflag) ?_ (fun _ _ _ hget => by cases hget) h
  intro g g' hvariable hg
  cases hspoken with
  | inl hnone =>
    subst hnone
    cases hvariable
    exact hg
  | inr hkey =>
    rwa [Given.Spoken, Given.get?_of_readVariable hvariable hkey]

theorem Reading.finish_some {r : Reading} {hasChild : Bool} {g : Given}
    (h : r.finish none hasChild = .ok g) (v : String)
    : r.finish (some v) hasChild =
      if g.Admits v then .ok (g.withVariable v) else .error .invalidValue := by
  obtain ⟨settled, hsettle, hgiven, hcheck⟩ := finish_eq_ok_iff.mp h
  cases hgiven
  by_cases hadmits : settled.given.Admits v
  . rw [if_pos hadmits, finish_eq_ok_iff]
    exact ⟨settled, hsettle, if_pos hadmits,
      (settled.given.sameBut_withVariable v).check_eq_ok hcheck⟩
  . have hvariable : settled.given.readVariable (some v) = .error .invalidValue := if_neg hadmits
    rw [if_neg hadmits, finish_eq, hsettle]
    show (settled.given.readVariable (some v) >>= _) = _
    rw [hvariable]
    rfl

theorem read_some {r : Reading} {words : List String} {levels : List Given}
    (h : read none r words = .ok levels) (v : String)
    : read (some v) r words =
      if ∀ g ∈ levels, g.Admits v then .ok (levels.map (·.withVariable v))
      else .error .invalidValue := by
  -- The value is looked at when a place is left. It is refused if a single one neither takes it nor
  -- has the flag itself.
  induction words generalizing r levels with
  | nil =>
    obtain ⟨given, hfinish, rfl⟩ := map_eq_ok_iff.mp h
    rw [read, Reading.finish_some hfinish]
    simp only [List.forall_mem_singleton, List.map_singleton]
    split <;> rfl
  | cons word words ih =>
    rw [Reading.read_cons] at h ⊢
    split at h
    . cases h
    next hhelp =>
    rw [if_neg hhelp]
    cases hplace : r.leadsTo? word with
    | some place =>
      rw [hplace, bind_eq_ok_iff] at h
      obtain ⟨below, hbelow, h⟩ := h
      rw [bind_eq_ok_iff] at h
      obtain ⟨given, hfinish, h⟩ := h
      cases h
      simp only [ih hbelow, Reading.finish_some hfinish, List.forall_mem_cons]
      -- The places below are looked at first, but the fault is the same wherever it is found.
      by_cases hbelow : ∀ g ∈ below, g.Admits v
      . by_cases hgiven : given.Admits v
        . simp only [if_pos hbelow, if_pos hgiven, if_pos (And.intro hgiven hbelow)]
          rfl
        . simp only [if_pos hbelow, if_neg hgiven, if_neg fun h => hgiven (And.left h)]
          rfl
      . simp only [if_neg hbelow, if_neg fun h => hbelow (And.right h)]
        rfl
    | none =>
      rw [hplace, bind_eq_ok_iff] at h
      obtain ⟨taken, htaken, h⟩ := h
      simp only [htaken]
      exact ih h

theorem shared?_eq (levels : List Given) (key : Key)
    : shared? levels key =
      let found := levels.filterMap (·.get? key)
      ((found.filter (·.1 = .words)).getLast?.or found.getLast?).map (·.2) := by
  unfold shared?
  congr 1
  induction levels using List.reverseRecOn with
  | nil => rfl
  | append_singleton levels g ih =>
    rw [List.foldl_append, List.foldl_cons, List.foldl_nil, ih]
    simp only [List.filterMap_append, List.filterMap_cons, List.filterMap_nil, shared?.outranked]
    generalize levels.filterMap (·.get? key) = found
    rcases g.get? key with _ | ⟨_ | _, value⟩
    . simp
    . cases hwords : (found.filter (·.1 = .words)).getLast? with
      | none =>
        have hnone := List.filter_eq_nil_iff.mp (List.getLast?_eq_none_iff.mp hwords)
        rcases hlast : found.getLast? with _ | ⟨_ | _, last⟩
        . simp [hwords]
        . simp [hwords]
        . exact absurd (decide_eq_true rfl) (hnone _ (List.mem_of_getLast? hlast))
      | some best =>
        have hsource : best.1 = .words := by
          simpa using (List.mem_filter.mp (List.mem_of_getLast? hwords)).2
        obtain ⟨_, value⟩ := best
        cases hsource
        simp [hwords]
    . simp

theorem exists_shared?_of_words {levels : List Given} {key : Key} {g : Given} {value : Value}
    (hg : g ∈ levels) (hget : g.get? key = some (.words, value))
    : ∃ g' ∈ levels, ∃ value', g'.get? key = some (.words, value') ∧
        shared? levels key = some value' := by
  have hfound : (.words, value) ∈
      (levels.filterMap (·.get? key)).filter (·.1 = .words) := by
    rw [List.mem_filter, List.mem_filterMap]
    exact ⟨⟨g, hg, hget⟩, decide_eq_true rfl⟩
  cases hlast : ((levels.filterMap (·.get? key)).filter (·.1 = .words)).getLast? with
  | none =>
    rw [List.getLast?_eq_none_iff.mp hlast] at hfound
    cases hfound
  | some best =>
    obtain ⟨hbest, hsource⟩ := List.mem_filter.mp (List.mem_of_getLast? hlast)
    obtain ⟨g', hg', hget'⟩ := List.mem_filterMap.mp hbest
    obtain ⟨_, value'⟩ := best
    cases of_decide_eq_true hsource
    refine ⟨g', hg', value', hget', ?_⟩
    simp only [shared?_eq, hlast, Option.some_or, Option.map_some]

theorem exists_get?_of_shared? {levels : List Given} {key : Key} {value : Value}
    (h : shared? levels key = some value)
    : ∃ g ∈ levels, ∃ source, g.get? key = some (source, value) := by
  rw [shared?_eq] at h
  obtain ⟨found, hfound, rfl⟩ := Option.map_eq_some_iff.mp h
  have hmem : found ∈ levels.filterMap (·.get? key) := by
    rcases Option.or_eq_some_iff.mp hfound with hlast | ⟨_, hlast⟩
    . exact (List.mem_filter.mp (List.mem_of_getLast? hlast)).1
    . exact List.mem_of_getLast? hlast
  obtain ⟨g, hg, hget⟩ := List.mem_filterMap.mp hmem
  exact ⟨g, hg, found.1, hget⟩

theorem isSome_shared?_of_get? {levels : List Given} {key : Key} {g : Given}
    {found : Source × Value} (hg : g ∈ levels) (hget : g.get? key = some found)
    : (shared? levels key).isSome := by
  have hmem : found ∈ levels.filterMap (·.get? key) := List.mem_filterMap.mpr ⟨g, hg, hget⟩
  rw [shared?_eq, Option.isSome_map, Option.isSome_or, Bool.or_eq_true]
  exact Or.inr (List.getLast?_isSome.mpr (List.ne_nil_of_mem hmem))

theorem parse_eq_ok_iff {noColour? : Option String} {words : List String} {inv : Invocation}
    : parse noColour? words = .ok inv ↔ ∃ levels, read noColour? (.start .root) words = .ok levels ∧
      globals levels = inv.globals ∧ levels.getLast?.bind command? = some inv.command := by
  unfold parse
  rw [bind_eq_ok_iff]
  apply exists_congr
  intro levels
  apply and_congr_right
  intro _
  cases levels.getLast?.bind command? with
  | none => simp
  | some command =>
    constructor
    . intro h
      cases h
      exact ⟨rfl, rfl⟩
    . rintro ⟨hglobals, hcommand⟩
      cases hcommand
      simp only [hglobals]
      rfl

section

variable {levels levels' : List Given} {key : Key}
  (h : List.Forall₂ (Given.SameBut key) levels levels')
include h

theorem shared?_eq_of_sameBut {other : Key} (hother : other ≠ key)
    : shared? levels' other = shared? levels other := by
  have hfound : levels'.filterMap (·.get? other) = levels.filterMap (·.get? other) := by
    induction h with
    | nil => rfl
    | cons hsame _ ih =>
      rw [List.filterMap_cons, List.filterMap_cons, hsame.get?_eq other hother, ih]
  rw [shared?_eq, shared?_eq, hfound]

theorem command?_eq_of_sameBut (hflag : key.IsFlag)
    : levels'.getLast?.bind command? = levels.getLast?.bind command? := by
  have hlast (levels : List Given)
      : levels.getLast?.bind command? = (levels.map command?).getLast?.join := by
    rw [List.getLast?_map]
    cases levels.getLast? <;> rfl
  have hcommands : levels'.map command? = levels.map command? := by
    induction h with
    | nil => rfl
    | cons hsame _ ih => rw [List.map_cons, List.map_cons, hsame.command?_eq hflag, ih]
  rw [hlast, hlast, hcommands]

theorem parse_eq_of_sameBut (hflag : key.IsFlag) {noColour? noColour'? : Option String}
    {words words' : List String} {inv : Invocation}
    (hread : read noColour? (.start .root) words = .ok levels)
    (hparse : parse noColour? words = .ok inv)
    (hread' : read noColour'? (.start .root) words' = .ok levels')
    : parse noColour'? words' = .ok { inv with globals := globals levels' } := by
  obtain ⟨_, hlevels, _, hcommand⟩ := parse_eq_ok_iff.mp hparse
  cases hread.symm.trans hlevels
  rw [parse_eq_ok_iff]
  refine ⟨levels', hread', rfl, ?_⟩
  rw [command?_eq_of_sameBut h hflag, hcommand]

end

section

variable {levels levels' : List Given}

theorem globals_eq_of_sameBut_noColour (h : List.Forall₂ (Given.SameBut .noColour) levels levels')
    : globals levels' = { globals levels with noColour := (globals levels').noColour } := by
  have hshared (key : Key) (hkey : key ≠ .noColour) := shared?_eq_of_sameBut h hkey
  simp only [globals, hshared, ne_eq, reduceCtorEq, not_false_eq_true]

theorem globals_eq_of_sameBut_quiet (h : List.Forall₂ (Given.SameBut .quiet) levels levels')
    : globals levels' = { globals levels with quiet := (globals levels').quiet } := by
  have hshared (key : Key) (hkey : key ≠ .quiet) := shared?_eq_of_sameBut h hkey
  simp only [globals, hshared, ne_eq, reduceCtorEq, not_false_eq_true]

end

theorem any_isOn_shared? {levels : List Given} {key : Key} (hspoken : ∀ g ∈ levels, g.Spoken key)
    : (shared? levels key).any Value.isOn = levels.any (·.has key) := by
  -- The flag is never given another value than the one that turns it on, so it does not matter
  -- which place is asked.
  cases hshared : shared? levels key with
  | none =>
    symm
    rw [Option.any_none, List.any_eq_false]
    intro g hg hhas
    obtain ⟨found, hget⟩ := Option.isSome_iff_exists.mp hhas
    simpa [hshared] using isSome_shared?_of_get? hg hget
  | some value =>
    obtain ⟨g, hg, source, hget⟩ := exists_get?_of_shared? hshared
    obtain ⟨_, rfl⟩ := hspoken g hg source value hget
    symm
    rw [Option.any_some, Value.isOn, List.any_eq_true]
    exact ⟨g, hg, Option.isSome_of_mem hget⟩

theorem noColour_globals {levels : List Given} (hspoken : ∀ g ∈ levels, g.Spoken .noColour)
    : (globals levels).noColour = levels.any (·.has .noColour) := any_isOn_shared? hspoken

theorem quiet_globals {levels : List Given} (hspoken : ∀ g ∈ levels, g.Spoken .quiet)
    : (globals levels).quiet = levels.any (·.has .quiet) := any_isOn_shared? hspoken

theorem noColour_globals_withVariable {levels : List Given}
    (hspoken : ∀ g ∈ levels, g.Spoken .noColour)
    (hne : levels ≠ []) (v : String)
    : (globals (levels.map (·.withVariable v))).noColour =
      (levels.any (·.has .noColour) || v == "true") := by
  show (shared? _ .noColour).any Value.isOn = _
  cases hflag : levels.any (·.has .noColour) with
  | true =>
    obtain ⟨g, hg, hhas⟩ := List.any_eq_true.mp hflag
    have hget := (hspoken g hg).get?_withVariable v
    rw [if_pos hhas] at hget
    have hmem : g.withVariable v ∈ levels.map (·.withVariable v) := List.mem_map_of_mem hg
    obtain ⟨_, hmem', value, hvalue, hshared⟩ := exists_shared?_of_words hmem hget
    obtain ⟨g', hg', rfl⟩ := List.mem_map.mp hmem'
    rw [(hspoken g' hg').get?_withVariable v] at hvalue
    rw [hshared, Option.any_some, Bool.true_or]
    split at hvalue
    . cases hvalue
      rfl
    . cases hvalue
  | false =>
    obtain ⟨first, hfirst⟩ := List.exists_mem_of_ne_nil levels hne
    have hmem : first.withVariable v ∈ levels.map (·.withVariable v) := List.mem_map_of_mem hfirst
    obtain ⟨value, hshared⟩ := Option.isSome_iff_exists.mp
      (isSome_shared?_of_get? hmem ((hspoken first hfirst).get?_withVariable v))
    obtain ⟨_, hmem', source, hvalue⟩ := exists_get?_of_shared? hshared
    obtain ⟨g, hg, rfl⟩ := List.mem_map.mp hmem'
    rw [(hspoken g hg).get?_withVariable v, if_neg (List.any_eq_false.mp hflag g hg)] at hvalue
    cases hvalue
    rw [hshared, Option.any_some, Value.isOn, Bool.false_or]

def flaggedThroughout (words : List String) : Bool :=
  match read none (.start .root) words with
  | .ok levels => levels.all (·.has .noColour)
  | .error _ => false

theorem flaggedThroughout_iff {words : List String} {levels : List Given}
    (hread : read none (.start .root) words = .ok levels)
    : flaggedThroughout words = true ↔ ∀ g ∈ levels, g.has .noColour := by
  rw [flaggedThroughout, hread, List.all_eq_true]

theorem ne_nil_of_command? {levels : List Given} {command : Command}
    (h : levels.getLast?.bind command? = some command) : levels ≠ [] := by
  rintro rfl
  cases h

theorem noColour_of_flaggedThroughout {words : List String} {inv : Invocation}
    (hflagged : flaggedThroughout words) (hparse : parse none words = .ok inv)
    : inv.globals.noColour = true := by
  obtain ⟨levels, hread, hglobals, hcommand⟩ := parse_eq_ok_iff.mp hparse
  obtain ⟨first, hfirst⟩ := List.exists_mem_of_ne_nil levels (ne_nil_of_command? hcommand)
  rw [← hglobals, noColour_globals (spoken_of_read Key.isFlag_noColour (Or.inl rfl) hread),
    List.any_eq_true]
  exact ⟨first, hfirst, (flaggedThroughout_iff hread).mp hflagged first hfirst⟩

theorem forall_admits_iff {words : List String} {levels : List Given}
    (hread : read none (.start .root) words = .ok levels) (v : String)
    : (∀ g ∈ levels, g.Admits v) ↔ v = "true" ∨ v = "false" ∨ flaggedThroughout words := by
  rw [flaggedThroughout_iff hread]
  constructor
  . intro hadmits
    by_cases hflag : v = "true" ∨ v = "false"
    . exact hflag.elim Or.inl (Or.inr ∘ Or.inl)
    . exact Or.inr (Or.inr fun g hg => (hadmits g hg).resolve_right hflag)
  . rintro (htrue | hfalse | hflagged) g hg
    . exact Or.inr (Or.inl htrue)
    . exact Or.inr (Or.inr hfalse)
    . exact Or.inl (hflagged g hg)

theorem parse_some {words : List String} {inv : Invocation} (h : parse none words = .ok inv)
    (v : String)
    : parse (some v) words =
      if v = "true" then .ok inv.withoutColour
      else if v = "false" ∨ flaggedThroughout words then .ok inv
      else .error .invalidValue := by
  obtain ⟨levels, hread, hglobals, hcommand⟩ := parse_eq_ok_iff.mp h
  have hspoken := spoken_of_read Key.isFlag_noColour (Or.inl rfl) hread
  have hne := ne_nil_of_command? hcommand
  by_cases hadmits : ∀ g ∈ levels, g.Admits v
  . have hsame : List.Forall₂ (Given.SameBut .noColour) levels (levels.map (·.withVariable v)) := by
      rw [List.forall₂_map_right_iff, List.forall₂_same]
      exact fun g _ => g.sameBut_withVariable v
    have hread' : read (some v) (.start .root) words = .ok (levels.map (·.withVariable v)) := by
      rw [read_some hread, if_pos hadmits]
    have hparse := parse_eq_of_sameBut hsame Key.isFlag_noColour hread h hread'
    rw [globals_eq_of_sameBut_noColour hsame, noColour_globals_withVariable hspoken hne,
      ← noColour_globals hspoken, hglobals] at hparse
    rw [hparse]
    rw [forall_admits_iff hread] at hadmits
    by_cases htrue : v = "true"
    . simp only [htrue, beq_self_eq_true, Bool.or_true, if_true]
      rfl
    . rw [if_neg htrue, if_pos (hadmits.resolve_left htrue), beq_false_of_ne htrue, Bool.or_false]
  . have hrefused := hadmits
    rw [forall_admits_iff hread, not_or] at hrefused
    rw [if_neg hrefused.1, if_neg hrefused.2, parse, read_some hread, if_neg hadmits]
    rfl

theorem parse_some_eq_withoutColour_iff {words : List String} {inv : Invocation} {v : String}
    (hparse : parse none words = .ok inv)
    : parse (some v) words = .ok inv.withoutColour ↔
      v = "true" ∨ inv.globals.noColour = true ∧ (v = "false" ∨ flaggedThroughout words) := by
  rw [parse_some hparse]
  by_cases htrue : v = "true"
  . simp [htrue]
  by_cases hnothing : v = "false" ∨ flaggedThroughout words
  . simp [htrue, hnothing, Invocation.eq_withoutColour_iff]
  . simp [htrue, hnothing]

theorem not_parse_some_eq_withoutColour
    : ¬∀ (words : List String) (inv : Invocation) (v : String), v ≠ "" →
        parse none words = .ok inv → parse (some v) words = .ok inv.withoutColour := by
  intro h
  have hparse : parse none ["list"] = .ok ⟨{}, .list none⟩ := by
    rfl
  have hrefused : parse (some "1") ["list"] = .error .invalidValue := by
    rfl
  have hhonoured := h ["list"] ⟨{}, .list none⟩ "1" (by decide) hparse
  rw [hrefused] at hhonoured
  cases hhonoured

end CommandLine

end RunnerKit
