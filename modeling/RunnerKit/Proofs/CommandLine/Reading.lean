import Mathlib.Data.Bool.Basic
import RunnerKit.CommandLine.Parser
import RunnerKit.Proofs.Project.Render
/-!
This module contains what the reading of a command line keeps. A property of the arguments of a place
that is kept by every argument that a place takes holds of all arguments that are read.
-/

namespace RunnerKit.CommandLine

theorem map_eq_ok_iff {ε α β : Type} {x : Except ε α} {f : α → β} {b : β}
    : x.map f = .ok b ↔ ∃ a, x = .ok a ∧ f a = b := by
  cases x <;> simp [Except.map]

def Parameter.Offered (p : Parameter) : Prop :=
  ∃ place : Place,
    (∃ long short, (long, short, Switch.parameter p) ∈ place.options) ∨ place.positional? = some p

namespace Place

variable {place : Place} {p : Parameter}

theorem offered_of_long? {name : String} (h : place.long? name = some (.parameter p))
    : p.Offered := by
  unfold long? at h
  rw [Option.map_eq_some_iff] at h
  obtain ⟨⟨long, short, _⟩, hfind, rfl⟩ := h
  exact ⟨place, Or.inl ⟨long, short, List.mem_of_find?_eq_some hfind⟩⟩

theorem offered_of_short? {name : Char} (h : place.short? name = some (.parameter p))
    : p.Offered := by
  unfold short? at h
  rw [Option.map_eq_some_iff] at h
  obtain ⟨⟨long, short, _⟩, hfind, rfl⟩ := h
  exact ⟨place, Or.inl ⟨long, short, List.mem_of_find?_eq_some hfind⟩⟩

theorem offered_of_positional? (h : place.positional? = some p) : p.Offered :=
  ⟨place, Or.inr h⟩

end Place

namespace Given

variable {g g' : Given}

theorem get?_put (g : Given) (key : Key) (source : Source) (value : Value) (other : Key)
    : (g.put key source value).get? other =
      if other = key then some (source, value) else g.get? other := by
  have hothers : other ≠ key →
      (g.arguments.filter (·.1 ≠ key)).lookup other = g.arguments.lookup other := by
    intro h
    induction g.arguments with
    | nil => rfl
    | cons argument arguments ih =>
      obtain ⟨first, given⟩ := argument
      by_cases hfirst : first = key
      . rw [List.filter_cons_of_neg (by simp [hfirst]), ih, List.lookup_cons, hfirst,
          beq_false_of_ne h]
      . rw [List.filter_cons_of_pos (by simp [hfirst]), List.lookup_cons, ih, List.lookup_cons]
  unfold get? put
  rw [List.lookup_cons]
  by_cases h : other = key
  . simp [h]
  . rw [beq_false_of_ne h, if_neg h]
    exact hothers h

theorem exists_put_of_take {p : Parameter} {text? : Option String} (h : g.take p text? = .ok g')
    : ∃ value, g' = g.put p.key .words value ∧ (p.takes = .nothing → value = .on true) := by
  unfold take at h
  split at h
  . split at h
    . cases h
    . cases h
      exact ⟨_, rfl, fun _ => rfl⟩
  . next htakes =>
    cases h
    refine ⟨_, rfl, ?_⟩
    simp [htakes]
  . cases h
  . next htakes =>
    split at h
    . cases h
    . obtain ⟨value, _, rfl⟩ := map_eq_ok_iff.mp h
      refine ⟨value, rfl, ?_⟩
      simp [htakes]

/--
Whether a value of the variable can be taken at a place. It is looked at if the place has no
`--no-color`.
-/
def Admits (g : Given) (v : String) : Prop := g.has .noColour ∨ v = "true" ∨ v = "false"

instance (g : Given) (v : String) : Decidable (g.Admits v) := by
  unfold Admits
  infer_instance

def withVariable (g : Given) (v : String) : Given :=
  if g.has .noColour then g else g.put .noColour .environment (.on (v == "true"))

def readVariable (g : Given) : Option String → Except UsageFault Given
  | none => .ok g
  | some v => if g.Admits v then .ok (g.withVariable v) else .error .invalidValue

theorem get?_of_readVariable {noColour? : Option String} (h : g.readVariable noColour? = .ok g')
    {key : Key} (hkey : key ≠ .noColour) : g'.get? key = g.get? key := by
  unfold readVariable withVariable at h
  split at h
  . cases h
    rfl
  . split at h
    . cases h
      split
      . rfl
      . rw [get?_put, if_neg hkey]
    . cases h

def check (g : Given) (hasChild : Bool) : Except UsageFault Unit :=
  if g.place.needsChild ∧ !hasChild then
    .error (if g.arguments.isEmpty then .missingHelp else .missingCommand)
  else if g.has .quiet ∧ g.has .verbose then .error .conflict
  else if g.place.positional?.any fun p => !g.has p.key then .error .missingArgument
  else .ok ()

end Given

namespace Reading

theorem finish_eq (r : Reading) (noColour? : Option String) (hasChild : Bool)
    : r.finish noColour? hasChild = (do
      let settled ← r.settle
      let given ← settled.given.readVariable noColour?
      given.check hasChild
      return given) := by
  unfold Reading.finish
  congr 1
  funext settled
  extract_lets jp
  have hjp : jp = fun given => do given.check hasChild; return given := by
    funext given
    unfold jp Given.check
    by_cases hchild : given.place.needsChild = true ∧ (!hasChild) = true
    . simp only [if_pos hchild]
      rfl
    by_cases hconflict : given.has .quiet = true ∧ given.has .verbose = true
    . simp only [if_neg hchild, if_pos hconflict]
      rfl
    simp only [if_neg hchild, if_neg hconflict]
    cases given.place.positional? with
    | none => rfl
    | some p => cases hp : given.has p.key <;> simp [hp] <;> rfl
  rw [hjp]
  unfold Given.readVariable Given.Admits Given.withVariable
  cases noColour? with
  | none => rfl
  | some v =>
    split
    . next heq hhas =>
      cases heq
      simp only [hhas]
      rfl
    . next heq hhas =>
      cases heq
      simp only [hhas]
      rfl
    . next htrue hfalse heq hhas =>
      cases heq
      have hnot : ¬(v = "true" ∨ v = "false") := not_or.mpr ⟨htrue, hfalse⟩
      simp only [hhas, Bool.false_eq_true, false_or, if_neg hnot]
      rfl
    . next hnot =>
      have hhas : settled.given.has .noColour = true := Bool.eq_true_of_not_eq_false (hnot v rfl)
      simp only [hhas, true_or, if_true]
      rfl

theorem finish_eq_ok_iff {r : Reading} {noColour? : Option String} {hasChild : Bool} {g : Given}
    : r.finish noColour? hasChild = .ok g ↔ ∃ settled, r.settle = .ok settled ∧
      settled.given.readVariable noColour? = .ok g ∧ g.check hasChild = .ok () := by
  rw [finish_eq]
  simp only [bind_eq_ok_iff]
  constructor
  . rintro ⟨settled, hsettle, given, hvariable, _, hcheck, heq⟩
    cases heq
    exact ⟨settled, hsettle, hvariable, hcheck⟩
  . rintro ⟨settled, hsettle, hvariable, hcheck⟩
    exact ⟨settled, hsettle, g, hvariable, (), hcheck, rfl⟩

def takeWord (r : Reading) (word : String) : Except UsageFault Reading :=
  if r.trailing then r.takePlain word
  else match word.toList with
    | ['-', '-'] => .ok { r with trailing := true }
    | '-' :: '-' :: body => r.takeLong body
    | '-' :: c :: cluster => r.takeShort (c :: cluster)
    | _ => r.takePlain word

def AsksHelp (r : Reading) (word : String) : Prop :=
  r.trailing = false ∧ r.awaiting = false ∧ r.place.needsChild ∧ word = "help"

instance (r : Reading) (word : String) : Decidable (r.AsksHelp word) := by
  unfold AsksHelp
  infer_instance

def leadsTo? (r : Reading) (word : String) : Option Place :=
  if r.trailing || r.awaiting then none else r.place.child? word

theorem read_cons (noColour? : Option String) (r : Reading) (word : String) (words : List String)
    : read noColour? r (word :: words) =
      if r.AsksHelp word then .error (helpFault r.place words)
      else match r.leadsTo? word with
        | some place => do
          let below ← read noColour? (.start place) words
          let given ← r.finish noColour? true
          return given :: below
        | none => r.takeWord word >>= (read noColour? · words) := by
  by_cases htrailing : r.trailing = true
  . have hhelp : ¬r.AsksHelp word := fun h => Bool.eq_false_iff.mp h.1 htrailing
    rw [read, if_pos htrailing, if_neg hhelp]
    simp only [leadsTo?, takeWord, htrailing, Bool.true_or, if_true]
  rw [read, if_neg htrailing]
  rw [Bool.not_eq_true] at htrailing
  have hhelp : r.AsksHelp word ↔ !r.awaiting ∧ r.place.needsChild ∧ word = "help" := by
    simp [AsksHelp, htrailing]
  simp only [hhelp, leadsTo?, takeWord, htrailing, Bool.false_or, Bool.false_eq_true, if_false]
  congr 1
  cases (if r.awaiting = true then none else r.place.child? word : Option Place) with
  | some place => rfl
  | none =>
    simp only
    generalize word.toList = cs
    rcases cs with _ | ⟨c, _ | ⟨d, body⟩⟩
    . rfl
    . by_cases hc : c = '-' <;> simp [hc]
    . by_cases hc : c = '-'
      . by_cases hd : d = '-'
        . simp only [hc, hd]
          cases body <;> rfl
        . simp [hc, hd]
      . simp [hc]

structure Keeps (P : Given → Prop) (r : Reading) : Prop where
  given : P r.given
  pending : ∀ p text?, r.pending = some (p, text?) → p.Offered

theorem stop_ne_ok {r r' : Reading} {fault : UsageFault} : r.stop fault ≠ .ok r' := by
  unfold stop
  cases r.settle <;> simp [Except.bind]

section

variable {P : Given → Prop} {r r' : Reading} {p : Parameter}
  (htake : ∀ {g g' p text?}, p.Offered → g.take p text? = .ok g' → P g → P g')
include htake

theorem Keeps.settle (h : r.Keeps P) (hsettle : r.settle = .ok r') : r'.Keeps P := by
  unfold Reading.settle at hsettle
  split at hsettle
  . cases hsettle
    exact h
  . next p text? hpending =>
    obtain ⟨given, hgiven, rfl⟩ := map_eq_ok_iff.mp hsettle
    exact ⟨htake (h.pending p text? hpending) hgiven h.given, by simp⟩

theorem Keeps.takeNow (h : r.Keeps P) (hp : p.Offered) {text? : Option String}
    (hnow : r.takeNow p text? = .ok r') : r'.Keeps P := by
  unfold Reading.takeNow at hnow
  rw [bind_eq_ok_iff] at hnow
  obtain ⟨settled, hsettle, hnow⟩ := hnow
  rw [bind_eq_ok_iff] at hnow
  obtain ⟨given, hgiven, hnow⟩ := hnow
  cases hnow
  have hsettled := h.settle htake hsettle
  exact ⟨htake hp hgiven hsettled.given, hsettled.pending⟩

theorem Keeps.takeValue (h : r.Keeps P) (hp : p.Offered) {text? : Option String}
    (hvalue : r.takeValue p text? = .ok r') : r'.Keeps P := by
  unfold Reading.takeValue at hvalue
  split at hvalue
  . exact h.takeNow htake hp hvalue
  . obtain ⟨settled, hsettle, rfl⟩ := map_eq_ok_iff.mp hvalue
    refine ⟨(h.settle htake hsettle).given, ?_⟩
    rintro _ _ hpending
    cases hpending
    exact hp

theorem Keeps.takeLong (h : r.Keeps P) {body : List Char} (hlong : r.takeLong body = .ok r')
    : r'.Keeps P := by
  unfold Reading.takeLong at hlong
  extract_lets name attached? at hlong
  split at hlong
  . cases hlong
  . next hoption => exact h.takeValue htake (Place.offered_of_long? hoption) hlong
  . next hoption =>
    split at hlong
    . cases hlong
    . split at hlong
      . exact h.takeNow htake (Place.offered_of_long? hoption) hlong
      . exact absurd hlong stop_ne_ok
      . exact absurd hlong stop_ne_ok

theorem Keeps.takeShort (h : r.Keeps P) {cluster : List Char}
    (hshort : r.takeShort cluster = .ok r') : r'.Keeps P := by
  induction cluster generalizing r with
  | nil =>
    cases hshort
    exact h
  | cons c cluster ih =>
    unfold Reading.takeShort at hshort
    split at hshort
    . cases hshort
    . exact absurd hshort stop_ne_ok
    . exact absurd hshort stop_ne_ok
    . next hoption => exact h.takeValue htake (Place.offered_of_short? hoption) hshort
    . next hoption =>
      rw [bind_eq_ok_iff] at hshort
      obtain ⟨taken, htaken, hrest⟩ := hshort
      exact ih (h.takeNow htake (Place.offered_of_short? hoption) htaken) hrest

theorem Keeps.takePlain (h : r.Keeps P) {word : String} (hplain : r.takePlain word = .ok r')
    : r'.Keeps P := by
  unfold Reading.takePlain at hplain
  split at hplain
  . cases hplain
    refine ⟨h.given, ?_⟩
    intro p text? hpending
    obtain ⟨⟨q, old?⟩, hold, heq⟩ := Option.map_eq_some_iff.mp hpending
    cases heq
    exact h.pending _ old? hold
  . split at hplain
    . next hpositional =>
      split at hplain
      . obtain ⟨settled, hsettle, rfl⟩ := map_eq_ok_iff.mp hplain
        refine ⟨(h.settle htake hsettle).given, ?_⟩
        intro p text? hpending
        cases hpending
        exact Place.offered_of_positional? hpositional
      . cases hplain
    . split at hplain <;> cases hplain

theorem Keeps.takeWord (h : r.Keeps P) {word : String} (hword : r.takeWord word = .ok r')
    : r'.Keeps P := by
  unfold Reading.takeWord at hword
  split at hword
  . exact h.takePlain htake hword
  . split at hword
    . cases hword
      exact ⟨h.given, h.pending⟩
    . exact h.takeLong htake hword
    . exact h.takeShort htake hword
    . exact h.takePlain htake hword

variable {noColour? : Option String}
  (hvariable : ∀ {g g'}, g.readVariable noColour? = .ok g' → P g → P g')
include hvariable

theorem Keeps.finish (h : r.Keeps P) {hasChild : Bool} {g : Given}
    (hfinish : r.finish noColour? hasChild = .ok g) : P g := by
  obtain ⟨settled, hsettle, hgiven, _⟩ := finish_eq_ok_iff.mp hfinish
  exact hvariable hgiven (h.settle htake hsettle).given

theorem Keeps.read (h : r.Keeps P) {words : List String} {levels : List Given}
    (hread : read noColour? r words = .ok levels)
    : ∃ given below, levels = given :: below ∧ P given ∧
        ((∀ place, P { place }) → ∀ g ∈ below, P g) := by
  -- By induction on the words: one that leads to another place starts afresh there.
  induction words generalizing r levels with
  | nil =>
    obtain ⟨given, hfinish, rfl⟩ := map_eq_ok_iff.mp hread
    exact ⟨given, [], rfl, h.finish htake hvariable hfinish, by simp⟩
  | cons word words ih =>
    rw [read_cons] at hread
    split at hread
    . cases hread
    split at hread
    . next place _ =>
      rw [bind_eq_ok_iff] at hread
      obtain ⟨levels, hbelow, hread⟩ := hread
      rw [bind_eq_ok_iff] at hread
      obtain ⟨given, hfinish, hread⟩ := hread
      cases hread
      refine ⟨given, levels, rfl, h.finish htake hvariable hfinish, ?_⟩
      intro hstart
      obtain ⟨first, rest, rfl, hfirst, hrest⟩ := ih ⟨hstart place, by simp [start]⟩ hbelow
      exact List.forall_mem_cons.mpr ⟨hfirst, hrest hstart⟩
    . rw [bind_eq_ok_iff] at hread
      obtain ⟨taken, htaken, hread⟩ := hread
      exact ih (h.takeWord htake htaken) hread

end

end Reading

theorem forall_of_read {P : Given → Prop} {noColour? : Option String} {place : Place}
    {words : List String} {levels : List Given}
    (htake : ∀ {g g' p text?}, p.Offered → g.take p text? = .ok g' → P g → P g')
    (hvariable : ∀ {g g'}, g.readVariable noColour? = .ok g' → P g → P g')
    (hstart : ∀ place, P { place }) (hread : read noColour? (.start place) words = .ok levels)
    : ∀ g ∈ levels, P g := by
  have hkeeps : (Reading.start place).Keeps P :=
    ⟨hstart place, fun _ _ hpending => by cases hpending⟩
  obtain ⟨first, below, rfl, hfirst, hbelow⟩ := hkeeps.read htake hvariable hread
  exact List.forall_mem_cons.mpr ⟨hfirst, hbelow hstart⟩

end RunnerKit.CommandLine
