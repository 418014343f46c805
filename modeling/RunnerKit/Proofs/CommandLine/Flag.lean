import RunnerKit.Proofs.CommandLine.Variable
/-!
This module contains what a command line is understood as with a flag before all its words. The two
command lines are read side by side: the flag is never looked at while the words are read, unless it
is given again.
-/

namespace RunnerKit

/--
Whether two faults are told to the user in the same way. Where nothing was asked for without a flag,
something is missing with it.
-/
def UsageFault.Akin (fault fault' : UsageFault) : Prop :=
  fault' = fault ∨ fault = .missingHelp ∧ fault' = .missingCommand

namespace CommandLine

/--
Whether a result with the flag is like the result without it. With the flag there may be a conflict
instead, but what comes of it without the flag is then one that gives it `again`.
-/
inductive Mirrors {α β : Type} (again : α → Prop) (R : α → β → Prop)
    : Except UsageFault α → Except UsageFault β → Prop where
  | ok {a : α} {b : β} (h : R a b) : Mirrors again R (.ok a) (.ok b)
  | error {fault fault' : UsageFault} (h : fault.Akin fault')
    : Mirrors again R (.error fault) (.error fault')
  | conflict {x : Except UsageFault α} (h : ∀ a, x = .ok a → again a)
    : Mirrors again R x (.error .conflict)

namespace Mirrors

variable {α β γ δ : Type} {again : α → Prop} {R : α → β → Prop} {again' : γ → Prop}
  {R' : γ → δ → Prop} {x : Except UsageFault α} {y : Except UsageFault β}

theorem fault (fault : UsageFault) : Mirrors again R (.error fault) (.error fault) :=
  .error (Or.inl rfl)

theorem bind {f : α → Except UsageFault γ} {g : β → Except UsageFault δ}
    (h : Mirrors again R x y) (hnext : ∀ a b, R a b → Mirrors again' R' (f a) (g b))
    (hagain : ∀ a c, again a → f a = .ok c → again' c)
    : Mirrors again' R' (x >>= f) (y >>= g) := by
  cases h with
  | ok h => exact hnext _ _ h
  | error h => exact .error h
  | conflict h =>
    refine .conflict fun c hc => ?_
    obtain ⟨a, ha, hnext⟩ := bind_eq_ok_iff.mp hc
    exact hagain a c (h a ha) hnext

theorem map {f : α → γ} {g : β → δ} (h : Mirrors again R x y)
    (hnext : ∀ a b, R a b → R' (f a) (g b)) (hagain : ∀ a, again a → again' (f a))
    : Mirrors again' R' (x.map f) (y.map g) := by
  cases h with
  | ok h => exact .ok (hnext _ _ h)
  | error h => exact .error h
  | conflict h =>
    refine .conflict fun c hc => ?_
    obtain ⟨a, ha, rfl⟩ := map_eq_ok_iff.mp hc
    exact hagain a (h a ha)

end Mirrors

namespace Given

variable {g g' : Given} {key : Key}

structure Flagged (key : Key) (g g' : Given) : Prop extends g.SameBut key g' where
  get?_flag : g'.get? key = some (.words, .on true)

theorem flagged_put (key : Key) (g : Given) : g.Flagged key (g.put key .words (.on true)) where
  place_eq := rfl
  get?_eq other hother := by rw [get?_put, if_neg hother]
  get?_flag := by rw [get?_put, if_pos rfl]

theorem has_put (g : Given) (key : Key) (source : Source) (value : Value) (other : Key)
    : (g.put key source value).has other = (decide (other = key) || g.has other) := by
  rw [has, get?_put]
  by_cases h : other = key <;> simp [h, has]

theorem has_of_take {p : Parameter} {text? : Option String} (htake : g.take p text? = .ok g')
    (hhas : g.has key) : g'.has key := by
  obtain ⟨value, rfl, _⟩ := exists_put_of_take htake
  rw [has_put, hhas, Bool.or_true]

theorem has_of_readVariable {noColour? : Option String} (h : g.readVariable noColour? = .ok g')
    (hhas : g.has key) : g'.has key := by
  unfold readVariable withVariable at h
  split at h
  . cases h
    exact hhas
  . split at h
    . cases h
      split
      . exact hhas
      . rw [has_put, hhas, Bool.or_true]
    . cases h

theorem exists_take_eq {p : Parameter} (hget : g'.get? p.key = g.get? p.key)
    (text? : Option String)
    : ∃ result : Except UsageFault Value, g.take p text? = result.map (g.put p.key .words ·) ∧
        g'.take p text? = result.map (g'.put p.key .words ·) := by
  have hhas : g'.has p.key = g.has p.key := by
    rw [has, has, hget]
  cases htakes : p.takes with
  | nothing =>
    simp only [take, htakes, hhas]
    split
    . exact ⟨.error .conflict, rfl, rfl⟩
    . exact ⟨.ok (.on true), rfl, rfl⟩
  | count =>
    simp only [take, htakes, hget]
    exact ⟨.ok (.count _), rfl, rfl⟩
  | value kind =>
    cases text? with
    | none =>
      simp only [take, htakes]
      exact ⟨.error .invalidValue, rfl, rfl⟩
    | some text =>
      simp only [take, htakes, hhas]
      split
      . exact ⟨.error .conflict, rfl, rfl⟩
      . exact ⟨kind.read text, rfl, rfl⟩

namespace Flagged

theorem has_flag (h : g.Flagged key g') : g'.has key = true := Option.isSome_of_mem h.get?_flag

theorem put (h : g.Flagged key g') {other : Key} (hother : other ≠ key) (source : Source)
    (value : Value) : (g.put other source value).Flagged key (g'.put other source value) where
  place_eq := h.place_eq
  get?_eq third hthird := by
    rw [get?_put, get?_put, h.get?_eq third hthird]
  get?_flag := by
    rw [get?_put, if_neg hother.symm, h.get?_flag]

theorem readVariable_mirrors (h : g.Flagged key g') {noColour? : Option String}
    (hspoken : noColour? = none ∨ key ≠ .noColour)
    : Mirrors (·.has key) (Flagged key) (g.readVariable noColour?) (g'.readVariable noColour?) := by
  cases noColour? with
  | none => exact .ok h
  | some v =>
    have hkey : key ≠ .noColour := hspoken.resolve_left (by simp)
    have hhas : g'.has .noColour = g.has .noColour := h.has_eq hkey.symm
    have hadmits : g'.Admits v ↔ g.Admits v := by
      rw [Admits, Admits, hhas]
    unfold readVariable
    by_cases hadmitted : g.Admits v
    . simp only [if_pos hadmitted, if_pos (hadmits.mpr hadmitted)]
      refine .ok ?_
      unfold withVariable
      rw [hhas]
      split
      . exact h
      . exact h.put hkey.symm _ _
    . simp only [if_neg hadmitted, if_neg (hadmits.not.mpr hadmitted)]
      exact .fault .invalidValue

variable (hflag : key.IsFlag)
include hflag

theorem take_mirrors (h : g.Flagged key g') {p : Parameter} (hp : p.Offered)
    (text? : Option String)
    : Mirrors (·.has key) (Flagged key) (g.take p text?) (g'.take p text?) := by
  by_cases hkey : p.key = key
  . have htakes : p.takes = .nothing := hp.takes_eq_nothing (hkey ▸ hflag)
    have hconflict : g'.take p text? = .error .conflict := by
      simp only [take, htakes, hkey, h.has_flag, if_true]
    rw [hconflict]
    refine .conflict fun taken htake => ?_
    obtain ⟨value, rfl, _⟩ := exists_put_of_take htake
    rw [has_put, decide_eq_true hkey.symm, Bool.true_or]
  . obtain ⟨result, hresult, hresult'⟩ := exists_take_eq (h.get?_eq p.key hkey) text?
    rw [hresult, hresult']
    cases result with
    | error fault => exact .fault fault
    | ok value => exact .ok (h.put hkey _ value)

theorem check_mirrors (h : g.Flagged key g') (hasChild : Bool)
    : Mirrors (fun _ => g.has .verbose ∧ key = .quiet) (fun _ _ => True) (g.check hasChild)
        (g'.check hasChild) := by
  -- With the flag something is given, so a help page is not what is missing. What remains is the
  -- rule that a place with `--quiet` must not have `--verbose`.
  have hnonempty : g'.arguments.isEmpty = false := by
    have hflag := h.get?_flag
    rw [get?] at hflag
    cases harguments : g'.arguments with
    | nil =>
      rw [harguments] at hflag
      cases hflag
    | cons => rfl
  have hpositional : (g.place.positional?.any fun p => !g'.has p.key) =
      g.place.positional?.any fun p => !g.has p.key := by
    cases hp : g.place.positional? with
    | none => rfl
    | some p => rw [Option.any_some, Option.any_some, h.has_positional_eq hflag hp]
  have hverbose : g'.has .verbose = g.has .verbose := by
    obtain rfl | rfl := hflag <;> exact h.has_eq (by decide)
  unfold check
  rw [h.place_eq, hpositional, hnonempty, hverbose]
  split
  . refine .error ?_
    split
    . exact Or.inr ⟨rfl, rfl⟩
    . exact Or.inl rfl
  by_cases hconflict : g'.has .quiet ∧ g.has .verbose
  . rw [if_pos hconflict]
    by_cases hkey : key = .quiet
    . exact .conflict fun _ _ => ⟨hconflict.2, hkey⟩
    . rw [← h.has_eq (Ne.symm hkey), if_pos hconflict]
      exact .fault .conflict
  . have hplain : ¬(g.has .quiet ∧ g.has .verbose) := by
      rintro ⟨hquiet, hverbose⟩
      refine hconflict ⟨?_, hverbose⟩
      by_cases hkey : key = .quiet
      . exact hkey ▸ h.has_flag
      . rwa [h.has_eq (Ne.symm hkey)]
    rw [if_neg hconflict, if_neg hplain]
    split
    . exact .fault .missingArgument
    . exact .ok trivial

end Flagged

def Opposes (key : Key) (g : Given) : Prop := g.has key ∨ g.has .verbose ∧ key = .quiet

end Given

namespace Reading

def withGiven (r : Reading) (g : Given) : Reading := { r with given := g }

inductive Mirrored (key : Key) (r : Reading) : Reading → Prop where
  | withGiven {g' : Given} (hgiven : r.given.Flagged key g')
      (hoffered : ∀ p text?, r.pending = some (p, text?) → p.Offered)
    : Mirrored key r (r.withGiven g')

section

variable {key : Key} {r r' : Reading} {p : Parameter} (h : r.Mirrored key r')
include h

theorem Mirrored.place_eq : r'.place = r.place := by
  cases h with
  | withGiven hgiven => exact hgiven.place_eq

theorem Mirrored.asksHelp_iff {word : String} : r'.AsksHelp word ↔ r.AsksHelp word := by
  rw [AsksHelp, AsksHelp, h.place_eq]
  cases h
  rfl

theorem Mirrored.leadsTo?_eq (word : String) : r'.leadsTo? word = r.leadsTo? word := by
  rw [leadsTo?, leadsTo?, h.place_eq]
  cases h
  rfl

variable (hflag : key.IsFlag)
include hflag

theorem settle_mirrors : Mirrors (Keeps (·.has key)) (Mirrored key) r.settle r'.settle := by
  cases h with
  | @withGiven g' hgiven hoffered =>
    unfold settle
    have hsame : (r.withGiven g').pending = r.pending := rfl
    cases hpending : r.pending with
    | none =>
      simp only [hsame, hpending]
      exact .ok (.withGiven hgiven hoffered)
    | some pending =>
      obtain ⟨p, text?⟩ := pending
      simp only [hsame, hpending]
      apply (hgiven.take_mirrors hflag (hoffered p text? hpending) text?).map
      . intro given given' hgiven
        exact .withGiven hgiven (by simp)
      . intro given hhas
        exact ⟨hhas, by simp⟩

theorem takeNow_mirrors (hp : p.Offered) (text? : Option String)
    : Mirrors (Keeps (·.has key)) (Mirrored key) (r.takeNow p text?) (r'.takeNow p text?) := by
  unfold takeNow
  apply (settle_mirrors h hflag).bind
  . rintro settled _ ⟨hgiven, hoffered⟩
    apply (hgiven.take_mirrors hflag hp text?).bind
    . intro given given' hgiven
      exact .ok (.withGiven hgiven hoffered)
    . intro given _ hhas heq
      cases heq
      exact ⟨hhas, hoffered⟩
  . intro settled _ hagain heq
    obtain ⟨given, htake, heq⟩ := bind_eq_ok_iff.mp heq
    cases heq
    exact ⟨Given.has_of_take htake hagain.given, hagain.pending⟩

theorem takeValue_mirrors (hp : p.Offered) (text? : Option String)
    : Mirrors (Keeps (·.has key)) (Mirrored key) (r.takeValue p text?) (r'.takeValue p text?) := by
  have hwaiting (text? : Option String) (q : Parameter) (found? : Option String)
      (heq : some (p, text?) = some (q, found?)) : q.Offered := by
    cases heq
    exact hp
  unfold takeValue
  cases text? with
  | some text => exact takeNow_mirrors h hflag hp (some text)
  | none =>
    apply (settle_mirrors h hflag).map
    . rintro settled _ ⟨hgiven, _⟩
      exact .withGiven hgiven (hwaiting none)
    . intro settled hagain
      exact ⟨hagain.given, hwaiting none⟩

theorem stop_mirrors (fault : UsageFault)
    : Mirrors (Keeps (·.has key)) (Mirrored key) (r.stop fault) (r'.stop fault) := by
  apply (settle_mirrors h hflag).bind
  . intro _ _ _
    exact .fault fault
  . intro _ _ _ heq
    cases heq

theorem takeLong_mirrors (body : List Char)
    : Mirrors (Keeps (·.has key)) (Mirrored key) (r.takeLong body) (r'.takeLong body) := by
  unfold takeLong
  rw [h.place_eq]
  extract_lets name attached?
  cases hoption : r.place.long? name with
  | none => exact .fault .unknownArgument
  | some option =>
    by_cases hvalue : ∃ key kind, option = .parameter ⟨key, .value kind⟩
    . obtain ⟨key, kind, rfl⟩ := hvalue
      exact takeValue_mirrors h hflag (Place.offered_of_long? hoption) attached?
    . split
      . next heq => cases heq
      . next heq =>
        cases heq
        exact absurd ⟨_, _, rfl⟩ hvalue
      . next heq =>
        cases heq
        split
        . exact .fault .tooManyValues
        . cases option with
          | parameter p => exact takeNow_mirrors h hflag (Place.offered_of_long? hoption) none
          | help => exact stop_mirrors h hflag .help
          | version => exact stop_mirrors h hflag .version

theorem takeShort_mirrors (cluster : List Char)
    : Mirrors (Keeps (·.has key)) (Mirrored key) (r.takeShort cluster) (r'.takeShort cluster) := by
  induction cluster generalizing r r' with
  | nil => exact .ok h
  | cons c cluster ih =>
    unfold takeShort
    rw [h.place_eq]
    cases hoption : r.place.short? c with
    | none => exact .fault .unknownArgument
    | some option =>
      cases option with
      | help => exact stop_mirrors h hflag .help
      | version => exact stop_mirrors h hflag .version
      | parameter p =>
        have hp := Place.offered_of_short? hoption
        have hplain : Mirrors (Keeps (·.has key)) (Mirrored key)
            (r.takeNow p none >>= (·.takeShort cluster))
            (r'.takeNow p none >>= (·.takeShort cluster)) := by
          apply (takeNow_mirrors h hflag hp none).bind
          . intro taken taken' h
            exact ih h
          . intro taken _ hagain htaken
            exact hagain.takeShort (fun _ => Given.has_of_take) htaken
        obtain ⟨key, takes⟩ := p
        cases takes with
        | nothing | count => exact hplain
        | value kind => exact takeValue_mirrors h hflag hp _

theorem takePlain_mirrors (word : String)
    : Mirrors (Keeps (·.has key)) (Mirrored key) (r.takePlain word) (r'.takePlain word) := by
  have hplace := h.place_eq
  have hsettle := settle_mirrors h hflag
  unfold takePlain
  rw [hplace]
  cases h with
  | @withGiven g' hgiven hoffered =>
    change Mirrors _ _ _ (if r.awaiting = true ∧ (!r.trailing) = true then _ else _)
    split
    . refine .ok (.withGiven hgiven ?_)
      intro p text? hpending
      obtain ⟨⟨q, old?⟩, hold, heq⟩ := Option.map_eq_some_iff.mp hpending
      cases heq
      exact hoffered _ old? hold
    . cases hpositional : r.place.positional? with
      | none =>
        simp only
        split <;> exact .fault _
      | some p =>
        have hp (q : Parameter) (found? : Option String)
            (heq : some (p, some word) = some (q, found?)) : q.Offered := by
          cases heq
          exact Place.offered_of_positional? hpositional
        simp only
        change Mirrors _ _ _ (if r.positionalsTaken = 0 then _ else _)
        split
        . apply hsettle.map
          . rintro settled _ ⟨hgiven, _⟩
            exact .withGiven hgiven hp
          . intro settled hagain
            exact ⟨hagain.given, hp⟩
        . exact .fault .unknownArgument

theorem takeWord_mirrors (word : String)
    : Mirrors (Keeps (·.has key)) (Mirrored key) (r.takeWord word) (r'.takeWord word) := by
  have htrailing : r'.trailing = r.trailing := by
    cases h
    rfl
  unfold takeWord
  rw [htrailing]
  split
  . exact takePlain_mirrors h hflag word
  . split
    . cases h with
      | withGiven hgiven hoffered => exact .ok (.withGiven hgiven hoffered)
    . exact takeLong_mirrors h hflag _
    . exact takeShort_mirrors h hflag _
    . exact takePlain_mirrors h hflag word

variable {noColour? : Option String} (hspoken : noColour? = none ∨ key ≠ .noColour)
include hspoken

theorem finish_mirrors (hasChild : Bool)
    : Mirrors (Given.Opposes key) (Given.Flagged key) (r.finish noColour? hasChild)
        (r'.finish noColour? hasChild) := by
  rw [finish_eq, finish_eq]
  apply (settle_mirrors h hflag).bind
  . rintro settled _ ⟨hgiven, _⟩
    apply (hgiven.readVariable_mirrors hspoken).bind
    . intro given given' hgiven
      apply (hgiven.check_mirrors hflag hasChild).bind
      . intro _ _ _
        exact .ok hgiven
      . rintro _ _ hverbose heq
        cases heq
        exact Or.inr hverbose
    . intro given _ hhas heq
      obtain ⟨_, _, heq⟩ := bind_eq_ok_iff.mp heq
      cases heq
      exact Or.inl hhas
  . intro settled _ hagain heq
    obtain ⟨given, hvariable, heq⟩ := bind_eq_ok_iff.mp heq
    obtain ⟨_, _, heq⟩ := bind_eq_ok_iff.mp heq
    cases heq
    exact Or.inl (Given.has_of_readVariable hvariable hagain.given)

end

end Reading

inductive LevelsFlagged (key : Key) : List Given → List Given → Prop where
  | cons {g g' : Given} (h : g.Flagged key g') (below : List Given)
    : LevelsFlagged key (g :: below) (g' :: below)

theorem read_mirrors {key : Key} (hflag : key.IsFlag) {noColour? : Option String}
    (hspoken : noColour? = none ∨ key ≠ .noColour) {r r' : Reading} (h : r.Mirrored key r')
    (words : List String)
    : Mirrors (fun levels => ∃ g ∈ levels.head?, g.Opposes key) (LevelsFlagged key)
        (read noColour? r words) (read noColour? r' words) := by
  -- By induction on the words, with the place so far on both sides.
  induction words generalizing r r' with
  | nil =>
    rw [read, read]
    apply (Reading.finish_mirrors h hflag hspoken false).map
    . intro g g' h
      exact .cons h []
    . intro g hagain
      exact ⟨g, rfl, hagain⟩
  | cons word words ih =>
    rw [Reading.read_cons, Reading.read_cons, h.leadsTo?_eq, h.place_eq]
    by_cases hhelp : r.AsksHelp word
    . rw [if_pos hhelp, if_pos (h.asksHelp_iff.mpr hhelp)]
      exact .fault _
    rw [if_neg hhelp, if_neg (h.asksHelp_iff.not.mpr hhelp)]
    cases hplace : r.leadsTo? word with
    | some place =>
      cases hbelow : read noColour? (.start place) words with
      | error fault =>
        simp only [hbelow]
        exact .fault fault
      | ok below =>
        simp only [hbelow]
        apply (Reading.finish_mirrors h hflag hspoken true).bind
        . intro g g' h
          exact .ok (.cons h below)
        . intro g _ hagain heq
          cases heq
          exact ⟨g, rfl, hagain⟩
    | none =>
      apply (Reading.takeWord_mirrors h hflag word).bind
      . intro taken taken' h
        exact ih h
      . intro taken levels hagain hlevels
        obtain ⟨g, below, rfl, hhas, _⟩ :=
          hagain.read (fun _ => Given.has_of_take) Given.has_of_readVariable hlevels
        exact ⟨g, rfl, Or.inl hhas⟩

def startWith (key : Key) : Reading :=
  (Reading.start .root).withGiven (({ place := .root } : Given).put key .words (.on true))

theorem mirrored_startWith (key : Key) : (Reading.start .root).Mirrored key (startWith key) :=
  .withGiven (Given.flagged_put key _) fun _ _ hpending => by cases hpending

theorem read_noColour (noColour? : Option String) (words : List String)
    : read noColour? (.start .root) ("--no-color" :: words) =
      read noColour? (startWith .noColour) words := by
  rw [Reading.read_cons]
  rfl

theorem read_quiet (noColour? : Option String) (words : List String)
    : read noColour? (.start .root) ("--quiet" :: words) =
      read noColour? (startWith .quiet) words := by
  rw [Reading.read_cons]
  rfl

theorem exists_read_startWith {key : Key} (hflag : key.IsFlag) {noColour? : Option String}
    (hspoken : noColour? = none ∨ key ≠ .noColour) {words : List String} {first : Given}
    {below : List Given} (hread : read noColour? (.start .root) words = .ok (first :: below))
    (hplain : ¬first.Opposes key)
    : ∃ first', read noColour? (startWith key) words = .ok (first' :: below) ∧
        first.Flagged key first' := by
  have hmirrors := read_mirrors hflag hspoken (mirrored_startWith key) words
  rw [hread] at hmirrors
  generalize read noColour? (startWith key) words = y at hmirrors ⊢
  cases hmirrors with
  | ok h =>
    cases h with
    | cons h => exact ⟨_, rfl, h⟩
  | conflict h =>
    obtain ⟨_, hhead, hopposes⟩ := h _ rfl
    cases hhead
    exact absurd hopposes hplain

theorem forall₂_sameBut_of_flagged {key : Key} {first first' : Given} (below : List Given)
    (h : first.Flagged key first')
    : List.Forall₂ (Given.SameBut key) (first :: below) (first' :: below) :=
  .cons h.toSameBut (List.forall₂_same.mpr fun g _ => g.sameBut_refl key)

theorem any_has_of_flagged {key : Key} {first first' : Given} (below : List Given)
    (h : first.Flagged key first') : (first' :: below).any (·.has key) = true :=
  List.any_eq_true.mpr ⟨first', List.mem_cons_self, h.has_flag⟩

def flaggedAtFirst (words : List String) : Bool :=
  match read none (.start .root) words with
  | .ok (g :: _) => g.has .noColour
  | _ => false

theorem noColour_of_flaggedAtFirst {words : List String} {inv : Invocation}
    (hflagged : flaggedAtFirst words) (hparse : parse none words = .ok inv)
    : inv.globals.noColour = true := by
  obtain ⟨levels, hread, hglobals, _⟩ := parse_eq_ok_iff.mp hparse
  rw [← hglobals, noColour_globals (spoken_of_read Key.isFlag_noColour (Or.inl rfl) hread),
    List.any_eq_true]
  rw [flaggedAtFirst, hread] at hflagged
  cases levels with
  | nil => cases hflagged
  | cons first below => exact ⟨first, List.mem_cons_self, hflagged⟩

theorem parse_flag {words : List String} {inv : Invocation} (hparse : parse none words = .ok inv)
    (hfirst : flaggedAtFirst words = false)
    : parse none ("--no-color" :: words) = .ok inv.withoutColour := by
  obtain ⟨levels, hread, hglobals, hcommand⟩ := parse_eq_ok_iff.mp hparse
  obtain ⟨first, below, rfl⟩ := List.exists_cons_of_ne_nil (ne_nil_of_command? hcommand)
  rw [flaggedAtFirst, hread] at hfirst
  have hplain : ¬first.Opposes .noColour := by
    simp [Given.Opposes, hfirst]
  obtain ⟨first', hread', hflagged⟩ :=
    exists_read_startWith Key.isFlag_noColour (Or.inl rfl) hread hplain
  rw [← read_noColour] at hread'
  have hsame := forall₂_sameBut_of_flagged below hflagged
  rw [parse_eq_of_sameBut hsame Key.isFlag_noColour hread hparse hread',
    globals_eq_of_sameBut_noColour hsame,
    noColour_globals (spoken_of_read Key.isFlag_noColour (Or.inl rfl) hread'),
    any_has_of_flagged below hflagged, hglobals, Invocation.withoutColour]

end CommandLine

end RunnerKit
