import RunnerKit.Proofs.Settings.Toml.Keys
/-!
This module contains how many characters a string takes up in a TOML text. It takes two more than it
has, and only one that is written as it is between two quotes takes no more than that.
-/

namespace RunnerKit.Settings.Toml

open Reader

/-! What strings of several lines take up -/

theorem uses_newline : Uses newline fun _ => 0 := by
  refine .bind (Uses.accept _).weaken fun atEnd => ?_
  exact .ite (fun _ => .pure rfl) fun _ => (Uses.accept _).weaken

theorem uses_skipBlankLines (fuel : Nat) : Uses (skipBlankLines fuel) fun _ => 0 := by
  induction fuel with
  | zero => exact .pure rfl
  | succ fuel ih =>
    rw [skipBlankLines]
    refine .bind (.skipWhile _) fun _ => .bind uses_newline fun atEnd => ?_
    exact .ite (fun _ => ih) fun _ => .pure rfl

theorem uses_code (digits : Nat) : Uses (escape.code digits) fun _ => 0 := by
  refine .bind (.exactly _ _) fun cs => .ofOption _

theorem uses_escape : Uses escape fun _ => 1 := by
  refine .bind .next fun c => ?_
  split
  all_goals first | exact .pure rfl | exact uses_code _ | exact .failure

theorem uses_quotes (quote : Char)
    : Uses (quotes quote) fun result => result.1.length + if result.2 then 3 else 0 := by
  intro cs result rest h
  cases h
  have hprefixed : (cs.takeWhile (· == quote)).take 5 <+: cs :=
    (List.take_prefix 5 _).trans (List.takeWhile_prefix _)
  have hlength := hprefixed.length_le
  split
  all_goals
    simp only [List.length_drop, Bool.false_eq_true, if_false, if_true] at *
    omega

theorem uses_lines (quote : Char) (escapes : Bool) (fuel : Nat)
    : Uses (lines quote escapes fuel) fun content => content.length + 3 := by
  induction fuel with
  | zero => exact .failure
  | succ fuel ih =>
    rw [lines]
    refine .bind .peek? fun c? => ?_
    split
    . exact .failure
    . refine .ite (fun _ => ?_) fun _ => .ite (fun _ => ?_) fun _ => .ite (fun _ => ?_) fun _ => ?_
      . refine .bind (uses_quotes quote) fun ⟨content, ended⟩ => ?_
        refine .ite (fun hended => .pure ?_) fun hended => .bind ih fun more => .pure ?_
        . simp [hended]
        . simp only [hended, Bool.false_eq_true, if_false, List.length_append]
          omega
      . refine .bind (.expect _) fun _ => .bind .get fun cs => .ite (fun _ => ?_) fun _ => ?_
        . refine .bind (uses_skipBlankLines _) fun _ => ih.mono fun content => ?_
          omega
        . refine .bind uses_escape fun c => .bind ih fun content => .pure ?_
          simp
      . refine .bind (.expect _) fun _ => .bind ih fun content => .pure ?_
        simp
      . refine .bind .next fun c => .bind (.guarded _) fun _ => .bind ih fun content => .pure ?_
        simp

/-! What strings of one line take up -/

theorem uses_basic (fuel : Nat) : Uses (basic fuel) fun content => content.length + 1 := by
  induction fuel with
  | zero => exact .failure
  | succ fuel ih =>
    rw [basic]
    refine .bind .next fun c => ?_
    split
    . exact .pure rfl
    . exact .bind uses_escape fun c => .bind ih fun content => .pure (by simp)
    . exact .bind (.guarded _) fun _ => .bind ih fun content => .pure (by simp)

def Verbatim (cs : List Char) : Prop := ∀ c ∈ cs, isPlain c = true ∧ c ≠ '"' ∧ c ≠ '\\'

instance (cs : List Char) : Decidable (Verbatim cs) := List.decidableBAll _ cs

theorem verbatim_append_iff {cs ds : List Char} : Verbatim (cs ++ ds) ↔ Verbatim cs ∧ Verbatim ds :=
  List.forall_mem_append

theorem Verbatim.of_cons {c : Char} {cs : List Char} (h : Verbatim (c :: cs)) : Verbatim cs :=
  fun d hd => h d (List.mem_cons_of_mem _ hd)

theorem basic_of_verbatim {content : List Char} (h : Verbatim content) (rest : List Char) {fuel : Nat}
    (hfuel : content.length < fuel) : basic fuel (content ++ '"' :: rest) = some (content, rest) := by
  induction content generalizing fuel with
  | nil =>
    cases fuel with
    | zero => cases hfuel
    | succ fuel => rfl
  | cons c content ih =>
    cases fuel with
    | zero => cases hfuel
    | succ fuel =>
      obtain ⟨hplain, hquote, hescape⟩ := h c List.mem_cons_self
      rw [basic, List.cons_append, bind_eq_some_iff]
      refine ⟨c, content ++ '"' :: rest, rfl, ?_⟩
      split
      . exact absurd rfl hquote
      . exact absurd rfl hescape
      . have hrest := ih h.of_cons (Nat.lt_of_succ_lt_succ hfuel)
        exact bind_eq_some_iff.mpr ⟨(), _, guard_eq_some_iff.mpr ⟨hplain, rfl⟩,
          bind_eq_some_iff.mpr ⟨content, rest, hrest, rfl⟩⟩

theorem verbatim_of_basic {fuel : Nat} {cs content rest : List Char}
    (hbasic : basic fuel cs = some (content, rest))
    (hlength : cs.length ≤ content.length + 1 + rest.length)
    : Verbatim content ∧ cs = content ++ '"' :: rest := by
  -- An escape takes up more than the character that it stands for, so a string that has one takes
  -- up more than its characters and its quotes.
  induction fuel generalizing cs content with
  | zero => cases hbasic
  | succ fuel ih =>
    rw [basic] at hbasic
    obtain ⟨c, past, hnext, h⟩ := bind_eq_some_iff.mp hbasic
    clear hbasic
    cases cs with
    | nil => cases hnext
    | cons first cs =>
      cases hnext
      split at h
      . cases h
        exact ⟨fun _ hc => absurd hc List.not_mem_nil, rfl⟩
      . obtain ⟨e, later, hescape, h⟩ := bind_eq_some_iff.mp h
        obtain ⟨more, last, hmore, h⟩ := bind_eq_some_iff.mp h
        cases h
        have hfirst : 1 + later.length ≤ past.length := uses_escape _ _ _ hescape
        have hsecond : more.length + 1 + rest.length ≤ later.length := uses_basic _ _ _ _ hmore
        simp only [List.length_cons] at hlength
        omega
      . next hquote hescape =>
        obtain ⟨_, past, hguard, h⟩ := bind_eq_some_iff.mp h
        obtain ⟨more, last, hmore, h⟩ := bind_eq_some_iff.mp h
        cases h
        obtain ⟨hplain, rfl⟩ := guard_eq_some_iff.mp hguard
        simp only [List.length_cons] at hlength
        obtain ⟨hverbatim, hcs⟩ := ih hmore (by omega)
        exact ⟨List.forall_mem_cons.mpr ⟨⟨hplain, hquote, hescape⟩, hverbatim⟩, by rw [hcs]; rfl⟩

theorem string_of_verbatim {content : String} (h : Verbatim content.toList) {rest : List Char}
    (hrest : rest.head? ≠ some '"')
    : string ('"' :: (content.toList ++ '"' :: rest)) = some (content, rest) := by
  have hsingle : ['"', '"', '"'].isPrefixOf ('"' :: (content.toList ++ '"' :: rest)) = false := by
    cases hcontent : content.toList with
    | nil =>
      cases rest with
      | nil => rfl
      | cons c rest =>
        have hquote : ('"' == c) = false := beq_eq_false_iff_ne.mpr fun heq => hrest (by rw [heq]; rfl)
        simp [List.isPrefixOf, hquote]
    | cons c cs =>
      rw [hcontent] at h
      have hquote : ('"' == c) = false := beq_eq_false_iff_ne.mpr (h c List.mem_cons_self).2.1.symm
      simp [List.isPrefixOf, hquote]
  have hfuel : content.toList.length < ('"' :: (content.toList ++ '"' :: rest)).length := by
    rw [List.length_cons, List.length_append]
    omega
  refine bind_eq_some_iff.mpr ⟨_, _, rfl, bind_eq_some_iff.mpr ⟨_, _, accept_apply _ _, ?_⟩⟩
  rw [hsingle]
  refine bind_eq_some_iff.mpr ⟨_, _, accept_apply _ _, ?_⟩
  refine bind_eq_some_iff.mpr ⟨_, _, rfl, bind_eq_some_iff.mpr ⟨_, _, accept_apply _ _, ?_⟩⟩
  refine bind_eq_some_iff.mpr ⟨_, _, basic_of_verbatim h rest hfuel, ?_⟩
  rw [String.ofList_toList]
  rfl

theorem verbatim_of_string {cs rest : List Char} {content : String}
    (hstring : string ('"' :: cs) = some (content, rest))
    (hlength : cs.length ≤ content.toList.length + 1 + rest.length)
    : Verbatim content.toList ∧ cs = content.toList ++ '"' :: rest := by
  -- A string in three quotes on either side is too long for what it stands for, and so is one with
  -- escapes.
  obtain ⟨start, _, hget, h⟩ := bind_eq_some_iff.mp hstring
  cases hget
  obtain ⟨tripled, past, haccept, h⟩ := bind_eq_some_iff.mp h
  cases tripled with
  | true =>
    have hopened : 3 + past.length ≤ cs.length + 1 := Uses.accept _ _ _ _ haccept
    have huses : Uses (do
        let _ ← newline
        return String.ofList (← lines '"' true (cs.length + 1)))
        fun content => content.toList.length + 3 := by
      refine .bind uses_newline fun _ => .bind (uses_lines _ _ _) fun content => .pure ?_
      simp
    have hclosed : content.toList.length + 3 + rest.length ≤ past.length := huses _ _ _ h
    omega
  | false =>
    have hpast : past = '"' :: cs := by
      rw [accept_apply, Option.some.injEq, Prod.mk.injEq] at haccept
      rw [← haccept.2, haccept.1]
      rfl
    subst hpast
    -- A single quote is next, so this is a string of one line with escapes.
    obtain ⟨_, _, haccept, h⟩ := bind_eq_some_iff.mp h
    cases haccept
    obtain ⟨_, _, hget, h⟩ := bind_eq_some_iff.mp h
    cases hget
    obtain ⟨_, _, haccept, h⟩ := bind_eq_some_iff.mp h
    cases haccept
    obtain ⟨_, _, hbasic, h⟩ := bind_eq_some_iff.mp h
    cases h
    rw [String.toList_ofList] at hlength ⊢
    exact verbatim_of_basic hbasic hlength

/-! A line that gives a list of one string -/

section

variable {cs rest : List Char}

theorem exists_string_of_values {nesting fuel : Nat} {vs : List Value}
    (h : values nesting (fuel + 2) ('"' :: cs) = some (vs, rest))
    : ∃ content past more, string ('"' :: cs) = some (content, past) ∧ past ≠ [] ∧
        vs = .text content :: more := by
  rw [values, bind_apply_of_eq rfl, bind_apply_of_eq rfl, bind_apply_of_eq rfl] at h
  obtain ⟨first, past, hvalue, h⟩ := bind_eq_some_iff.mp h
  rw [value, bind_apply_of_eq rfl] at hvalue
  obtain ⟨content, _, hstring, hvalue⟩ := bind_eq_some_iff.mp hvalue
  cases hvalue
  have hpast : past ≠ [] := by
    rintro rfl
    cases h
  obtain ⟨_, _, _, h⟩ := bind_eq_some_iff.mp h
  obtain ⟨_, _, _, h⟩ := bind_eq_some_iff.mp h
  obtain ⟨more, _, _, h⟩ := bind_eq_some_iff.mp h
  cases more with
  | true =>
    obtain ⟨more, _, _, h⟩ := bind_eq_some_iff.mp h
    cases h
    exact ⟨content, past, more, hstring, hpast, rfl⟩
  | false =>
    obtain ⟨_, _, _, h⟩ := bind_eq_some_iff.mp h
    cases h
    exact ⟨content, past, [], hstring, hpast, rfl⟩

theorem values_of_verbatim {content : String} (h : Verbatim content.toList) (nesting fuel : Nat)
    : values nesting (fuel + 2) ('"' :: (content.toList ++ ['"', ']'])) =
      some ([.text content], []) := by
  have hstring : string ('"' :: (content.toList ++ ['"', ']'])) = some (content, [']']) :=
    string_of_verbatim h (by simp)
  rw [values, bind_apply_of_eq rfl, bind_apply_of_eq rfl, bind_apply_of_eq rfl]
  refine bind_eq_some_iff.mpr ⟨.text content, [']'], ?_, rfl⟩
  rw [value, bind_apply_of_eq rfl]
  exact bind_eq_some_iff.mpr ⟨content, [']'], hstring, rfl⟩

theorem value_list (nesting fuel : Nat) (cs : List Char)
    : value (nesting + 1) (fuel + 1) ('[' :: cs) =
      (do return .list (← values nesting fuel) : Reader Value) cs := by
  have hguard : (guard (0 < nesting + 1) : Reader Unit) ('[' :: cs) = some ((), '[' :: cs) :=
    guard_eq_some_iff.mpr ⟨Nat.succ_pos nesting, rfl⟩
  rw [value, bind_apply_of_eq rfl]
  exact (bind_apply_of_eq hguard).trans (bind_apply_of_eq rfl)

theorem readMember_eq_some_iff {d : Document}
    : Document.readMember {} ("authors = [\"".toList ++ cs) = some (d, rest) ↔
      ∃ vs, values 79 (2 * cs.length + 5) ('"' :: cs) = some (vs, rest) ∧
        d = { nodes := [("authors", .value (.list vs))] } := by
  have hvalue := value_list 79 (2 * cs.length + 5) ('"' :: cs)
  rw [Document.readMember, bind_apply_of_eq rfl, bind_apply_of_eq rfl, bind_apply_of_eq rfl,
    bind_apply_of_eq rfl, bind_apply_of_eq rfl, bind_eq_some_iff]
  constructor
  . rintro ⟨v, past, hv, h⟩
    obtain ⟨vs, _, hvs, heq⟩ := bind_eq_some_iff.mp (hvalue.symm.trans hv)
    cases heq
    cases h
    exact ⟨vs, hvs, rfl⟩
  . rintro ⟨vs, hvs, rfl⟩
    exact ⟨.list vs, rest, hvalue.trans (bind_eq_some_iff.mpr ⟨vs, rest, hvs, rfl⟩), rfl⟩

theorem readLines_eq_bind (fuel : Nat)
    : Document.readLines {} (fuel + 1) ("authors = [\"".toList ++ cs) =
      (do
        let d ← Document.readMember {}
        endLine
        d.readLines fuel : Reader Document) ("authors = [\"".toList ++ cs) := by
  rw [Document.readLines, bind_apply_of_eq rfl, bind_apply_of_eq rfl, bind_apply_of_eq rfl]
  rfl

end

theorem read?_list_iff (content : String)
    : read? ("authors = [\"" ++ content ++ "\"]").toList =
        some [("authors", .list [.text content])] ↔ Verbatim content.toList := by
  let cs := content.toList ++ ['"', ']']
  have hline : ("authors = [\"" ++ content ++ "\"]").toList = "authors = [\"".toList ++ cs := by
    simp [cs]
  have hread : read? ("authors = [\"".toList ++ cs) =
      ((Document.readLines {} (("authors = [\"".toList ++ cs).length + 1)).readAll?
        ("authors = [\"".toList ++ cs)).map fun d => entriesOf d.nodes := by
    have hmark : ("authors = [\"".toList ++ cs).head? ≠ some '\uFEFF' := by
      simp
    simp only [read?, hmark, if_false, Option.map_eq_bind]
    rfl
  have hlength : cs.length = content.toList.length + 2 := by simp [cs]
  rw [hline, hread]
  constructor
  . intro h
    obtain ⟨d, hd, hentries⟩ := Option.map_eq_some_iff.mp h
    have hlines := readAll?_eq_some_iff.mp hd
    rw [readLines_eq_bind] at hlines
    obtain ⟨first, past, hmember, hlines⟩ := bind_eq_some_iff.mp hlines
    obtain ⟨vs, hvalues, rfl⟩ := readMember_eq_some_iff.mp hmember
    obtain ⟨_, _, _, hlines⟩ := bind_eq_some_iff.mp hlines
    -- Whatever the next lines give, the value of this one stays.
    have hnode : d.nodes.lookup "authors" = some (.value (.list vs)) :=
      Document.readLines_yields (Nodes.stable_lookup "authors" (.list vs)) rfl _ _ _ _ hlines
    have hentry := mem_entriesOf hnode
    rw [hentries, List.mem_singleton, Node.toValue, Prod.mk.injEq, Value.list.injEq] at hentry
    obtain ⟨content', past, more, hstring, hpast, hvs⟩ := exists_string_of_values hvalues
    rw [hentry.2, List.cons.injEq, Value.text.injEq] at hvs
    rw [← hvs.1] at hstring
    have hpast := List.length_pos_iff.mpr hpast
    exact (verbatim_of_string hstring (by omega)).1
  . intro h
    rw [Option.map_eq_some_iff]
    refine ⟨{ nodes := [("authors", .value (.list [.text content]))] }, ?_, rfl⟩
    rw [readAll?_eq_some_iff, readLines_eq_bind]
    refine bind_eq_some_iff.mpr ⟨_, [], readMember_eq_some_iff.mpr ⟨_, values_of_verbatim h _ _, rfl⟩, ?_⟩
    rfl

end RunnerKit.Settings.Toml
