import RunnerKit.Text.Reader
/-!
This module contains how readers follow one another, and what can be said of everything that a
reader yields, wherever it starts.
-/

namespace RunnerKit.Reader

variable {α β : Type} {r : Reader α} {f : α → Reader β}

theorem bind_eq_some_iff {cs rest : List Char} {b : β}
    : (r >>= f) cs = some (b, rest) ↔
      ∃ a past, r cs = some (a, past) ∧ f a past = some (b, rest) := by
  change (r cs).bind (fun result => f result.1 result.2) = some (b, rest) ↔ _
  rw [Option.bind_eq_some_iff, Prod.exists]

theorem bind_apply_of_eq {cs past : List Char} {a : α} (h : r cs = some (a, past))
    : (r >>= f) cs = f a past := by
  change (r cs).bind (fun result => f result.1 result.2) = f a past
  rw [h, Option.bind_some]

theorem guard_eq_some_iff {p : Prop} [Decidable p] {cs rest : List Char} {u : Unit}
    : (guard p : Reader Unit) cs = some (u, rest) ↔ p ∧ rest = cs := by
  unfold guard
  split
  . next hp =>
    change some (PUnit.unit, cs) = some (u, rest) ↔ _
    rw [Option.some.injEq, Prod.mk.injEq, and_iff_right rfl, and_iff_right hp, eq_comm]
  . next hp =>
    change none = some (u, rest) ↔ _
    simp [hp]

theorem accept_apply (word cs : List Char)
    : accept word cs =
      some (word.isPrefixOf cs, if word.isPrefixOf cs then cs.drop word.length else cs) := by
  change (if word.isPrefixOf cs = true then _ else _ : Reader Bool) cs = _
  split
  . next hword =>
    rw [hword]
    rfl
  . next hword =>
    rw [Bool.not_eq_true] at hword
    rw [hword]
    rfl

theorem readAll?_eq_some_iff {cs : List Char} {a : α}
    : r.readAll? cs = some a ↔ r cs = some (a, []) := by
  unfold readAll?
  split
  . next a' hread => simp [hread]
  . next hread =>
    constructor
    . nofun
    . exact fun ha => absurd ha (hread a)

def Yields (r : Reader α) (P : α → Prop) : Prop := ∀ cs a rest, r cs = some (a, rest) → P a

namespace Yields

variable {P : β → Prop}

theorem pure {b : β} (h : P b) : Yields (pure b) P := by
  intro cs b' rest hb
  cases hb
  exact h

theorem failure : Yields (failure : Reader β) P := by
  intro cs b rest hb
  cases hb

theorem ofOption {b? : Option β} (h : ∀ b, b? = some b → P b) : Yields (liftM b?) P := by
  intro cs b rest hb
  cases hb? : b? with
  | none =>
    rw [hb?] at hb
    cases hb
  | some b' =>
    rw [hb?] at hb
    cases hb
    exact h _ hb?

theorem bind_of {Q : α → Prop} (hr : Yields r Q) (hf : ∀ a, Q a → Yields (f a) P)
    : Yields (r >>= f) P := by
  intro cs b rest hb
  obtain ⟨a, past, ha, hb⟩ := bind_eq_some_iff.mp hb
  exact hf a (hr cs a past ha) past b rest hb

theorem bind (hf : ∀ a, Yields (f a) P) : Yields (r >>= f) P :=
  bind_of (Q := fun _ => True) (fun _ _ _ _ => trivial) fun a _ => hf a

theorem ite {p : Prop} [Decidable p] {first second : Reader β} (hfirst : Yields first P)
    (hsecond : Yields second P) : Yields (if p then first else second) P := by
  split
  . exact hfirst
  . exact hsecond

theorem readAll? {reader : Reader β} (h : Yields reader P) {cs : List Char} {b : β}
    (hb : reader.readAll? cs = some b) : P b := by
  exact h cs b [] (readAll?_eq_some_iff.mp hb)

end Yields

def Uses (r : Reader α) (count : α → Nat) : Prop :=
  ∀ cs a rest, r cs = some (a, rest) → count a + rest.length ≤ cs.length

namespace Uses

variable {count : β → Nat}

theorem pure {b : β} (h : count b = 0) : Uses (pure b) count := by
  intro cs b' rest hb
  cases hb
  omega

theorem failure : Uses (failure : Reader β) count := by
  intro cs b rest hb
  cases hb

theorem ofOption (b? : Option β) : Uses (liftM b?) fun _ => 0 := by
  intro cs b rest hb
  cases b? with
  | none => cases hb
  | some b' =>
    cases hb
    exact Nat.le_of_eq (Nat.zero_add _)

theorem bind {first : α → Nat} (hr : Uses r first) (hf : ∀ a, Uses (f a) fun b => count b - first a)
    : Uses (r >>= f) count := by
  intro cs b rest hb
  obtain ⟨a, past, ha, hb⟩ := bind_eq_some_iff.mp hb
  have hfirst := hr cs a past ha
  have hsecond : count b - first a + rest.length ≤ past.length := hf a past b rest hb
  omega

theorem mono {less : β → Nat} {reader : Reader β} (h : Uses reader count)
    (hless : ∀ b, less b ≤ count b) : Uses reader less := by
  intro cs b rest hb
  have hcount := h cs b rest hb
  have hb := hless b
  omega

theorem weaken {reader : Reader β} (h : Uses reader count) : Uses reader fun _ => 0 :=
  h.mono fun _ => Nat.zero_le _

theorem ite {p : Prop} [Decidable p] {first second : Reader β} (hfirst : p → Uses first count)
    (hsecond : ¬p → Uses second count) : Uses (if p then first else second) count := by
  split
  . next hp => exact hfirst hp
  . next hp => exact hsecond hp

theorem get : Uses get fun _ => 0 := by
  intro cs a rest h
  cases h
  exact Nat.le_of_eq (Nat.zero_add _)

theorem peek? : Uses peek? fun _ => 0 := .bind get fun _ => .pure rfl

theorem next : Uses next fun _ => 1 := by
  intro cs c rest h
  cases cs with
  | nil => cases h
  | cons =>
    cases h
    exact Nat.le_of_eq (Nat.add_comm _ _)

theorem accept (word : List Char) : Uses (accept word) fun b => if b then word.length else 0 := by
  intro cs b rest h
  rw [accept_apply] at h
  cases h
  dsimp only
  split
  . next hword =>
    have hlength := (List.isPrefixOf_iff_prefix.mp hword).length_le
    rw [List.length_drop]
    omega
  . exact Nat.le_of_eq (Nat.zero_add _)

theorem expect (word : List Char) : Uses (expect word) fun _ => word.length := by
  refine .bind (accept word) fun b => ?_
  cases b with
  | false => exact .failure
  | true => exact .pure (Nat.sub_self _)

theorem skipWhile (p : Char → Bool) : Uses (skipWhile p) fun _ => 0 := by
  intro cs a rest h
  cases h
  exact Nat.le_trans (Nat.le_of_eq (Nat.zero_add _)) (List.dropWhile_suffix p).length_le

theorem guarded (p : Prop) [Decidable p] : Uses (guard p) fun _ => 0 := by
  intro cs u rest h
  rw [(guard_eq_some_iff.mp h).2]
  exact Nat.le_of_eq (Nat.zero_add _)

theorem exactly (p : Char → Bool) (count : Nat) : Uses (exactly p count) fun _ => 0 := by
  intro cs a rest h
  obtain ⟨cs', past, hget, h⟩ := bind_eq_some_iff.mp h
  cases hget
  obtain ⟨_, past, hguard, h⟩ := bind_eq_some_iff.mp h
  have hguarded := guarded _ _ _ _ hguard
  cases h
  simp only [List.length_drop] at hguarded ⊢
  omega

end Uses

end RunnerKit.Reader
