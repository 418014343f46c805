import RunnerKit.Proofs.Path.Stretches
/-!
This module contains what the ways to make a path out of others do to its components.
-/

namespace RunnerKit
namespace Path

inductive Shape : Path → Prop where
  | empty : Shape ⟨[]⟩
  | root (body : List UInt8) : Shape ⟨slash :: body⟩
  | dot : Shape ⟨[dot]⟩
  | current (body : List UInt8) : Shape ⟨dot :: slash :: body⟩
  | plain {p : Path} {name : Name} {names : List Name} (hsplit : p.split = (.none, p.bytes))
      (hnames : splitSlashes p.bytes = name :: names) (hname : isIgnored name = false) : Shape p

theorem splitSlashes_dot_slash (body : List UInt8)
    : splitSlashes (dot :: slash :: body) = [dot] :: splitSlashes body := by
  rw [splitSlashes_cons_of_ne (by decide) (splitSlashes_cons_slash body)]

theorem isIgnored_of_head_ne {b : UInt8} {bs : List UInt8} {name : Name} {names : List Name}
    (hb : b ≠ slash) (hdot : ¬(b = dot ∧ (bs = [] ∨ bs.head? = some slash)))
    (h : splitSlashes (b :: bs) = name :: names) : isIgnored name = false := by
  obtain ⟨first, rest, hbs⟩ := List.exists_cons_of_ne_nil (splitSlashes_ne_nil bs)
  rw [splitSlashes_cons_of_ne hb hbs, List.cons.injEq] at h
  rw [← h.1]
  cases first with
  | cons c cs => simp [isIgnored]
  | nil =>
    suffices bs = [] ∨ bs.head? = some slash by
      simp only [this, and_true] at hdot
      simp [isIgnored, hdot]
    cases bs with
    | nil => exact Or.inl rfl
    | cons c cs =>
      by_cases hc : c = slash
      . simp [hc]
      . obtain ⟨next, others, hcs⟩ := List.exists_cons_of_ne_nil (splitSlashes_ne_nil cs)
        rw [splitSlashes_cons_of_ne hc hcs] at hbs
        simp at hbs

theorem shape (p : Path) : p.Shape := by
  obtain ⟨bytes⟩ := p
  cases bytes with
  | nil => exact .empty
  | cons b bs =>
    by_cases hb : b = slash
    . rw [hb]
      exact .root bs
    . by_cases hdot : b = dot ∧ (bs = [] ∨ bs.head? = some slash)
      . obtain ⟨rfl, hbs⟩ := hdot
        cases bs with
        | nil => exact .dot
        | cons c cs =>
          simp only [reduceCtorEq, List.head?_cons, Option.some.injEq, false_or] at hbs
          rw [hbs]
          exact .current cs
      . obtain ⟨name, names, hnames⟩ := List.exists_cons_of_ne_nil (splitSlashes_ne_nil (b :: bs))
        apply Shape.plain _ hnames (isIgnored_of_head_ne hb hdot hnames)
        simp [split, hb, hdot]

theorem components_eq (p : Path) : p.components =
    leading (splitSlashes p.bytes) ++ componentsOfNames (splitSlashes p.bytes) := by
  cases p.shape with
  | empty => rfl
  | root body =>
    obtain ⟨name, names, hbody⟩ := List.exists_cons_of_ne_nil (splitSlashes_ne_nil body)
    rw [splitSlashes_cons_slash, componentsOfNames_cons, hbody]
    simp [components, split, hbody, leading, Start.components, componentsOfNames]
  | dot => rfl
  | current body =>
    rw [splitSlashes_dot_slash, componentsOfNames_cons, componentsOfNames_of_isIgnored isIgnored_dot]
    simp [components, split, leading, Start.components, componentsOfNames, splitSlashes_cons_slash,
      show dot ≠ slash by decide]
  | plain hsplit hnames hname =>
    rw [hnames, leading_of_not_isIgnored hname]
    simp [components, hsplit, hnames, Start.components, componentsOfNames]

theorem isEmpty_eq_true_iff {p : Path} : p.isEmpty = true ↔ p.components = [] := by
  rw [components_eq]
  cases p.shape with
  | empty => simp [isEmpty, splitSlashes, leading, componentsOfNames]
  | root body =>
    obtain ⟨name, names, hbody⟩ := List.exists_cons_of_ne_nil (splitSlashes_ne_nil body)
    simp [isEmpty, splitSlashes_cons_slash, hbody, leading]
  | dot => simp [isEmpty, splitSlashes, leading, show dot ≠ slash by decide]
  | current body => simp [isEmpty, splitSlashes_dot_slash, leading]
  | @plain _ name names hsplit hnames hname =>
    have hne : p.bytes ≠ [] := by
      intro h
      simp only [h, splitSlashes, List.cons.injEq] at hnames
      simp [← hnames.1] at hname
    rw [hnames, componentsOfNames_cons, componentsOfNames_of_not_isIgnored hname]
    simp [isEmpty, hne]

theorem components_eq_of_splitSlashes {p : Path} {names : List Name}
    (h : splitSlashes p.bytes = names) : p.components = leading names ++ componentsOfNames names := by
  rw [components_eq, h]

theorem join_of_isEmpty {root : Path} (hroot : root.isEmpty = true) (p : Path)
    : root.join p = p := by
  have hbytes : root.bytes = [] := by simpa [isEmpty] using hroot
  unfold join
  split
  . rfl
  . rw [if_pos (Or.inl hroot), hbytes, List.nil_append]

theorem components_join {p q : Path} (hp : p.isEmpty = false) (hq : q.isAbsolute = false)
    : (p.join q).components = p.components ++ componentsOfNames (splitSlashes q.bytes) := by
  unfold join
  simp only [hq, hp, Bool.false_eq_true, ↓reduceIte, false_or]
  split
  . next hlast =>
    obtain ⟨front, hfront⟩ := List.getLast?_eq_some_iff.mp hlast
    have hpath : splitSlashes p.bytes = splitSlashes front ++ [[]] := by
      rw [hfront, splitSlashes_append_slash]
      rfl
    have hjoin : splitSlashes (p.bytes ++ q.bytes) = splitSlashes front ++ splitSlashes q.bytes := by
      rw [hfront, List.append_assoc, List.singleton_append, splitSlashes_append_slash]
    have hleading := leading_append_congr (splitSlashes_ne_nil front) (splitSlashes_ne_nil q.bytes)
      (List.cons_ne_nil [] [])
    rw [components_eq_of_splitSlashes hpath, components_eq_of_splitSlashes hjoin, hleading]
    simp only [componentsOfNames_append, componentsOfNames_of_isIgnored isIgnored_nil]
    simp
  . have hjoin := splitSlashes_append_slash p.bytes q.bytes
    rw [components_eq_of_splitSlashes hjoin, components_eq p, leading_append]
    . simp
    . apply splitSlashes_ne_nil
    . intro h
      simp [isEmpty, eq_nil_of_splitSlashes_eq h] at hp

theorem components_prefix_join (p : Path) {q : Path} (hq : q.isAbsolute = false)
    : p.components <+: (p.join q).components := by
  cases hp : p.isEmpty with
  | true =>
    rw [isEmpty_eq_true_iff.mp hp]
    apply List.nil_prefix
  | false =>
    rw [components_join hp hq]
    apply List.prefix_append

theorem append_ignored (names : List Name) : ∃ ignored : List Name,
    names = dropIgnoredEnd names ++ ignored ∧ componentsOfNames ignored = [] := by
  refine ⟨(names.reverse.takeWhile isIgnored).reverse, ?_, ?_⟩
  . rw [dropIgnoredEnd, ← List.reverse_append, List.takeWhile_append_dropWhile, List.reverse_reverse]
  . simp only [componentsOfNames, List.map_eq_nil_iff, List.filter_eq_nil_iff, List.mem_reverse]
    intro name hname
    simp [List.all_eq_true.mp List.all_takeWhile name hname]

theorem componentsOfNames_dropIgnoredEnd (names : List Name)
    : componentsOfNames (dropIgnoredEnd names) = componentsOfNames names := by
  obtain ⟨ignored, hnames, hignored⟩ := append_ignored names
  conv => rhs; rw [hnames]
  rw [componentsOfNames_append, hignored, List.append_nil]

theorem not_isIgnored_of_dropIgnoredEnd {names front : List Name} {last : Name}
    (h : dropIgnoredEnd names = front ++ [last]) : isIgnored last = false := by
  have hrev : names.reverse.dropWhile isIgnored = last :: front.reverse := by
    rw [← List.reverse_reverse (names.reverse.dropWhile isIgnored)]
    rw [dropIgnoredEnd] at h
    simp [h]
  have := List.head?_dropWhile_not isIgnored names.reverse
  simpa [hrev] using this

end Path
end RunnerKit
