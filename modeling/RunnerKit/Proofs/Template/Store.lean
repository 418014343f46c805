import Mathlib.Data.Finset.Card
import RunnerKit.Proofs.Template.Builtin
import RunnerKit.Proofs.Text.Order
import RunnerKit.Proofs.Values
/-!
This module contains what the stores of templates hold in terms of everything that was inserted. A
store can have many handles, and a change through one of them shows through all of them.
-/

namespace RunnerKit

def lastOf (history : List Template) (id : String) : Option Template :=
  (history.filter fun t => t.id = id).getLast?

theorem lastOf_concat (history : List Template) (t : Template) (id : String)
    : lastOf (history ++ [t]) id = if t.id = id then some t else lastOf history id := by
  unfold lastOf
  rw [List.filter_append]
  split
  . next h => simp [h]
  . next h => simp [h]

theorem id_eq_of_lastOf {history : List Template} {id : String} {t : Template}
    (h : lastOf history id = some t) : t ∈ history ∧ t.id = id := by
  have hmem := List.mem_of_getLast? h
  rw [List.mem_filter, decide_eq_true_eq] at hmem
  exact hmem

theorem isSome_lastOf_iff {history : List Template} {id : String}
    : (lastOf history id).isSome ↔ id ∈ history.map Template.id := by
  unfold lastOf
  simp

namespace Store

inductive Change where
  | insert (t : Template)
  | loadBuiltin

namespace Change

def result : Change → Except Error Unit
  | .insert t => liftViolation t.validate
  -- The built-in templates are always accepted.
  | .loadBuiltin => .ok ()

def accepted : Change → List Template
  | .insert t =>
    match t.validate with
    | .ok _ => [t]
    | .error _ => []
  | .loadBuiltin => Builtin.all

end Change

def change (s : Store) : Change → Except Error Store
  | .insert t => s.insert t
  | .loadBuiltin => s.loadBuiltin

structure Remembers (history : List Template) (s : Store) : Prop where
  found : ∀ id : String, s.templates[id]? = lastOf history id
  valid : ∀ t ∈ history, t.validate = .ok ()

structure Keeps (history : List Template) (s : Store) : Prop where
  get_eq : ∀ id, s.get id =
    match lastOf history id with
    | some t => .ok t
    | none => .error (.failure (.templateResolution ("Template not found: " ++ id)))
  ordered : s.toList.Pairwise fun t u => utf8Bytes t.id < utf8Bytes u.id
  mem_iff : ∀ t, t ∈ s.toList ↔ lastOf history t.id = some t
  once : ∀ id, (s.toList.map Template.id).count id =
    if id ∈ history.map Template.id then 1 else 0
  valid : ∀ t ∈ s.toList, t.validate = .ok ()
  size_eq : s.size = (history.map Template.id).toFinset.card

theorem remembers_empty : Remembers [] empty where
  found id := by
    unfold empty
    simp [lastOf]
  valid t h := absurd h List.not_mem_nil

variable {history : List Template} {s : Store}

theorem insert_eq_ok {t : Template} (h : t.validate = .ok ())
    : s.insert t = .ok ⟨s.templates.insert t.id t⟩ := by
  unfold insert
  rw [h]

theorem insert_eq_error {t : Template} {v : Violation} (h : t.validate = .error v)
    : s.insert t = .error (.violation v) := by
  unfold insert
  rw [h]

namespace Remembers

theorem insert (h : Remembers history s) {t : Template} (hvalid : t.validate = .ok ())
    : Remembers (history ++ [t]) ⟨s.templates.insert t.id t⟩ where
  found id := by
    rw [Std.TreeMap.getElem?_insert, lastOf_concat, h.found]
    simp only [Std.LawfulEqOrd.compare_eq_iff_eq]
  valid u hu := by
    rw [List.mem_append, List.mem_singleton] at hu
    cases hu with
    | inl hold => exact h.valid u hold
    | inr hnew => rw [hnew, hvalid]

theorem id_eq (h : Remembers history s) (id : String) (t : Template)
    (hfound : s.templates[id]? = some t) : t.id = id := by
  rw [h.found] at hfound
  exact (id_eq_of_lastOf hfound).2

theorem mem_toList_iff (h : Remembers history s) (t : Template)
    : t ∈ s.toList ↔ lastOf history t.id = some t := by
  unfold toList
  rw [mem_values_iff]
  constructor
  . rintro ⟨id, hfound⟩
    rw [h.id_eq id t hfound, ← h.found]
    exact hfound
  . intro hlast
    exact ⟨t.id, by rw [h.found, hlast]⟩

theorem mem_ids_iff (h : Remembers history s) (id : String)
    : id ∈ s.toList.map Template.id ↔ id ∈ history.map Template.id := by
  unfold toList
  rw [map_values_eq_keys h.id_eq, Std.TreeMap.mem_keys, Std.TreeMap.mem_iff_isSome_getElem?,
    h.found, isSome_lastOf_iff]

theorem nodup_ids (h : Remembers history s) : (s.toList.map Template.id).Nodup := by
  unfold toList
  rw [map_values_eq_keys h.id_eq]
  apply Std.TreeMap.nodup_keys

theorem keeps (h : Remembers history s) : s.Keeps history where
  get_eq id := by
    have hfound := h.found id
    unfold get
    cases hlast : lastOf history id with
    | some t => simp only [hfound, hlast]
    | none => simp only [hfound, hlast]
  ordered := by
    have hids := pairwise_values h.id_eq
    simp only [compare_eq_lt_iff] at hids
    exact hids
  mem_iff := h.mem_toList_iff
  once id := by
    rw [h.nodup_ids.count]
    simp only [h.mem_ids_iff]
  valid t ht := by
    rw [h.mem_toList_iff] at ht
    exact h.valid t (id_eq_of_lastOf ht).1
  size_eq := by
    have hids : (history.map Template.id).toFinset = (s.toList.map Template.id).toFinset := by
      ext id
      rw [List.mem_toFinset, List.mem_toFinset, h.mem_ids_iff]
    rw [hids, List.toFinset_card_of_nodup h.nodup_ids, List.length_map]
    exact (length_values s.templates).symm

end Remembers

theorem exists_insertAll {ts : List Template} (hvalid : ∀ t ∈ ts, t.validate = .ok ()) (s : Store)
    : ∃ s', s.insertAll ts = .ok s' ∧
        ∀ history, Remembers history s → Remembers (history ++ ts) s' := by
  induction ts generalizing s with
  | nil =>
    refine ⟨s, rfl, ?_⟩
    intro history h
    rw [List.append_nil]
    exact h
  | cons t ts ih =>
    obtain ⟨hfirst, hothers⟩ := List.forall_mem_cons.mp hvalid
    obtain ⟨s', hall, hs'⟩ := ih hothers ⟨s.templates.insert t.id t⟩
    refine ⟨s', ?_, ?_⟩
    . unfold insertAll
      rw [insert_eq_ok hfirst]
      exact hall
    . intro history h
      rw [List.append_cons]
      exact hs' _ (h.insert hfirst)

theorem change_cases (s : Store) (c : Change)
    : (c.result = .ok () ∧ ∃ s', s.change c = .ok s' ∧
        ∀ history, Remembers history s → Remembers (history ++ c.accepted) s') ∨
      ∃ e, c.result = .error e ∧ c.accepted = [] ∧ s.change c = .error e := by
  cases c with
  | insert t =>
    unfold change
    cases hvalidate : t.validate with
    | ok u =>
      refine .inl ⟨?_, _, insert_eq_ok hvalidate, ?_⟩
      . simp only [Change.result, hvalidate, liftViolation]
      . simp only [Change.accepted, hvalidate]
        intro history h
        exact h.insert hvalidate
    | error v =>
      refine .inr ⟨.violation v, ?_, ?_, insert_eq_error hvalidate⟩
      . simp only [Change.result, hvalidate, liftViolation]
      . simp only [Change.accepted, hvalidate]
  | loadBuiltin => exact .inl ⟨rfl, exists_insertAll Builtin.validate_of_mem_all s⟩

inductive Origin where
  | empty
  | builtin

namespace Origin

def store : Origin → Except Error Store
  | .empty => .ok .empty
  | .builtin => withBuiltin

def templates : Origin → List Template
  | .empty => []
  | .builtin => Builtin.all

theorem exists_store (o : Origin) : ∃ s, o.store = .ok s ∧ Remembers o.templates s := by
  cases o with
  | empty => exact ⟨.empty, rfl, remembers_empty⟩
  | builtin =>
    obtain ⟨s, hload, hs⟩ := exists_insertAll Builtin.validate_of_mem_all .empty
    exact ⟨s, hload, hs [] remembers_empty⟩

end Origin

/--
A handle on one of several stores. Its clones are the handles on the same store.
-/
structure Handle where
  store : Nat
  clone : Nat

end Store

abbrev Stores := Nat → Store

namespace Stores

open Store

def sees (stores : Stores) (h : Handle) : Store := stores h.store

def perform (stores : Stores) (h : Handle) (c : Change) : Except Error Unit × Stores :=
  match (sees stores h).change c with
  | .ok s => (.ok (), Function.update stores h.store s)
  | .error e => (.error e, stores)

def run (stores : Stores) : List (Handle × Change) → List (Except Error Unit) × Stores
  | [] => ([], stores)
  | (h, c) :: steps =>
    let performed := perform stores h c
    let others := run performed.2 steps
    (performed.1 :: others.1, others.2)

def stored (n : Nat) (step : Handle × Change) : List Template :=
  if step.1.store = n then step.2.accepted else []

def everStored (origins : Nat → Origin) (n : Nat) (steps : List (Handle × Change))
    : List Template :=
  (origins n).templates ++ steps.flatMap (stored n)

inductive Performs (stores : Stores) (h : Handle) (c : Change)
    : Except Error Unit × Stores → Prop where
  | accepted (s : Store) (hresult : c.result = .ok ())
    : Performs stores h c (.ok (), Function.update stores h.store s)
  | refused (e : Error) (hresult : c.result = .error e) : Performs stores h c (.error e, stores)

theorem performs_perform (stores : Stores) (h : Handle) (c : Change)
    : Performs stores h c (perform stores h c) := by
  unfold perform
  cases change_cases (sees stores h) c with
  | inl haccepted =>
    obtain ⟨hresult, s, hchange, -⟩ := haccepted
    rw [hchange]
    exact .accepted s hresult
  | inr hrefused =>
    obtain ⟨e, hresult, -, hchange⟩ := hrefused
    rw [hchange]
    exact .refused e hresult

theorem Performs.fst_eq {stores : Stores} {h : Handle} {c : Change}
    {performed : Except Error Unit × Stores} (hperforms : Performs stores h c performed)
    : performed.1 = c.result := by
  cases hperforms with
  | accepted s hresult => exact hresult.symm
  | refused e hresult => exact hresult.symm

theorem remembers_perform {stores : Stores} {histories : Nat → List Template}
    (hstores : ∀ n, Remembers (histories n) (stores n)) (h : Handle) (c : Change) (n : Nat)
    : Remembers (histories n ++ stored n (h, c)) ((perform stores h c).2 n) := by
  unfold perform stored
  cases change_cases (sees stores h) c with
  | inl haccepted =>
    obtain ⟨-, s, hchange, hs⟩ := haccepted
    rw [hchange]
    dsimp only
    -- Of all the stores, only the one that the handle is on has grown.
    split
    . next hn =>
      subst hn
      rw [Function.update_self]
      exact hs _ (hstores h.store)
    . next hn =>
      rw [Function.update_of_ne (Ne.symm hn), List.append_nil]
      exact hstores n
  | inr hrefused =>
    obtain ⟨e, -, haccepted, hchange⟩ := hrefused
    rw [hchange, haccepted, ite_self, List.append_nil]
    exact hstores n

theorem run_eq {stores : Stores} {histories : Nat → List Template}
    (hstores : ∀ n, Remembers (histories n) (stores n)) (steps : List (Handle × Change))
    : (run stores steps).1 = steps.map (fun step => step.2.result) ∧
      ∀ n, Remembers (histories n ++ steps.flatMap (stored n)) ((run stores steps).2 n) := by
  -- Each store has its history, and a step makes one of the histories longer.
  induction steps generalizing stores histories with
  | nil =>
    refine ⟨rfl, ?_⟩
    intro n
    rw [List.flatMap_nil, List.append_nil]
    exact hstores n
  | cons step steps ih =>
    obtain ⟨h, c⟩ := step
    obtain ⟨hresults, hremembers⟩ := ih (remembers_perform hstores h c)
    have hresult := (performs_perform stores h c).fst_eq
    unfold run
    dsimp only
    constructor
    . rw [hresults, hresult, List.map_cons]
    . intro n
      rw [List.flatMap_cons, ← List.append_assoc]
      exact hremembers n

structure Serves (s service : Store) : Prop where
  get_eq : ∀ id, service.get id = s.get id
  infos_eq : service.infos =
    s.toList.map fun t => ⟨t.id, t.description, t.pathStyle.text, t.files.length⟩

theorem keeps_run (origins : Nat → Origin)
    : ∃ start : Stores, (∀ n, (origins n).store = .ok (start n)) ∧
        (∀ stores h c, Performs stores h c (perform stores h c)) ∧
        ∀ steps : List (Handle × Change),
          (run start steps).1 = steps.map (fun step => step.2.result) ∧
          ∀ h : Handle,
            (sees (run start steps).2 h).Keeps (everStored origins h.store steps) ∧
            ∀ clone,
              Serves (sees (run start steps).2 h) (sees (run start steps).2 { h with clone }) := by
  -- What the stores remember is kept by each step, and what can be asked of them follows from it.
  choose start hstore hstart using fun n => (origins n).exists_store
  refine ⟨start, hstore, performs_perform, ?_⟩
  intro steps
  obtain ⟨hresults, hremembers⟩ := run_eq hstart steps
  refine ⟨hresults, ?_⟩
  intro h
  exact ⟨(hremembers h.store).keeps, fun clone => ⟨fun id => rfl, rfl⟩⟩

end Stores

end RunnerKit
