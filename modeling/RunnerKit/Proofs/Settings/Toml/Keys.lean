import Mathlib.Data.List.Infix
import Mathlib.Data.List.Nodup
import Mathlib.Data.Option.Basic
import RunnerKit.Proofs.Settings.Layers
import RunnerKit.Proofs.Text.Reader
/-!
This module contains the fact that no table of a TOML document has a key twice. Whatever is put into
a table while it is read goes to a place of its own, or replaces what was there under its name.
-/

namespace RunnerKit.Settings

inductive Value.Tidy : Value → Prop where
  | nothing : Tidy .nothing
  | flag (b : Bool) : Tidy (.flag b)
  | integer (n : Int) : Tidy (.integer n)
  | number (x : Binary64) : Tidy (.number x)
  | text (s : String) : Tidy (.text s)
  | list {values : List Value} (hvalues : ∀ value ∈ values, Tidy value) : Tidy (.list values)
  | table {entries : Entries} (hkeys : (entries.map Prod.fst).Nodup)
      (hvalues : ∀ entry ∈ entries, Tidy entry.2)
    : Tidy (.table entries)

namespace Value.Tidy

variable {v : Value} {entries : Entries} {values : List Value} {key : String}

theorem nil : Tidy (.table []) := .table List.nodup_nil (by simp)

theorem nodup_keys (h : Tidy (.table entries)) : (entries.map Prod.fst).Nodup := by
  cases h with
  | table hkeys => exact hkeys

theorem of_mem (h : Tidy (.table entries)) {entry : String × Value} (hentry : entry ∈ entries)
    : Tidy entry.2 := by
  cases h with
  | table _ hvalues => exact hvalues entry hentry

theorem of_mem_list (h : Tidy (.list values)) (hv : v ∈ values) : Tidy v := by
  cases h with
  | list hvalues => exact hvalues v hv

theorem put (h : Tidy (.table entries)) (hv : Tidy v) : Tidy (.table (entries.put key v)) := by
  refine .table (Entries.nodup_keys_put h.nodup_keys) fun entry hentry => ?_
  cases Entries.mem_put hentry with
  | inl hnew =>
    rw [hnew]
    exact hv
  | inr hold => exact h.of_mem hold

end Value.Tidy

namespace Toml

variable {v : Value} {nodes nodes' : Nodes} {names : List String}

theorem entriesOf_put (name : String) (node : Node) (nodes : Nodes)
    : entriesOf (nodes.put name node) = (entriesOf nodes).put name node.toValue := by
  induction nodes with
  | nil => rfl
  | cons entry nodes ih =>
    obtain ⟨other, old⟩ := entry
    rw [Nodes.put, entriesOf, Entries.put]
    split
    . rw [entriesOf]
    . rw [entriesOf, ih]

theorem mem_entriesOf {name : String} {node : Node} (h : nodes.lookup name = some node)
    : (name, node.toValue) ∈ entriesOf nodes := by
  induction nodes with
  | nil => cases h
  | cons entry nodes ih =>
    obtain ⟨other, old⟩ := entry
    rw [lookup_cons_ite] at h
    rw [entriesOf]
    split at h
    . next hname =>
      cases h
      rw [hname]
      exact List.mem_cons_self
    . exact List.mem_cons_of_mem _ (ih h)

theorem valuesOf_eq_map (items : List Nodes)
    : valuesOf items = items.map fun nodes => .table (entriesOf nodes) := by
  induction items with
  | nil => rfl
  | cons nodes items ih => rw [valuesOf, ih, List.map_cons]

namespace Nodes

def Tidy (nodes : Nodes) : Prop := (Value.table (entriesOf nodes)).Tidy

namespace Tidy

theorem nil : Tidy [] := Value.Tidy.nil

theorem put (h : Tidy nodes) {name : String} {node : Node} (hnode : node.toValue.Tidy)
    : Tidy (nodes.put name node) := by
  rw [Tidy, entriesOf_put]
  exact Value.Tidy.put h hnode

theorem of_lookup (h : Tidy nodes) {name : String} {node : Node} (hnode : nodes.lookup name = some node)
    : node.toValue.Tidy :=
  h.of_mem (mem_entriesOf hnode)

theorem toValue_table {inner : Nodes} (h : Tidy inner) (origin : Origin)
    : (Node.table origin inner).toValue.Tidy := by
  rw [Node.toValue]
  exact h

theorem of_table {origin : Origin} {inner : Nodes} (h : (Node.table origin inner).toValue.Tidy)
    : Tidy inner := by
  rw [Node.toValue] at h
  exact h

theorem toValue_tables {items : List Nodes} (h : ∀ item ∈ items, Tidy item)
    : (Node.tables items).toValue.Tidy := by
  rw [Node.toValue, valuesOf_eq_map]
  exact .list (List.forall_mem_map.mpr h)

theorem of_tables {items : List Nodes} (h : (Node.tables items).toValue.Tidy)
    : ∀ item ∈ items, Tidy item := by
  rw [Node.toValue, valuesOf_eq_map] at h
  exact fun item hitem => h.of_mem_list (List.mem_map_of_mem hitem)

theorem insert (h : Tidy nodes) (hv : v.Tidy) (hinsert : nodes.insert v names = some nodes')
    : Tidy nodes' := by
  have hvalue : (Node.value v).toValue.Tidy := by
    rw [Node.toValue]
    exact hv
  fun_induction Nodes.insert v names nodes generalizing nodes' with
  | case1 => cases hinsert
  | case2 => cases hinsert
  | case3 =>
    cases hinsert
    exact h.put hvalue
  | case4 nodes name next names _ ih =>
    obtain ⟨inner, hinner, heq⟩ := Option.bind_eq_some_iff.mp hinsert
    cases heq
    exact h.put (toValue_table (ih nil hinner) _)
  | case5 nodes name next names origin inner hlookup ih =>
    obtain ⟨_, _, hinsert⟩ := Option.bind_eq_some_iff.mp hinsert
    obtain ⟨inner', hinner, heq⟩ := Option.bind_eq_some_iff.mp hinsert
    cases heq
    exact h.put (toValue_table (ih (of_table (h.of_lookup hlookup)) hinner) _)
  | case6 => cases hinsert

theorem alter {change : Nodes → Option Nodes}
    (hchange : ∀ nodes nodes', Tidy nodes → change nodes = some nodes' → Tidy nodes')
    (h : Tidy nodes) (halter : nodes.alter change names = some nodes') : Tidy nodes' := by
  fun_induction Nodes.alter change names nodes generalizing nodes' with
  | case1 nodes => exact hchange nodes nodes' h halter
  | case2 nodes name names _ ih =>
    obtain ⟨inner, hinner, heq⟩ := Option.bind_eq_some_iff.mp halter
    cases heq
    exact h.put (toValue_table (ih nil hinner) _)
  | case3 nodes name names origin inner hlookup ih =>
    obtain ⟨inner', hinner, heq⟩ := Option.bind_eq_some_iff.mp halter
    cases heq
    exact h.put (toValue_table (ih (of_table (h.of_lookup hlookup)) hinner) _)
  | case4 nodes name names items hlookup ih =>
    obtain ⟨current, hcurrent, halter⟩ := Option.bind_eq_some_iff.mp halter
    obtain ⟨current', hcurrent', heq⟩ := Option.bind_eq_some_iff.mp halter
    cases heq
    have hitems := of_tables (h.of_lookup hlookup)
    apply h.put (toValue_tables (List.forall_mem_append.mpr ⟨?_, ?_⟩))
    . exact fun item hitem => hitems item (List.mem_of_mem_dropLast hitem)
    . rw [List.forall_mem_singleton]
      exact ih current (hitems current (List.mem_of_getLast? hcurrent)) hcurrent'
  | case5 => cases halter

theorem openTable (h : Tidy nodes) {name : String} (hopen : nodes.openTable name = some nodes')
    : Tidy nodes' := by
  unfold Nodes.openTable at hopen
  split at hopen
  . cases hopen
    exact h.put (toValue_table nil _)
  . next hlookup =>
    cases hopen
    exact h.put (toValue_table (of_table (h.of_lookup hlookup)) _)
  . cases hopen

theorem openItem (h : Tidy nodes) {name : String} (hopen : nodes.openItem name = some nodes')
    : Tidy nodes' := by
  unfold Nodes.openItem at hopen
  split at hopen
  . cases hopen
    exact h.put (toValue_tables (List.forall_mem_singleton.mpr nil))
  . next hlookup =>
    cases hopen
    apply h.put (toValue_tables (List.forall_mem_append.mpr ⟨?_, ?_⟩))
    . exact of_tables (h.of_lookup hlookup)
    . exact List.forall_mem_singleton.mpr nil
  . cases hopen

end Tidy

end Nodes

open Reader

theorem tidy_of_bareValue? {cs : List Char} (h : bareValue? cs = some v) : v.Tidy := by
  unfold bareValue? at h
  split at h
  . cases h
    exact .flag true
  . split at h
    . cases h
      exact .flag false
    . simp only [Option.orElse_eq_orElse, Option.orElse_eq_or, Option.or_eq_some_iff,
        Option.map_eq_some_iff] at h
      obtain ⟨n, _, rfl⟩ | ⟨_, ⟨x, _, rfl⟩ | ⟨_, cs, _, rfl⟩⟩ := h
      . exact .integer n
      . exact .number x
      . exact .text _

theorem bare_yields : Yields bare Value.Tidy := by
  have hbare (cs : List Char) : Yields (liftM (bareValue? cs)) Value.Tidy :=
    .ofOption fun v hv => tidy_of_bareValue? hv
  rw [bare]
  refine .bind fun first => .bind fun rest => ?_
  split
  . exact .ite (.bind fun _ => .bind fun _ => hbare _) (hbare _)
  . exact hbare _

theorem value_yields (fuel : Nat)
    : (∀ nesting, Yields (value nesting fuel) Value.Tidy) ∧
      (∀ nesting, Yields (values nesting fuel) fun values => ∀ v ∈ values, v.Tidy) ∧
      ∀ nesting nodes, nodes.Tidy → Yields (members nesting nodes fuel) Nodes.Tidy := by
  -- Values, lists and tables lie in one another, so one induction speaks of all three.
  induction fuel with
  | zero =>
    refine ⟨fun nesting => ?_, fun nesting => ?_, fun nesting nodes _ => ?_⟩
    . rw [value]
      exact .failure
    . rw [values]
      exact .failure
    . rw [members]
      exact .failure
  | succ fuel ih =>
    obtain ⟨hvalue, hvalues, hmembers⟩ := ih
    refine ⟨fun nesting => ?_, fun nesting => ?_, fun nesting nodes hnodes => ?_⟩
    . rw [value]
      refine .bind fun c? => ?_
      split
      . exact .bind fun s => .pure (.text s)
      . exact .bind fun s => .pure (.text s)
      . refine .bind fun _ => .bind fun _ => ?_
        exact .bind_of (hvalues _) fun values h => .pure (.list h)
      . refine .bind fun _ => .bind fun _ => ?_
        exact .bind_of (hmembers _ [] .nil) fun nodes h => .pure h
      . exact bare_yields
    . rw [values]
      refine .bind fun _ => .bind fun _ => .bind fun atEnd => ?_
      refine .ite (.pure (by simp)) ?_
      refine .bind_of (hvalue _) fun first hfirst => .bind fun _ => .bind fun _ => .bind fun more => ?_
      refine .ite (.bind_of (hvalues _) fun rest hrest => .pure ?_) (.bind fun _ => .pure ?_)
      . exact List.forall_mem_cons.mpr ⟨hfirst, hrest⟩
      . exact List.forall_mem_singleton.mpr hfirst
    . rw [members]
      refine .bind fun _ => .bind fun _ => .bind fun atEnd => .ite (.pure hnodes) ?_
      refine .bind fun _ => .bind fun names => .bind fun _ => .bind fun _ => ?_
      refine .bind_of (hvalue _) fun v hv => ?_
      refine .bind_of (.ofOption fun nodes' hinsert => hnodes.insert hv hinsert) fun nodes' hnodes' => ?_
      refine .bind fun _ => .bind fun _ => .bind fun more => ?_
      exact .ite (hmembers _ nodes' hnodes') (.bind fun _ => .pure hnodes')

namespace Nodes

structure Stable (P : Nodes → Prop) : Prop where
  member : ∀ {nodes nodes' : Nodes} {v : Value} {names header : List String}, v.Tidy → P nodes →
    nodes.alter (·.insert v names) header = some nodes' → P nodes'
  header : ∀ {nodes nodes' : Nodes} {repeated : Bool} {name : String} {header : List String},
    P nodes → nodes.alter (if repeated then (·.openItem name) else (·.openTable name)) header =
      some nodes' → P nodes'

theorem Tidy.stable : Stable Tidy where
  member hv h halter := h.alter (fun _ _ hnodes hinsert => hnodes.insert hv hinsert) halter
  header {_ _ repeated _ _} h halter := by
    refine h.alter (fun nodes nodes' hnodes hopen => ?_) halter
    cases repeated with
    | true => exact hnodes.openItem hopen
    | false => exact hnodes.openTable hopen

theorem lookup_put (nodes : Nodes) (name : String) (node : Node) (other : String)
    : (nodes.put name node).lookup other = if other = name then some node else nodes.lookup other := by
  induction nodes with
  | nil => exact lookup_cons_ite name other node []
  | cons entry nodes ih =>
    obtain ⟨first, old⟩ := entry
    rw [put]
    split
    . next hfirst =>
      rw [hfirst, lookup_cons_ite, lookup_cons_ite]
      split <;> rfl
    . next hfirst =>
      rw [lookup_cons_ite, lookup_cons_ite, ih]
      split
      . next hother => rw [if_neg (by rw [hother]; exact hfirst)]
      . rfl

inductive Grows (nodes : Nodes) : Nodes → Prop where
  | put {name : String} (node : Node) (hname : ∀ v, nodes.lookup name ≠ some (.value v))
    : Grows nodes (nodes.put name node)

namespace Grows

theorem put_of_lookup {name : String} {old? : Option Node} (hname : nodes.lookup name = old?)
    (hold : ∀ v, old? ≠ some (.value v)) (node : Node) : Grows nodes (nodes.put name node) :=
  .put node fun v => by rw [hname]; exact hold v

theorem lookup_eq (h : Grows nodes nodes') {name : String} (hname : nodes.lookup name = some (.value v))
    : nodes'.lookup name = some (.value v) := by
  cases h with
  | @put other node hother =>
    rw [lookup_put, if_neg, hname]
    rintro rfl
    exact hother v hname

theorem of_insert (hinsert : nodes.insert v names = some nodes') : Grows nodes nodes' := by
  revert hinsert
  fun_cases Nodes.insert v names nodes with
  | case1 | case2 | case6 => nofun
  | case3 name nodes hname =>
    intro hinsert
    cases hinsert
    rw [Option.not_isSome_iff_eq_none] at hname
    exact put_of_lookup hname nofun _
  | case4 name next names nodes hname =>
    intro hinsert
    obtain ⟨inner, _, heq⟩ := Option.bind_eq_some_iff.mp hinsert
    cases heq
    exact put_of_lookup hname nofun _
  | case5 name next names nodes origin inner hname =>
    intro hinsert
    obtain ⟨_, _, hinsert⟩ := Option.bind_eq_some_iff.mp hinsert
    obtain ⟨inner', _, heq⟩ := Option.bind_eq_some_iff.mp hinsert
    cases heq
    exact put_of_lookup hname nofun _

theorem of_openTable {name : String} (hopen : nodes.openTable name = some nodes')
    : Grows nodes nodes' := by
  unfold openTable at hopen
  split at hopen
  . next hname =>
    cases hopen
    exact put_of_lookup hname nofun _
  . next hname =>
    cases hopen
    exact put_of_lookup hname nofun _
  . cases hopen

theorem of_openItem {name : String} (hopen : nodes.openItem name = some nodes')
    : Grows nodes nodes' := by
  unfold openItem at hopen
  split at hopen
  . next hname =>
    cases hopen
    exact put_of_lookup hname nofun _
  . next hname =>
    cases hopen
    exact put_of_lookup hname nofun _
  . cases hopen

theorem of_alter {change : Nodes → Option Nodes}
    (hchange : ∀ nodes nodes', change nodes = some nodes' → Grows nodes nodes')
    (halter : nodes.alter change names = some nodes') : Grows nodes nodes' := by
  revert halter
  fun_cases Nodes.alter change names nodes with
  | case1 => exact hchange nodes nodes'
  | case2 name names nodes hname =>
    intro halter
    obtain ⟨inner, _, heq⟩ := Option.bind_eq_some_iff.mp halter
    cases heq
    exact put_of_lookup hname nofun _
  | case3 name names nodes origin inner hname =>
    intro halter
    obtain ⟨inner', _, heq⟩ := Option.bind_eq_some_iff.mp halter
    cases heq
    exact put_of_lookup hname nofun _
  | case4 name names nodes items hname =>
    intro halter
    obtain ⟨current, _, halter⟩ := Option.bind_eq_some_iff.mp halter
    obtain ⟨current', _, heq⟩ := Option.bind_eq_some_iff.mp halter
    cases heq
    exact put_of_lookup hname nofun _
  | case5 => nofun

end Grows

theorem stable_lookup (name : String) (v : Value)
    : Stable fun nodes => nodes.lookup name = some (.value v) where
  member _ h halter := (Grows.of_alter (fun _ _ => .of_insert) halter).lookup_eq h
  header {_ _ repeated _ _} h halter := by
    refine (Grows.of_alter (fun nodes nodes' hopen => ?_) halter).lookup_eq h
    cases repeated with
    | true => exact .of_openItem hopen
    | false => exact .of_openTable hopen

end Nodes

namespace Document

variable {P : Nodes → Prop} (hP : Nodes.Stable P) {d : Document} (h : P d.nodes)
include hP h

theorem readHeader_yields : Yields d.readHeader fun d => P d.nodes := by
  rw [readHeader]
  refine .bind fun repeated => .bind fun _ => .bind fun names => .bind fun _ => .bind fun name => ?_
  refine .bind_of (Q := P) (.ofOption fun nodes' halter => hP.header h halter) ?_
  exact fun nodes' hnodes' => .pure hnodes'

theorem readMember_yields : Yields d.readMember fun d => P d.nodes := by
  rw [readMember]
  refine .bind fun _ => .bind fun names => .bind fun _ => .bind fun _ => .bind fun _ => ?_
  refine .bind_of ((value_yields _).1 _) fun v hv => ?_
  refine .bind_of (Q := P) (.ofOption fun nodes' halter => hP.member hv h halter) ?_
  exact fun nodes' hnodes' => .pure hnodes'

theorem readLines_yields (fuel : Nat) : Yields (d.readLines fuel) fun d => P d.nodes := by
  induction fuel generalizing d with
  | zero => exact .failure
  | succ fuel ih =>
    rw [readLines]
    refine .bind fun _ => .bind fun _ => .bind fun c? => ?_
    split
    . exact .pure h
    . refine .bind fun _ => .bind_of (readHeader_yields hP h) fun d' hd' => .bind fun _ => ih hd'
    . exact .bind_of (readMember_yields hP h) fun d' hd' => .bind fun _ => ih hd'

end Document

theorem tidy_of_read? {cs : List Char} {entries : Entries} (h : read? cs = some entries)
    : (Value.table entries).Tidy := by
  obtain ⟨d, hd, heq⟩ := Option.bind_eq_some_iff.mp h
  cases heq
  exact (Document.readLines_yields Nodes.Tidy.stable (d := {}) Nodes.Tidy.nil _).readAll? hd

end Toml

end RunnerKit.Settings
