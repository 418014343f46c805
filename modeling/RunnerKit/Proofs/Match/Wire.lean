import Mathlib.Data.Prod.Basic
import RunnerKit.Match.Wire
import RunnerKit.Proofs.Match.Property
/-!
This module contains what a match loses on the bus. Only the way in which its kind was spelled does
not come back.
-/

namespace RunnerKit

namespace PropertyValue

inductive TravelsAs : PropertyValue → String → WireValue → Prop where
  | text (value : String) : TravelsAs (.text value) "s" (.string value)
  | flag (value : Bool) : TravelsAs (.flag value) "b" (.boolean value)
  | texts (values : List String) : TravelsAs (.texts values) "as" (.strings values)
  | integer (value : Int64) : TravelsAs (.integer value) "x" (.int64 value)
  | number (value : Binary64) : TravelsAs (.number value) "d" (.double value)

theorem travelsAs_iff {value : PropertyValue} {wire : WireValue}
    : TravelsAs value wire.signature wire ↔ value.toWire = wire := by
  constructor
  . intro h
    generalize wire.signature = signature at h
    cases h <;> rfl
  . rintro rfl
    cases value <;> constructor

theorem ofWire_toWire (value : PropertyValue) : ofWire value.toWire = value := by
  cases value <;> rfl

theorem toWire_injective : Function.Injective toWire :=
  Function.LeftInverse.injective ofWire_toWire

end PropertyValue

theorem Relevance.ofNumber_value (r : Relevance) : ofNumber r.value = r := by
  obtain ⟨x, hunit⟩ := r
  simp only [Binary64.isUnit, Bool.and_eq_true, Bool.not_eq_true', decide_eq_true_eq] at hunit
  obtain ⟨⟨hnumber, hlow⟩, hhigh⟩ := hunit
  have hzero : Binary64.zero.rank = 0 := by decide
  have hclamp : x.clampUnit = x := by
    unfold Binary64.clampUnit Binary64.lt
    rw [hzero, decide_eq_false (Int.not_lt.mpr hlow), decide_eq_false (Int.not_lt.mpr hhigh)]
    simp
  unfold ofNumber
  rw [dif_neg (by rw [hnumber]; exact Bool.false_ne_true)]
  simp only [hclamp]

namespace MatchKind

theorem ofCode_code_eq_iff {kind : MatchKind} : ofCode kind.code = kind ↔
    kind ∉ [other 0, other 10, other 30, other 70, other 100] := by
  cases kind with
  | other c =>
    have hcode : (other c).code = c := rfl
    rw [hcode]
    unfold ofCode
    repeat' split
    all_goals simp_all
  | _ => simp [code, ofCode]

end MatchKind

/--
Whether two matches say the same, apart from their kinds. Numbers are the same if all of their bits
are.
-/
structure Match.SaysSame (m n : Match) : Prop where
  id_eq : m.id = n.id
  text_eq : m.text = n.text
  icon_eq : m.icon = n.icon
  relevance_eq : m.relevance.value.bits = n.relevance.value.bits
  property_eq : ∀ key, m.properties.get? key = n.properties.get? key

namespace WireMatch

structure StandsFor (w : WireMatch) (m : Match) : Prop where
  data_eq : w.data = m.id
  text_eq : w.text = m.text
  icon_eq : w.icon = m.icon
  category_eq : w.category = m.kind.code
  relevance_eq : w.relevance.bits = m.relevance.value.bits
  distinct : (w.properties.map Prod.fst).Nodup
  property_iff : ∀ key wire, (key, wire) ∈ w.properties ↔
    ∃ value, m.properties.get? key = some value ∧ value.TravelsAs wire.signature wire

theorem properties_ofMatch (m : Match)
    : (ofMatch m).properties = m.properties.toList.map (Prod.map id PropertyValue.toWire) := rfl

theorem standsFor_ofMatch (m : Match) : (ofMatch m).StandsFor m where
  data_eq := rfl
  text_eq := rfl
  icon_eq := rfl
  category_eq := rfl
  relevance_eq := rfl
  distinct := by
    rw [properties_ofMatch, List.map_map]
    apply m.properties.nodup_keys
  property_iff key wire := by
    simp only [properties_ofMatch, List.mem_map, Prod.exists, Prod.map_apply, id, Prod.mk.injEq,
      PropertyValue.travelsAs_iff, ← Properties.mem_toList_iff]
    constructor
    . rintro ⟨_, value, hmem, rfl, hvalue⟩
      exact ⟨value, hmem, hvalue⟩
    . rintro ⟨value, hmem, hvalue⟩
      exact ⟨key, value, hmem, rfl, hvalue⟩

theorem properties_toMatch (w : WireMatch)
    : (toMatch w).properties =
        .ofEntries (w.properties.map (Prod.map id PropertyValue.ofWire)) := by
  unfold Properties.ofEntries
  rw [List.foldl_map]
  rfl

theorem properties_toMatch_ofMatch (m : Match)
    : (toMatch (ofMatch m)).properties = .ofEntries m.properties.toList := by
  have hback : PropertyValue.ofWire ∘ PropertyValue.toWire = id :=
    funext PropertyValue.ofWire_toWire
  rw [properties_toMatch, properties_ofMatch, List.map_map, Prod.map_comp_map, hback]
  simp

theorem saysSame_toMatch_ofMatch (m : Match) : (toMatch (ofMatch m)).SaysSame m where
  id_eq := rfl
  text_eq := rfl
  icon_eq := rfl
  relevance_eq := by
    have hrelevance : (toMatch (ofMatch m)).relevance = m.relevance := m.relevance.ofNumber_value
    rw [hrelevance]
  property_eq key := by
    apply Option.ext
    intro value
    rw [properties_toMatch_ofMatch, Properties.get?_ofEntries_iff m.properties.nodup_keys,
      Properties.mem_toList_iff]

theorem ofMatch_eq_iff {m n : Match} : ofMatch m = ofMatch n ↔
    m.SaysSame n ∧ m.kind.code = n.kind.code := by
  have hproperties : (ofMatch m).properties = (ofMatch n).properties ↔
      ∀ key, m.properties.get? key = n.properties.get? key := by
    rw [← Properties.toList_eq_iff]
    apply List.map_inj_right
    intro entry other h
    apply Prod.map_injective.mpr ⟨Function.injective_id, PropertyValue.toWire_injective⟩
    exact h
  constructor
  . intro h
    have hrelevance : m.relevance.value = n.relevance.value := congrArg WireMatch.relevance h
    refine ⟨?_, congrArg category h⟩
    constructor
    . exact congrArg data h
    . exact congrArg text h
    . exact congrArg icon h
    . rw [hrelevance]
    . rw [← hproperties, h]
  . rintro ⟨h, hcategory⟩
    have hrelevance : m.relevance.value = n.relevance.value :=
      congrArg Binary64.mk h.relevance_eq
    rw [mk.injEq]
    exact ⟨h.id_eq, h.text_eq, h.icon_eq, hcategory, hrelevance, hproperties.mpr h.property_eq⟩

end WireMatch
end RunnerKit
