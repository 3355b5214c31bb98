import LinearSystem.Text.Order
import Mathlib.Data.List.Basic
/-!
The order of texts is linear, so items with different names have one order (`sortByName_eq`).
-/
namespace LinearSystem.Text

theorem precedes_total (first second : List Char) :
    precedes first second = true ∨ precedes second first = true := by
  induction first generalizing second with
  | nil => exact .inl rfl
  | cons a rest ih =>
    cases second with
    | nil => exact .inr rfl
    | cons b others =>
      by_cases same : a = b
      · simpa [precedes, same] using ih others
      · have codes : a.toNat ≠ b.toNat := fun equal => same (Char.toNat_inj.mp equal)
        simp only [precedes, same, Ne.symm same, if_false, decide_eq_true_eq]
        omega

theorem precedes_antisymm {first second : List Char} (before : precedes first second = true)
    (after : precedes second first = true) : first = second := by
  induction first generalizing second with
  | nil =>
    cases second with
    | nil => rfl
    | cons b others => cases after
  | cons a rest ih =>
    cases second with
    | nil => cases before
    | cons b others =>
      by_cases same : a = b
      · subst same
        rw [ih (by simpa [precedes] using before) (by simpa [precedes] using after)]
      · simp only [precedes, same, Ne.symm same, if_false, decide_eq_true_eq] at before after
        omega

theorem precedes_trans {first second third : List Char} (before : precedes first second = true)
    (after : precedes second third = true) : precedes first third = true := by
  induction first generalizing second third with
  | nil => rfl
  | cons a rest ih =>
    cases second with
    | nil => cases before
    | cons b others =>
      cases third with
      | nil => cases after
      | cons c last =>
        -- The first difference of the two steps decides between the outer texts.
        by_cases one : a = b
        · by_cases two : b = c
          · subst one two
            simp only [precedes, if_true] at before after ⊢
            exact ih before after
          · subst one
            simpa [precedes, two] using after
        · by_cases two : b = c
          · subst two
            simpa [precedes, one] using before
          · simp only [precedes, one, two, if_false, decide_eq_true_eq] at before after
            have differs : a ≠ c := by rintro rfl; omega
            simp only [precedes, differs, if_false, decide_eq_true_eq]
            omega

variable {α : Type}

theorem sortByName_perm (items : List (String × α)) : (sortByName items).Perm items :=
  List.mergeSort_perm items _

theorem pairwise_sortByName (items : List (String × α)) :
    (sortByName items).Pairwise fun first second =>
      precedes first.1.toList second.1.toList = true := by
  apply List.pairwise_mergeSort
  · intro first second third before after
    exact precedes_trans before after
  · intro first second
    simpa using precedes_total first.1.toList second.1.toList

theorem lookup_eq_some_iff_mem {items : List (String × α)}
    (distinct : (items.map Prod.fst).Nodup) {name : String} {value : α} :
    items.lookup name = some value ↔ (name, value) ∈ items := by
  induction items with
  | nil => simp
  | cons item rest ih =>
    obtain ⟨other, first⟩ := item
    obtain ⟨absent, distinct⟩ := List.nodup_cons.mp distinct
    rw [List.lookup_cons, List.mem_cons]
    by_cases same : name = other
    · subst same
      have single : (name, value) ∉ rest := fun member =>
        absent (List.mem_map.mpr ⟨_, member, rfl⟩)
      simp [single, eq_comm]
    · have differs : (name == other) = false := beq_eq_false_iff_ne.mpr same
      simpa [differs, same] using ih distinct

/-- Among items with different names, a name has one item. -/
theorem eq_of_name_eq {items : List (String × α)} (distinct : (items.map Prod.fst).Nodup)
    {first second : String × α} (one : first ∈ items) (two : second ∈ items)
    (same : first.1 = second.1) : first = second := by
  have value := (lookup_eq_some_iff_mem distinct).mpr one
  have value' := (lookup_eq_some_iff_mem distinct).mpr two
  rw [same] at value
  exact Prod.ext same (Option.some.inj (value.symm.trans value'))

/-- The order of items with different names does not depend on the order that they come in. -/
theorem sortByName_eq {items others : List (String × α)}
    (distinct : (items.map Prod.fst).Nodup) (same : items.Perm others) :
    sortByName items = sortByName others := by
  apply List.Perm.eq_of_pairwise _ (pairwise_sortByName items) (pairwise_sortByName others)
  · exact (sortByName_perm items).trans (same.trans (sortByName_perm others).symm)
  · intro first second one two before after
    have names := precedes_antisymm before after
    apply eq_of_name_eq distinct _ _ (String.toList_inj.mp names)
    · exact (sortByName_perm items).subset one
    · exact same.symm.subset ((sortByName_perm others).subset two)

theorem lookup_eq_of_perm {items others : List (String × α)}
    (distinct : (items.map Prod.fst).Nodup) (same : items.Perm others) (name : String) :
    items.lookup name = others.lookup name := by
  have distinct' : (others.map Prod.fst).Nodup := (same.map Prod.fst).nodup_iff.mp distinct
  apply Option.ext
  intro value
  rw [lookup_eq_some_iff_mem distinct, lookup_eq_some_iff_mem distinct']
  exact same.mem_iff

end LinearSystem.Text
