import Mathlib.Data.List.Nodup
import Decommission.NameMap

/-!
# Maps listed by name

There is one list of the entries of a map in which the names ascend.  So however the entries
come, sorting them by name gives this list (`NameMap.mergeSort_eq`).  It also holds for entries
that are yet to be put into a map, as long as no name comes twice (`NameMap.mergeSort_ofList`).
-/

namespace Decommission

namespace NameMap

variable {α : Type} {m : NameMap α}

theorem mem_names_iff {name : String} : name ∈ m.names ↔ ∃ v, m.get? name = some v := by
  rw [names, List.mem_map]
  constructor
  · rintro ⟨⟨name', v⟩, he, rfl⟩
    exact ⟨v, mem_toList_iff.mp he⟩
  · rintro ⟨v, hv⟩
    exact ⟨(name, v), mem_toList_iff.mpr hv, rfl⟩

theorem nodup_names (m : NameMap α) : m.names.Nodup :=
  List.Pairwise.map _ (fun _ _ hlt heq => String.lt_irrefl _ (heq ▸ hlt)) m.ascending

/-- Sorting the entries by name puts them into the one order there is. -/
theorem mergeSort_eq {es : List (String × α)} (h : es.Perm m.toList) :
    es.mergeSort (fun a b => decide (a.1 ≤ b.1)) = m.toList := by
  have hsorted : (es.mergeSort fun a b => decide (a.1 ≤ b.1)).Pairwise fun a b => a.1 ≤ b.1 := by
    refine (List.pairwise_mergeSort (fun a b c hab hbc => ?_) (fun a b => ?_) es).imp
      of_decide_eq_true
    · exact decide_eq_true (String.le_trans (of_decide_eq_true hab) (of_decide_eq_true hbc))
    · rw [Bool.or_eq_true, decide_eq_true_iff, decide_eq_true_iff]
      exact String.le_total a.1 b.1
  have hascending : m.toList.Pairwise fun a b => a.1 ≤ b.1 :=
    m.ascending.imp fun hlt => String.not_lt.mp (String.lt_asymm hlt)
  refine List.Perm.eq_of_pairwise ?_ hsorted hascending ((List.mergeSort_perm ..).trans h)
  rintro ⟨x, v⟩ ⟨y, w⟩ hv hw hxy hyx
  -- A name has one value only.
  obtain rfl : x = y := String.le_antisymm hxy hyx
  have hmem : (x, v) ∈ m.toList := h.subset ((List.mergeSort_perm ..).subset hv)
  rw [mem_toList_iff] at hmem hw
  rw [Option.some.inj (hmem.symm.trans hw)]

/-- The entries of a map made of pairs with different names are the pairs. -/
theorem perm_ofList {pairs : List (String × α)} (h : (pairs.map (·.1)).Nodup) :
    pairs.Perm (ofList pairs).toList := by
  have hentries : (ofList pairs).toList.Nodup := (nodup_names (ofList pairs)).of_map
  refine (List.perm_ext_iff_of_nodup h.of_map hentries).mpr ?_
  rintro ⟨name, value⟩
  rw [mem_toList_iff, get?_ofList h]

theorem mergeSort_ofList {pairs : List (String × α)} (h : (pairs.map (·.1)).Nodup) :
    pairs.mergeSort (fun a b => decide (a.1 ≤ b.1)) = (ofList pairs).toList :=
  mergeSort_eq (perm_ofList h)

end NameMap

end Decommission
