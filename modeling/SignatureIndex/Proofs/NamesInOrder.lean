import Mathlib.Data.List.Sort

/-!
# Names in order

Wherever names come from a table or a directory, they are told in order and each once.  So what is
told does not depend on the order in which the names are come upon: there is only one strictly
increasing row of the same names.
-/

namespace SignatureIndex

theorem nodup_eraseDups {α : Type} [BEq α] [LawfulBEq α] (values : List α) :
    values.eraseDups.Nodup := by
  cases values with
  | nil => simp
  | cons value values =>
    rw [List.eraseDups_cons, List.nodup_cons]
    refine ⟨fun among => ?_, nodup_eraseDups _⟩
    -- what is kept of the rest is not the first value
    have kept := (List.mem_filter.mp (List.mem_eraseDups.mp among)).2
    simp at kept
termination_by values.length
decreasing_by exact Nat.lt_succ_of_le (List.length_filter_le _ _)

/-- Names are told in order: all of them and nothing else, one strictly before the other. -/
theorem eq_inOrder_iff {sorted names : List String} :
    sorted = names.eraseDups.mergeSort (fun a b => decide (a ≤ b)) ↔
      (∀ name, name ∈ sorted ↔ name ∈ names) ∧ sorted.Pairwise (· < ·) := by
  have listed : ∀ name, name ∈ names.eraseDups.mergeSort (fun a b => decide (a ≤ b)) ↔
      name ∈ names := by
    intro name
    rw [List.mem_mergeSort, List.mem_eraseDups]
  have increasing : (names.eraseDups.mergeSort fun a b => decide (a ≤ b)).Pairwise (· < ·) := by
    have once :=
      (List.mergeSort_perm names.eraseDups fun a b => decide (a ≤ b)).nodup_iff.mpr
      (nodup_eraseDups names)
    refine (List.pairwise_mergeSort' (· ≤ ·) names.eraseDups).imp₂ ?_ once
    intro a b le ne
    exact Std.lt_of_le_of_ne le ne
  constructor
  · rintro rfl
    exact ⟨listed, increasing⟩
  · rintro ⟨same, strict⟩
    exact strict.eq_of_mem_iff increasing fun name => (same name).trans (listed name).symm

end SignatureIndex
