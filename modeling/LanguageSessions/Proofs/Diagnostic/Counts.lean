import LanguageSessions.Diagnostic.Counts
import Mathlib.Algebra.BigOperators.Group.List.Basic

/-!
# Laws of counts

Counts are added and subtracted severity by severity, and form a commutative group under that. The counts of a list are
the sum over its diagnostics (`ofList_eq_sum`), and none of them is negative (`nonneg_ofList`).
-/

namespace LanguageSessions.SeverityCounts

/-! ## The group of counts -/

instance : Neg SeverityCounts := ⟨fun a => ⟨-a.errors, -a.warnings, -a.info, -a.hints⟩⟩

/-- Counts are equal severity by severity. -/
theorem eq_of_fields {a b : SeverityCounts} (errors : a.errors = b.errors) (warnings : a.warnings = b.warnings)
    (info : a.info = b.info) (hints : a.hints = b.hints) : a = b := by
  cases a
  cases b
  subst errors warnings info hints
  rfl

instance : AddCommGroup SeverityCounts where
  add_assoc a b c := eq_of_fields (add_assoc ..) (add_assoc ..) (add_assoc ..) (add_assoc ..)
  zero_add a := eq_of_fields (zero_add _) (zero_add _) (zero_add _) (zero_add _)
  add_zero a := eq_of_fields (add_zero _) (add_zero _) (add_zero _) (add_zero _)
  add_comm a b := eq_of_fields (add_comm ..) (add_comm ..) (add_comm ..) (add_comm ..)
  neg_add_cancel a :=
    eq_of_fields (neg_add_cancel _) (neg_add_cancel _) (neg_add_cancel _) (neg_add_cancel _)
  sub_eq_add_neg a b :=
    eq_of_fields (sub_eq_add_neg ..) (sub_eq_add_neg ..) (sub_eq_add_neg ..) (sub_eq_add_neg ..)
  nsmul := nsmulRec
  zsmul := zsmulRec

/-! ## Counts of lists -/

/-- The counts of a list are the sum over its diagnostics. -/
theorem ofList_eq_sum (diagnostics : List Diagnostic) :
    ofList diagnostics = (diagnostics.map fun diagnostic => one diagnostic.severity).sum := by
  rw [ofList, List.sum_eq_foldl, List.foldl_map]

/-- No count is negative. -/
def Nonneg (counts : SeverityCounts) : Prop :=
  0 ≤ counts.errors ∧ 0 ≤ counts.warnings ∧ 0 ≤ counts.info ∧ 0 ≤ counts.hints

theorem nonneg_one (severity : Severity) : (one severity).Nonneg := by
  cases severity <;> simp [Nonneg, one]

theorem Nonneg.add {a b : SeverityCounts} (ha : a.Nonneg) (hb : b.Nonneg) : (a + b).Nonneg := by
  obtain ⟨he, hw, hi, hh⟩ := ha
  obtain ⟨he', hw', hi', hh'⟩ := hb
  exact ⟨Int.add_nonneg he he', Int.add_nonneg hw hw', Int.add_nonneg hi hi', Int.add_nonneg hh hh'⟩

theorem nonneg_sum {all : List SeverityCounts} (h : ∀ counts ∈ all, counts.Nonneg) : all.sum.Nonneg := by
  induction all with
  | nil => exact ⟨Int.le_refl 0, Int.le_refl 0, Int.le_refl 0, Int.le_refl 0⟩
  | cons counts rest ih =>
    rw [List.forall_mem_cons] at h
    rw [List.sum_cons]
    exact h.1.add (ih h.2)

theorem nonneg_ofList (diagnostics : List Diagnostic) : (ofList diagnostics).Nonneg := by
  rw [ofList_eq_sum]
  refine nonneg_sum fun counts hc => ?_
  obtain ⟨diagnostic, -, rfl⟩ := List.mem_map.1 hc
  exact nonneg_one diagnostic.severity

end LanguageSessions.SeverityCounts
