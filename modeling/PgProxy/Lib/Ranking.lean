import Mathlib.Data.List.Sort

/-!
# Comparators that rank, and stable sorting by them

A comparator `less` ranks when it is irreflexive and transitive and every element
is comparable with one side of a related pair. Looking at one key first and at
another ranking comparator on a tie ranks again, so a chain of keys ranks, and
two elements tie in the chain exactly when every key of the chain ties. Where
ties are equalities the sorted list does not depend on the order of the input.
-/

namespace PgProxy
set_option autoImplicit false

universe u v
variable {α : Type u} {κ : Type v}

structure Ranks (less : α → α → Prop) : Prop where
  irrefl : ∀ a, ¬ less a a
  trans : ∀ {a b c}, less a b → less b c → less a c
  between : ∀ {a c} (b), less a c → less a b ∨ less b c

def Tied (less : α → α → Prop) (a b : α) : Prop := ¬ less a b ∧ ¬ less b a

theorem Ranks.asymm {less : α → α → Prop} (h : Ranks less) {a b : α} (hab : less a b) :
    ¬ less b a :=
  fun hba => h.irrefl a (h.trans hab hba)

/-- The key decides; a tie of keys is left to the rest. -/
def ByKey (key : α → κ) (lt : κ → κ → Prop) (rest : α → α → Prop) (a b : α) : Prop :=
  lt (key a) (key b) ∨ (key a = key b ∧ rest a b)

section Keys
variable {lt : κ → κ → Prop} [IsStrictTotalOrder κ lt] {rest : α → α → Prop}
variable (key : α → κ)

theorem Ranks.byKey (hrest : Ranks rest) : Ranks (ByKey key lt rest) where
  irrefl := by
    rintro a (h | ⟨-, h⟩)
    · exact irrefl_of lt _ h
    · exact hrest.irrefl a h
  trans := by
    rintro a b c (hab | ⟨eab, hab⟩) (hbc | ⟨ebc, hbc⟩)
    · exact Or.inl (trans_of lt hab hbc)
    · exact Or.inl (ebc ▸ hab)
    · exact Or.inl (eab ▸ hbc)
    · exact Or.inr ⟨eab.trans ebc, hrest.trans hab hbc⟩
  between := by
    rintro a c b (hac | ⟨eac, hac⟩)
    · rcases trichotomous_of lt (key a) (key b) with hab | eab | hba
      · exact Or.inl (Or.inl hab)
      · exact Or.inr (Or.inl (eab ▸ hac))
      · exact Or.inr (Or.inl (trans_of lt hba hac))
    · rcases trichotomous_of lt (key a) (key b) with hab | eab | hba
      · exact Or.inl (Or.inl hab)
      · rcases hrest.between b hac with h | h
        · exact Or.inl (Or.inr ⟨eab, h⟩)
        · exact Or.inr (Or.inr ⟨eab.symm.trans eac, h⟩)
      · exact Or.inr (Or.inl (eac ▸ hba))

theorem tied_byKey {a b : α} (h : Tied (ByKey key lt rest) a b) :
    key a = key b ∧ Tied rest a b := by
  obtain ⟨hab, hba⟩ := h
  rcases trichotomous_of lt (key a) (key b) with hlt | heq | hgt
  · exact absurd (Or.inl hlt) hab
  · exact ⟨heq, fun hr => hab (Or.inr ⟨heq, hr⟩), fun hr => hba (Or.inr ⟨heq.symm, hr⟩)⟩
  · exact absurd (Or.inl hgt) hba

theorem ite_byKey [DecidableEq κ] [DecidableRel lt] {a b : α} {next : Bool}
    (h : next = true ↔ rest a b) :
    (if key a ≠ key b then decide (lt (key a) (key b)) else next) = true ↔
      ByKey key lt rest a b := by
  by_cases hk : key a = key b
  · have hirr : ¬ lt (key b) (key b) := irrefl_of lt _
    simp [ByKey, hk, h, hirr]
  · simp [ByKey, hk]

end Keys

theorem Ranks.never : Ranks (fun _ _ : α => False) :=
  ⟨fun _ h => h, fun h _ => h, fun _ h => Or.inl h⟩

/-- Stable sorting: an element moves before another only if it is less. -/
def sliceStable (less : α → α → Bool) (xs : List α) : List α :=
  xs.insertionSort fun a b => less b a = false

theorem sliceStable_perm (less : α → α → Bool) (xs : List α) : (sliceStable less xs).Perm xs :=
  List.perm_insertionSort _ xs

theorem sliceStable_pairwise {less : α → α → Bool} (h : Ranks fun a b => less a b = true)
    (xs : List α) : (sliceStable less xs).Pairwise fun a b => less b a = false := by
  have htotal : Std.Total fun a b : α => less b a = false := by
    refine ⟨fun a b => ?_⟩
    by_cases hba : less b a = true
    · exact Or.inr (Bool.eq_false_iff.mpr (h.asymm hba))
    · exact Or.inl (Bool.eq_false_iff.mpr hba)
  have htrans : IsTrans α fun a b => less b a = false := by
    refine ⟨fun a b c hab hbc => Bool.eq_false_iff.mpr fun hca => ?_⟩
    rcases h.between b hca with hcb | hba
    · exact absurd hcb (Bool.eq_false_iff.mp hbc)
    · exact absurd hba (Bool.eq_false_iff.mp hab)
  exact List.pairwise_insertionSort _ xs

/-- The first element of a kind in the sorted list has none of its kind before it. -/
theorem sliceStable_find?_min {less : α → α → Bool} (h : Ranks fun a b => less a b = true)
    {xs : List α} {p : α → Bool} {w r : α} (hw : (sliceStable less xs).find? p = some w)
    (hr : r ∈ xs) (hp : p r = true) : less r w = false := by
  obtain ⟨-, before, after, hsplit, hbefore⟩ := List.find?_eq_some_iff_append.mp hw
  have hsorted := sliceStable_pairwise h xs
  have hmem := (sliceStable_perm less xs).symm.subset hr
  rw [hsplit] at hsorted hmem
  rcases List.mem_append.mp hmem with hin | hin
  · have hnot := hbefore r hin
    simp [hp] at hnot
  · rcases List.mem_cons.mp hin with rfl | hin
    · exact Bool.eq_false_iff.mpr (h.irrefl r)
    · exact (List.pairwise_cons.mp (List.pairwise_append.mp hsorted).2.1).1 r hin

/-- Without ties between different elements the sorted list is unique. -/
theorem sliceStable_eq_of_perm {less : α → α → Bool} (h : Ranks fun a b => less a b = true)
    {xs ys : List α} (hp : xs.Perm ys)
    (hties : ∀ a ∈ xs, ∀ b ∈ xs, Tied (fun a b => less a b = true) a b → a = b) :
    sliceStable less xs = sliceStable less ys := by
  have hxs := sliceStable_perm less xs
  have hys := sliceStable_perm less ys
  apply List.Perm.eq_of_pairwise _ (sliceStable_pairwise h xs) (sliceStable_pairwise h ys)
    (hxs.trans (hp.trans hys.symm))
  intro a b ha hb hab hba
  exact hties a (hxs.subset ha) b (hp.symm.subset (hys.subset hb))
    ⟨Bool.eq_false_iff.mp hba, Bool.eq_false_iff.mp hab⟩

end PgProxy
