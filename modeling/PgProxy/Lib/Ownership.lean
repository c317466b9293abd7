import Mathlib.Data.Finmap

/-!
# Maps whose entries are owned

Processes share a finite map, and each of them owns at most one entry. The map is owned
when it holds exactly the owned entries and no key has two owners. Taking a free key and
giving up one's own keep a map owned; a map without owners is empty. A process that owns a
list of entries is an owner for each place of its list, and takes and gives up entries at the
end of it (`push`, `pop`).
-/

namespace PgProxy
set_option autoImplicit false

universe u
variable {ι : Type u} {K V : Type} [DecidableEq K]

structure Owned (m : Finmap fun _ : K => V) (owner : ι → Option (K × V)) : Prop where
  entries : ∀ k v, m.lookup k = some v ↔ ∃ i, owner i = some (k, v)
  unique : ∀ {i j k v w}, owner i = some (k, v) → owner j = some (k, w) → i = j

namespace Owned
variable {m : Finmap fun _ : K => V} {owner : ι → Option (K × V)}

theorem lookup_of_owner (h : Owned m owner) {i : ι} {k : K} {v : V}
    (hi : owner i = some (k, v)) : m.lookup k = some v := (h.entries k v).mpr ⟨i, hi⟩

theorem empty : Owned (∅ : Finmap fun _ : K => V) fun _ : ι => none :=
  ⟨by simp, by simp⟩

theorem eq_empty (h : Owned m owner) (hnone : ∀ i, owner i = none) : m = ∅ := by
  apply Finmap.ext_lookup
  intro k
  rw [Finmap.lookup_empty]
  cases hk : m.lookup k with
  | none => rfl
  | some v =>
    obtain ⟨i, hi⟩ := (h.entries k v).mp hk
    simp [hnone i] at hi

variable [DecidableEq ι]

theorem insert (h : Owned m owner) {i : ι} (hi : owner i = none) {k : K}
    (hk : m.lookup k = none) (v : V) :
    Owned (m.insert k v) (Function.update owner i (some (k, v))) := by
  -- A free key is in nobody's entry; this settles both fields.
  have hfree : ∀ {j w}, owner j ≠ some (k, w) := by
    intro j w hj
    rw [h.lookup_of_owner hj] at hk
    simp at hk
  constructor
  · intro k' v'
    by_cases hkk : k' = k
    · subst hkk
      rw [Finmap.lookup_insert]
      constructor
      · intro hv
        exact ⟨i, by rw [Function.update_self, Option.some.inj hv]⟩
      · rintro ⟨j, hj⟩
        by_cases hij : j = i
        · subst hij
          rw [Function.update_self] at hj
          rw [(Prod.mk.inj (Option.some.inj hj)).2]
        · rw [Function.update_of_ne hij] at hj
          exact absurd hj hfree
    · rw [Finmap.lookup_insert_of_ne _ hkk, h.entries]
      constructor
      · rintro ⟨j, hj⟩
        refine ⟨j, ?_⟩
        rwa [Function.update_of_ne]
        rintro rfl
        simp [hi] at hj
      · rintro ⟨j, hj⟩
        refine ⟨j, ?_⟩
        rwa [Function.update_of_ne] at hj
        rintro rfl
        rw [Function.update_self] at hj
        exact hkk (Prod.mk.inj (Option.some.inj hj)).1.symm
  · intro j j' k' v' w' hj hj'
    by_cases hij : j = i <;> by_cases hij' : j' = i
    · rw [hij, hij']
    · rw [hij, Function.update_self] at hj
      rw [Function.update_of_ne hij', ← (Prod.mk.inj (Option.some.inj hj)).1] at hj'
      exact absurd hj' hfree
    · rw [hij', Function.update_self] at hj'
      rw [Function.update_of_ne hij, ← (Prod.mk.inj (Option.some.inj hj')).1] at hj
      exact absurd hj hfree
    · rw [Function.update_of_ne hij] at hj
      rw [Function.update_of_ne hij'] at hj'
      exact h.unique hj hj'

theorem erase (h : Owned m owner) {i : ι} {k : K} {v : V} (hi : owner i = some (k, v)) :
    Owned (m.erase k) (Function.update owner i none) := by
  constructor
  · intro k' v'
    by_cases hkk : k' = k
    · subst hkk
      rw [Finmap.lookup_erase]
      constructor
      · simp
      · rintro ⟨j, hj⟩
        by_cases hij : j = i
        · simp [hij] at hj
        · rw [Function.update_of_ne hij] at hj
          exact absurd (h.unique hj hi) hij
    · rw [Finmap.lookup_erase_ne hkk, h.entries]
      constructor
      · rintro ⟨j, hj⟩
        refine ⟨j, ?_⟩
        rwa [Function.update_of_ne]
        rintro rfl
        rw [hi] at hj
        exact hkk (Prod.mk.inj (Option.some.inj hj)).1.symm
      · rintro ⟨j, hj⟩
        refine ⟨j, ?_⟩
        rwa [Function.update_of_ne] at hj
        rintro rfl
        simp at hj
  · intro j j' k' v' w' hj hj'
    by_cases hij : j = i
    · simp [hij] at hj
    · by_cases hij' : j' = i
      · simp [hij'] at hj'
      · rw [Function.update_of_ne hij] at hj
        rw [Function.update_of_ne hij'] at hj'
        exact h.unique hj hj'

/-! ### Lists of entries -/

section Lists
variable {held held' : ι → List (K × V)} {i : ι} {k : K} {v : V}

omit [DecidableEq K] in
theorem getElem?_push (hself : held' i = held i ++ [(k, v)]) (hother : ∀ j ≠ i, held' j = held j) :
    (fun x : ι × Nat => (held' x.1)[x.2]?) =
      Function.update (fun x => (held x.1)[x.2]?) (i, (held i).length) (some (k, v)) := by
  funext x
  obtain ⟨j, n⟩ := x
  by_cases hj : j = i
  · subst hj
    by_cases hn : n = (held j).length
    · subst hn
      rw [Function.update_self, hself]
      simp
    · rw [Function.update_of_ne (by simp [hn]), hself]
      rcases Nat.lt_or_gt_of_ne hn with hlt | hgt
      · rw [List.getElem?_append_left hlt]
      · rw [List.getElem?_eq_none (Nat.le_of_lt hgt), List.getElem?_eq_none]
        simpa using Nat.succ_le_of_lt hgt
  · rw [Function.update_of_ne (by simp [hj]), hother j hj]

theorem push (h : Owned m fun x : ι × Nat => (held x.1)[x.2]?)
    (hself : held' i = held i ++ [(k, v)]) (hother : ∀ j ≠ i, held' j = held j)
    (hk : m.lookup k = none) : Owned (m.insert k v) fun x : ι × Nat => (held' x.1)[x.2]? := by
  rw [getElem?_push hself hother]
  exact h.insert (List.getElem?_eq_none (Nat.le_refl _)) hk v

theorem pop (h : Owned m fun x : ι × Nat => (held x.1)[x.2]?)
    (hself : held i = held' i ++ [(k, v)]) (hother : ∀ j ≠ i, held' j = held j) :
    Owned (m.erase k) fun x : ι × Nat => (held' x.1)[x.2]? := by
  have hgrown := getElem?_push hself fun j hj => (hother j hj).symm
  rw [hgrown] at h
  have hlast : Function.update (fun x : ι × Nat => (held' x.1)[x.2]?) (i, (held' i).length)
      (some (k, v)) (i, (held' i).length) = some (k, v) := Function.update_self ..
  have herased := h.erase hlast
  rwa [Function.update_idem, Function.update_eq_self_iff.mpr] at herased
  exact (List.getElem?_eq_none (Nat.le_refl _)).symm

end Lists

end Owned
end PgProxy
