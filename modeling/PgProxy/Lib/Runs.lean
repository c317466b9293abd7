import Mathlib.Data.List.Basic

/-!
# Runs of a partial step function

`exec step s ls` performs the actions `ls` one after another, and is `none` as
soon as one of them is not enabled. A property of runs is proved by saying what
one step preserves: `exec_invariant` for a property of states, `exec_history` for one
that also looks at the actions taken so far, `exec_always` when the steps are promised
to meet a condition (`exec_history_always` for both), and `exec_lockstep` for two runs that
take related actions; a rank bounds how many actions of a kind a run takes
(`exec_countP_le`), and `Once` speaks about the states that a run has been through.
`exec_erase` forgets what an instrumented program records, and `exec_refines` what a
refined program does on its own. A program that runs by itself is a step without a label;
`drive` lets it run for as long as a fuel lasts.
-/

namespace PgProxy
set_option autoImplicit false

universe u v
variable {σ : Type u} {ℓ : Type v} {step : σ → ℓ → Option σ}

def exec (step : σ → ℓ → Option σ) (s : σ) : List ℓ → Option σ
  | [] => some s
  | l :: ls => (step s l).bind fun t => exec step t ls

theorem exec_cons {s u : σ} {l : ℓ} {ls : List ℓ} :
    exec step s (l :: ls) = some u ↔ ∃ t, step s l = some t ∧ exec step t ls = some u := by
  simp [exec, Option.bind_eq_some_iff]

theorem exec_single {s t : σ} {l : ℓ} (h : step s l = some t) : exec step s [l] = some t :=
  exec_cons.mpr ⟨t, h, rfl⟩

theorem exec_trans {s t u : σ} {ls ls' : List ℓ} (h : exec step s ls = some t)
    (h' : exec step t ls' = some u) : exec step s (ls ++ ls') = some u := by
  induction ls generalizing s with
  | nil => exact Option.some.inj h ▸ h'
  | cons l ls ih =>
    obtain ⟨v, hv, hrest⟩ := exec_cons.mp h
    exact exec_cons.mpr ⟨v, hv, ih hrest⟩

/-- What every step preserves, every run preserves. -/
theorem exec_invariant {I : σ → Prop} (hstep : ∀ {s l t}, I s → step s l = some t → I t)
    {s t : σ} {ls : List ℓ} (hs : I s) (hrun : exec step s ls = some t) : I t := by
  induction ls generalizing s with
  | nil => exact Option.some.inj hrun ▸ hs
  | cons l ls ih =>
    obtain ⟨v, hv, hrest⟩ := exec_cons.mp hrun
    exact ih (hstep hs hv) hrest

/-- The rule for a property of a state and of the actions that led to it. -/
theorem exec_history {I : List ℓ → σ → Prop}
    (hstep : ∀ {past s l t}, I past s → step s l = some t → I (past ++ [l]) t)
    {s t : σ} {ls past : List ℓ} (hs : I past s) (hrun : exec step s ls = some t) :
    I (past ++ ls) t := by
  induction ls generalizing s past with
  | nil =>
    rw [List.append_nil]
    exact Option.some.inj hrun ▸ hs
  | cons l ls ih =>
    obtain ⟨v, hv, hrest⟩ := exec_cons.mp hrun
    rw [List.append_cons]
    exact ih (hstep hs hv) hrest

/-- At some point of the run the state had the property. -/
def Once (step : σ → ℓ → Option σ) (s : σ) (P : σ → Prop) (ls : List ℓ) : Prop :=
  ∃ before after t, ls = before ++ after ∧ exec step s before = some t ∧ P t

theorem Once.now {P : σ → Prop} {s t : σ} {ls : List ℓ} (hrun : exec step s ls = some t)
    (h : P t) : Once step s P ls :=
  ⟨ls, [], t, (List.append_nil ls).symm, hrun, h⟩

theorem Once.later {P : σ → Prop} {s : σ} {ls : List ℓ} (h : Once step s P ls) (ls' : List ℓ) :
    Once step s P (ls ++ ls') := by
  obtain ⟨before, after, t, rfl, hrun, ht⟩ := h
  exact ⟨before, after ++ ls', t, List.append_assoc _ _ _, hrun, ht⟩

/-- Every action of the run is taken in a state that meets the condition. -/
def Always (step : σ → ℓ → Option σ) (P : σ → ℓ → Prop) (s : σ) : List ℓ → Prop
  | [] => True
  | l :: ls => P s l ∧ ∀ t, step s l = some t → Always step P t ls

instance decidableAlways {P : σ → ℓ → Prop} [∀ s l, Decidable (P s l)] :
    ∀ (s : σ) (ls : List ℓ), Decidable (Always step P s ls)
  | _, [] => isTrue trivial
  | s, l :: ls =>
    match h : step s l with
    | none => decidable_of_iff (P s l) (by simp [Always, h])
    | some t =>
      have : Decidable (Always step P t ls) := decidableAlways t ls
      decidable_of_iff (P s l ∧ Always step P t ls) (by simp [Always, h])

theorem always_of_forall {P : σ → ℓ → Prop} {ls : List ℓ} (h : ∀ l ∈ ls, ∀ s, P s l) (s : σ) :
    Always step P s ls := by
  induction ls generalizing s with
  | nil => trivial
  | cons l ls ih =>
    have hrest : ∀ l ∈ ls, ∀ s, P s l := fun l' hl' => h l' (List.mem_cons_of_mem _ hl')
    exact ⟨h l List.mem_cons_self s, fun t _ => ih hrest t⟩

theorem always_cons {P : σ → ℓ → Prop} {s t : σ} {l : ℓ} {ls : List ℓ} (hstep : step s l = some t)
    (hl : P s l) (hls : Always step P t ls) : Always step P s (l :: ls) := by
  refine ⟨hl, fun u hu => ?_⟩
  obtain rfl := Option.some.inj (hstep.symm.trans hu)
  exact hls

theorem always_append {P : σ → ℓ → Prop} {s : σ} {ls ls' : List ℓ} (h : Always step P s ls)
    (h' : ∀ t, exec step s ls = some t → Always step P t ls') :
    Always step P s (ls ++ ls') := by
  induction ls generalizing s with
  | nil => exact h' s rfl
  | cons l ls ih =>
    refine ⟨h.1, fun t ht => ih (h.2 t ht) fun u hu => h' u ?_⟩
    exact exec_cons.mpr ⟨t, ht, hu⟩

theorem always_of_append {P : σ → ℓ → Prop} {s : σ} {ls ls' : List ℓ}
    (h : Always step P s (ls ++ ls')) : Always step P s ls := by
  induction ls generalizing s with
  | nil => trivial
  | cons l ls ih => exact ⟨h.1, fun t ht => ih (h.2 t ht)⟩

theorem exec_always {P : σ → ℓ → Prop} {I : σ → Prop}
    (hstep : ∀ {s l t}, I s → P s l → step s l = some t → I t)
    {s t : σ} {ls : List ℓ} (hs : I s) (hP : Always step P s ls)
    (hrun : exec step s ls = some t) : I t := by
  induction ls generalizing s with
  | nil => exact Option.some.inj hrun ▸ hs
  | cons l ls ih =>
    obtain ⟨v, hv, hrest⟩ := exec_cons.mp hrun
    exact ih (hstep hs hP.1 hv) (hP.2 v hv) hrest

theorem exec_history_always {P : σ → ℓ → Prop} {I : List ℓ → σ → Prop}
    (hstep : ∀ {past s l t}, I past s → P s l → step s l = some t → I (past ++ [l]) t)
    {s t : σ} {ls past : List ℓ} (hs : I past s) (hP : Always step P s ls)
    (hrun : exec step s ls = some t) : I (past ++ ls) t := by
  induction ls generalizing s past with
  | nil =>
    rw [List.append_nil]
    exact Option.some.inj hrun ▸ hs
  | cons l ls ih =>
    obtain ⟨v, hv, hrest⟩ := exec_cons.mp hrun
    rw [List.append_cons]
    exact ih (hstep hs hP.1 hv) (hP.2 v hv) hrest

/-- Two runs whose actions are pairwise related stay related. -/
theorem exec_lockstep {R : σ → σ → Prop} {A : ℓ → ℓ → Prop}
    (hstep : ∀ {s s' l l' t t'}, R s s' → A l l' → step s l = some t → step s' l' = some t' →
      R t t')
    {s s' t t' : σ} {ls ls' : List ℓ} (hs : R s s') (hls : List.Forall₂ A ls ls')
    (hrun : exec step s ls = some t) (hrun' : exec step s' ls' = some t') : R t t' := by
  induction hls generalizing s s' with
  | nil => exact Option.some.inj hrun ▸ Option.some.inj hrun' ▸ hs
  | cons hl _ ih =>
    obtain ⟨v, hv, hrest⟩ := exec_cons.mp hrun
    obtain ⟨v', hv', hrest'⟩ := exec_cons.mp hrun'
    exact ih (hstep hs hl hv hv') hrest hrest'

/-- A run of an instrumented program is a run of the program without its instruments. -/
theorem exec_erase {τ : Type u} {step' : τ → ℓ → Option τ} {erase : τ → σ}
    (hstep : ∀ s l, (step' s l).map erase = step (erase s) l) (s : τ) (ls : List ℓ) :
    (exec step' s ls).map erase = exec step (erase s) ls := by
  induction ls generalizing s with
  | nil => rfl
  | cons l ls ih =>
    rw [exec, exec, ← hstep]
    cases step' s l with
    | none => rfl
    | some t => exact ih t

/-- A run of a refined program, whose steps each take the action `label` gives them or leave
the refined state alone, is a run of the program with those actions. -/
theorem exec_refines {τ : Type u} {ℓ' : Type v} {step' : τ → ℓ' → Option τ} {erase : τ → σ}
    {label : ℓ' → Option ℓ}
    (hstep : ∀ {s l t}, step' s l = some t → exec step (erase s) (label l).toList = some (erase t))
    {s t : τ} {ls : List ℓ'} (hrun : exec step' s ls = some t) :
    exec step (erase s) (ls.filterMap label) = some (erase t) := by
  induction ls generalizing s with
  | nil => exact congrArg (Option.map erase) hrun
  | cons l ls ih =>
    obtain ⟨v, hv, hrest⟩ := exec_cons.mp hrun
    have hlabel : (l :: ls).filterMap label = (label l).toList ++ ls.filterMap label := by
      cases h : label l <;> simp [h]
    rw [hlabel]
    exact exec_trans (hstep hv) (ih hrest)

/-- A bound on the actions of a kind: each of them lowers a rank that no action raises. -/
theorem exec_countP_le {P : σ → ℓ → Prop} {I : σ → Prop} {r : σ → Nat} {p : ℓ → Bool}
    (hstep : ∀ {s l t}, I s → P s l → step s l = some t → I t ∧ r t + (p l).toNat ≤ r s)
    {s t : σ} {ls : List ℓ} (hs : I s) (hP : Always step P s ls)
    (hrun : exec step s ls = some t) : ls.countP p + r t ≤ r s := by
  induction ls generalizing s with
  | nil =>
    obtain rfl := Option.some.inj hrun
    simp
  | cons l ls ih =>
    obtain ⟨v, hv, hrest⟩ := exec_cons.mp hrun
    obtain ⟨hI, hrank⟩ := hstep hs hP.1 hv
    have hbound := ih hI (hP.2 v hv) hrest
    rw [List.countP_cons]
    cases hp : p l with
    | true =>
      rw [hp, Bool.toNat_true] at hrank
      rw [if_pos rfl]
      omega
    | false =>
      rw [hp, Bool.toNat_false] at hrank
      rw [if_neg Bool.false_ne_true]
      omega

/-! ## Programs that run by themselves -/

section Drive
variable {next : σ → Option σ}

/-- At most `fuel` steps, until none is enabled. -/
def drive (next : σ → Option σ) : Nat → σ → σ
  | 0, s => s
  | fuel + 1, s =>
    match next s with
    | none => s
    | some t => drive next fuel t

theorem drive_invariant {I : σ → Prop} (hstep : ∀ {s t}, I s → next s = some t → I t)
    (fuel : Nat) {s : σ} (hs : I s) : I (drive next fuel s) := by
  induction fuel generalizing s with
  | zero => exact hs
  | succ fuel ih =>
    rw [drive]
    split
    · exact hs
    · rename_i t ht
      exact ih (hstep hs ht)

/-- A program whose steps lower a rank stops, and the rank is enough fuel. -/
theorem drive_stops {rank : σ → Nat} (hstep : ∀ {s t}, next s = some t → rank t < rank s)
    {fuel : Nat} {s : σ} (hfuel : rank s ≤ fuel) : next (drive next fuel s) = none := by
  induction fuel generalizing s with
  | zero =>
    cases hs : next s with
    | none => exact hs
    | some t =>
      have := hstep hs
      omega
  | succ fuel ih =>
    rw [drive]
    split
    · assumption
    · rename_i t ht
      have := hstep ht
      exact ih (by omega)

end Drive

end PgProxy
