import Mathlib.Data.Nat.Basic

/-!
# A debounced loop

Requests arrive as calls that put a token into a channel of depth one and are dropped if
it is full. A loop takes the token and arms a timer, unless it has done so already; when
the timer's tick is received, the work the requests asked for begins. Bursts collapse at
three places, and no request is lost: it is `Awake` from the first call to the tick.
-/

namespace PgProxy
set_option autoImplicit false

/-- A fired timer holds a tick that nobody has received yet. -/
inductive Timer where
  | idle
  | armed
  | fired
  deriving DecidableEq

def Timer.weight : Timer → Nat
  | .idle => 0
  | .fired => 1
  | .armed => 2

/-- `inflight` counts the calls that are on their way to the channel. -/
structure Debounce where
  inflight : Nat := 0
  trigger : Bool := false
  pending : Bool := false
  timer : Timer := .idle
  deriving DecidableEq

namespace Debounce

def request (d : Debounce) (calls : Nat) : Debounce := { d with inflight := d.inflight + calls }

/-- One call reaches the channel; it is done whether or not the channel was full. -/
def schedule (d : Debounce) : Option Debounce :=
  if 0 < d.inflight then some { d with inflight := d.inflight - 1, trigger := true } else none

def receive (d : Debounce) : Option Debounce :=
  if d.trigger then
    if d.pending then some { d with trigger := false }
    else some { d with trigger := false, pending := true, timer := .armed }
  else none

def fire (d : Debounce) : Option Debounce :=
  if d.timer = .armed then some { d with timer := .fired } else none

def tick (d : Debounce) : Option Debounce :=
  if d.timer = .fired then some { d with pending := false, timer := .idle } else none

/-- The flag of the loop tells whether the timer is running or has fired. -/
def Consistent (d : Debounce) : Prop := d.pending = true ↔ d.timer ≠ .idle

/-- A request is on its way to the tick. -/
def Awake (d : Debounce) : Prop := 0 < d.inflight ∨ d.trigger = true ∨ d.timer ≠ .idle

/-- How many steps there can be up to the next tick. -/
def weight (d : Debounce) : Nat :=
  4 * d.inflight + (if d.trigger then 3 else 0) + d.timer.weight

variable {d d' : Debounce}

theorem schedule_eq_some (h : d.schedule = some d') :
    0 < d.inflight ∧ d' = { d with inflight := d.inflight - 1, trigger := true } := by
  obtain ⟨hpos, heq⟩ := Option.ite_none_right_eq_some.mp h
  exact ⟨hpos, (Option.some.inj heq).symm⟩

theorem receive_eq_some (h : d.receive = some d') :
    d.trigger = true ∧
      ((d.pending = true ∧ d' = { d with trigger := false }) ∨
        (d.pending = false ∧
          d' = { d with trigger := false, pending := true, timer := .armed })) := by
  obtain ⟨htrigger, heq⟩ := Option.ite_none_right_eq_some.mp h
  refine ⟨htrigger, ?_⟩
  split at heq
  · rename_i hpending
    exact Or.inl ⟨hpending, (Option.some.inj heq).symm⟩
  · rename_i hpending
    exact Or.inr ⟨by simpa using hpending, (Option.some.inj heq).symm⟩

theorem fire_eq_some (h : d.fire = some d') :
    d.timer = .armed ∧ d' = { d with timer := .fired } := by
  obtain ⟨harmed, heq⟩ := Option.ite_none_right_eq_some.mp h
  exact ⟨harmed, (Option.some.inj heq).symm⟩

theorem tick_eq_some (h : d.tick = some d') :
    d.timer = .fired ∧ d' = { d with pending := false, timer := .idle } := by
  obtain ⟨hfired, heq⟩ := Option.ite_none_right_eq_some.mp h
  exact ⟨hfired, (Option.some.inj heq).symm⟩

/-! ## The flag -/

theorem Consistent.start : Consistent {} := by simp [Consistent]

theorem Consistent.schedule (hd : d.Consistent) (h : d.schedule = some d') : d'.Consistent := by
  obtain ⟨-, rfl⟩ := schedule_eq_some h
  exact hd

theorem Consistent.receive (hd : d.Consistent) (h : d.receive = some d') : d'.Consistent := by
  obtain ⟨-, ⟨-, rfl⟩ | ⟨-, rfl⟩⟩ := receive_eq_some h
  · exact hd
  · simp [Consistent]

theorem Consistent.fire (hd : d.Consistent) (h : d.fire = some d') : d'.Consistent := by
  obtain ⟨harmed, rfl⟩ := fire_eq_some h
  have hpending : d.pending = true := hd.mpr (by simp [harmed])
  simp [Consistent, hpending]

theorem Consistent.tick (h : d.tick = some d') : d'.Consistent := by
  obtain ⟨-, rfl⟩ := tick_eq_some h
  simp [Consistent]

/-! ## No request is lost -/

theorem awake_request (calls : Nat) (h : 0 < calls) : (d.request calls).Awake :=
  Or.inl (by simp only [request]; omega)

theorem awake_schedule (h : d.schedule = some d') : d'.Awake := by
  obtain ⟨-, rfl⟩ := schedule_eq_some h
  exact Or.inr (Or.inl rfl)

theorem awake_receive (hd : d.Consistent) (h : d.receive = some d') : d'.Awake := by
  obtain ⟨-, ⟨hpending, rfl⟩ | ⟨-, rfl⟩⟩ := receive_eq_some h
  · exact Or.inr (Or.inr (hd.mp hpending))
  · exact Or.inr (Or.inr (by simp))

theorem awake_fire (h : d.fire = some d') : d'.Awake := by
  obtain ⟨-, rfl⟩ := fire_eq_some h
  exact Or.inr (Or.inr (by simp))

/-! ## Progress -/

theorem weight_request (d : Debounce) (calls : Nat) :
    (d.request calls).weight = d.weight + 4 * calls := by
  have hrest : (d.request calls).weight =
      4 * (d.inflight + calls) + (if d.trigger then 3 else 0) + d.timer.weight := rfl
  rw [hrest, weight]
  omega

theorem weight_schedule (h : d.schedule = some d') : d'.weight < d.weight := by
  obtain ⟨hpos, rfl⟩ := schedule_eq_some h
  simp only [weight, if_true]
  split <;> omega

theorem weight_receive (h : d.receive = some d') (hd : d.Consistent) : d'.weight < d.weight := by
  obtain ⟨htrigger, ⟨-, rfl⟩ | ⟨hpending, rfl⟩⟩ := receive_eq_some h
  · simp [weight, htrigger]
  · have hidle : d.timer = .idle := by
      by_contra hne
      simp [hd.mpr hne] at hpending
    simp [weight, htrigger, hidle, Timer.weight]

theorem weight_fire (h : d.fire = some d') : d'.weight < d.weight := by
  obtain ⟨harmed, rfl⟩ := fire_eq_some h
  simp [weight, harmed, Timer.weight]

theorem weight_tick (h : d.tick = some d') : d'.weight < d.weight := by
  obtain ⟨hfired, rfl⟩ := tick_eq_some h
  simp [weight, hfired, Timer.weight]

theorem Awake.progress (hd : d.Awake) :
    d.schedule.isSome ∨ d.receive.isSome ∨ d.fire.isSome ∨ d.tick.isSome := by
  rcases hd with hinflight | htrigger | htimer
  · exact Or.inl (by simp [Debounce.schedule, hinflight])
  · refine Or.inr (Or.inl ?_)
    simp only [Debounce.receive, htrigger, if_true]
    split <;> rfl
  · cases ht : d.timer with
    | idle => exact absurd ht htimer
    | armed => exact Or.inr (Or.inr (Or.inl (by simp [Debounce.fire, ht])))
    | fired => exact Or.inr (Or.inr (Or.inr (by simp [Debounce.tick, ht])))

end Debounce
end PgProxy
