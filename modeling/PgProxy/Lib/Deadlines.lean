import Mathlib.Data.List.Basic
import Mathlib.Logic.Function.Basic

/-!
# Blocking calls under deadlines

A program is a list of operations on sockets: it sets and clears their deadlines, and makes calls
that block. A call returns at any time it likes, but it gives up once the deadline of every socket
it uses has passed; a call that uses a socket without a deadline may never return. Time passes in
the calls only. `Elapses` relates the clock before a program to every clock that can be read after
it.
-/

namespace PgProxy
set_option autoImplicit false

variable {κ : Type}

/-- `call` uses these sockets, and `within` brings a limit of its own. -/
inductive TimedOp (κ : Type) where
  | set (socket : κ) (after : Nat)
  | clear (socket : κ)
  | call (sockets : List κ)
  | within (limit : Nat)
  deriving DecidableEq

structure Clock (κ : Type) where
  now : Nat
  deadline : κ → Option Nat

/-- Every one of the sockets has a deadline, and none later than this. -/
def Clock.Expires (c : Clock κ) (sockets : List κ) (latest : Nat) : Prop :=
  ∀ socket ∈ sockets, ∃ d, c.deadline socket = some d ∧ d ≤ latest

variable [DecidableEq κ]

theorem Clock.expires_set (c : Clock κ) (socket : κ) (after : Nat) :
    Clock.Expires
      { c with deadline := Function.update c.deadline socket (some (c.now + after)) } [socket]
      (c.now + after) := by
  simp [Clock.Expires]

inductive Takes (c : Clock κ) : TimedOp κ → Clock κ → Prop
  | set (socket : κ) (after : Nat) :
      Takes c (.set socket after)
        { c with deadline := Function.update c.deadline socket (some (c.now + after)) }
  | clear (socket : κ) :
      Takes c (.clear socket) { c with deadline := Function.update c.deadline socket none }
  | call {sockets : List κ} {now : Nat} (hle : c.now ≤ now)
      (hlimit : ∀ latest, c.Expires sockets latest → now ≤ max c.now latest) :
      Takes c (.call sockets) { c with now }
  | within {limit now : Nat} (hle : c.now ≤ now) (hlimit : now ≤ c.now + limit) :
      Takes c (.within limit) { c with now }

theorem Takes.untilDeadline {c : Clock κ} {sockets : List κ} {socket : κ} {d : Nat}
    (hmem : socket ∈ sockets) (hdeadline : c.deadline socket = some d) (hle : c.now ≤ d) :
    Takes c (.call sockets) { c with now := d } := by
  refine .call hle fun latest hexpires => ?_
  obtain ⟨d', hd', hlatest⟩ := hexpires socket hmem
  obtain rfl : d = d' := Option.some.inj (hdeadline.symm.trans hd')
  omega

inductive Elapses : Clock κ → List (TimedOp κ) → Clock κ → Prop
  | nil (c : Clock κ) : Elapses c [] c
  | cons {c d e : Clock κ} {op : TimedOp κ} {ops : List (TimedOp κ)} (h : Takes c op d)
      (hrest : Elapses d ops e) : Elapses c (op :: ops) e

namespace Elapses
variable {c d : Clock κ} {ops ops' : List (TimedOp κ)}

theorem of_append (h : Elapses c (ops ++ ops') d) : ∃ e, Elapses c ops e ∧ Elapses e ops' d := by
  induction ops generalizing c with
  | nil => exact ⟨c, .nil c, h⟩
  | cons op ops ih =>
    cases h with
    | cons hop hrest =>
      obtain ⟨e, he, hend⟩ := ih hrest
      exact ⟨e, .cons hop he, hend⟩

theorem eq_of_nil (h : Elapses c [] d) : d = c := by
  cases h
  rfl

theorem set {socket : κ} {after : Nat} (h : Elapses c (.set socket after :: ops) d) :
    Elapses { c with deadline := Function.update c.deadline socket (some (c.now + after)) } ops
      d := by
  cases h with
  | cons hop hrest =>
    cases hop
    exact hrest

theorem clear {socket : κ} (h : Elapses c (.clear socket :: ops) d) :
    Elapses { c with deadline := Function.update c.deadline socket none } ops d := by
  cases h with
  | cons hop hrest =>
    cases hop
    exact hrest

theorem call {sockets : List κ} {latest : Nat} (h : Elapses c (.call sockets :: ops) d)
    (hexpires : c.Expires sockets latest) :
    ∃ now, now ≤ max c.now latest ∧ Elapses { c with now } ops d := by
  cases h with
  | cons hop hrest =>
    cases hop with
    | @call _ now hle hlimit => exact ⟨now, hlimit latest hexpires, hrest⟩

theorem within {limit : Nat} (h : Elapses c (.within limit :: ops) d) :
    ∃ now, now ≤ c.now + limit ∧ Elapses { c with now } ops d := by
  cases h with
  | cons hop hrest =>
    cases hop with
    | @within _ now hle hlimit => exact ⟨now, hlimit, hrest⟩

/-- The rule for a program that only calls: it is over once its deadlines have passed. -/
theorem calls {latest : Nat}
    (hops : ∀ op ∈ ops, ∃ sockets, op = .call sockets ∧ c.Expires sockets latest)
    (h : Elapses c ops d) : d.now ≤ max c.now latest ∧ d.deadline = c.deadline := by
  induction ops generalizing c with
  | nil =>
    obtain rfl := h.eq_of_nil
    exact ⟨Nat.le_max_left _ _, rfl⟩
  | cons op ops ih =>
    obtain ⟨sockets, rfl, hexpires⟩ := hops op List.mem_cons_self
    obtain ⟨now, hnow, hrest⟩ := h.call hexpires
    have hops' : ∀ op ∈ ops, ∃ sockets, op = .call sockets ∧
        ({ c with now } : Clock κ).Expires sockets latest := fun op hop =>
      hops op (List.mem_cons_of_mem _ hop)
    obtain ⟨hend, hdeadline⟩ := ih hops' hrest
    refine ⟨?_, hdeadline⟩
    dsimp only at hend
    omega

end Elapses
end PgProxy
