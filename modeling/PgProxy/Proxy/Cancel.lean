import PgProxy.Pgwire.Message
import PgProxy.Registry.Table

/-!
# The cancel registry

Maps the keys the gateway hands to clients onto the real backend keys. The mutex
makes each operation one atomic step on the map. `issue` draws random keys until
one is free; given the draws made so far it is either still drawing or done.
-/

namespace PgProxy
set_option autoImplicit false

namespace Proxy
open Pgwire BigEndian

variable {Pool : Type}

/-- Where a session lives, so that a later CancelRequest can be routed. -/
structure CancelEntry (Pool : Type) where
  backendAddr : GoString
  backendKey : CancelRequest
  tls : TLSConfig Pool
  deriving DecidableEq

abbrev CancelRegistry (Pool : Type) := GoMap CancelRequest (CancelEntry Pool)

/-- The eight bytes one call of `rand.Read` fills in. -/
abbrev Draw := { b : Bytes // b.length = 8 }

/-- The sign bit of the process ID is cleared. -/
def randomCancelKey (buf : Draw) : CancelRequest :=
  ⟨⟨uint32 (buf.val.take 4) &&& 0x7FFFFFFF⟩, ⟨uint32 (buf.val.drop 4)⟩⟩

namespace CancelRegistry

/-- Mint a key and record the entry under it; `none` while every draw was taken. -/
def issue (r : CancelRegistry Pool) (entry : CancelEntry Pool) :
    List Draw → Option (CancelRequest × CancelRegistry Pool × List Draw)
  | [] => none
  | buf :: draws =>
    let key := randomCancelKey buf
    if (r.lookup key).isSome then issue r entry draws
    else some (key, r.insert key entry, draws)

def release (r : CancelRegistry Pool) (key : CancelRequest) : CancelRegistry Pool := r.erase key

theorem issue_spec {r r' : CancelRegistry Pool} {entry : CancelEntry Pool} {draws rest : List Draw}
    {key : CancelRequest} (h : issue r entry draws = some (key, r', rest)) :
    r.lookup key = none ∧ r' = r.insert key entry := by
  induction draws with
  | nil => simp [issue] at h
  | cons buf draws ih =>
    rw [issue] at h
    split at h
    · exact ih h
    · rename_i hfree
      simp only [Option.some.injEq, Prod.mk.injEq] at h
      obtain ⟨rfl, rfl, -⟩ := h
      exact ⟨by simpa using hfree, rfl⟩

theorem issue_eq_none_iff {r : CancelRegistry Pool} {entry : CancelEntry Pool}
    {draws : List Draw} :
    issue r entry draws = none ↔ ∀ buf ∈ draws, (r.lookup (randomCancelKey buf)).isSome := by
  induction draws with
  | nil => simp [issue]
  | cons buf draws ih =>
    rw [issue]
    split
    · rename_i htaken
      simp [ih, htaken]
    · rename_i hfree
      simp [hfree]

theorem issue_key_congr {r₁ r₂ : CancelRegistry Pool}
    (h : ∀ k, (r₁.lookup k).isSome = (r₂.lookup k).isSome) (e₁ e₂ : CancelEntry Pool)
    (draws : List Draw) :
    (issue r₁ e₁ draws).map (fun x => (x.1, x.2.2)) =
      (issue r₂ e₂ draws).map (fun x => (x.1, x.2.2)) := by
  induction draws with
  | nil => rfl
  | cons buf draws ih =>
    simp only [issue, h (randomCancelKey buf)]
    split
    · exact ih
    · rfl

end CancelRegistry
end Proxy
end PgProxy
