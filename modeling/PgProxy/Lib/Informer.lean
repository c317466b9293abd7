import Mathlib.Data.Finmap

/-!
# A store and the informer that follows it

A `Store` holds objects by their own key. A `Watched` store also carries an informer:
the writes it has not seen yet, its cache, and the events it has not handed out yet.
The cache catches up with the store: replaying the unseen writes over it gives the
store. `Seen` is about a writer that stamps every object anew: an old copy with the stamp of
the stored object is that object. `Pending old new` says that an event is on its way whose old
or new object is of interest; nothing but handing that event out makes it stop being pending.
-/

namespace PgProxy
set_option autoImplicit false

variable {K α : Type} {key : α → K}

inductive Change (key : α → K) where
  | put (a : α)
  | remove (k : K)

namespace Change

def target : Change key → K
  | put a => key a
  | remove k => k

def result : Change key → Option α
  | put a => some a
  | remove _ => none

theorem key_of_result {c : Change key} {a : α} (h : c.result = some a) : key a = c.target := by
  cases c with
  | put b => exact congrArg key (Option.some.inj h).symm
  | remove k => exact absurd h (by simp [result])

end Change

/-! ## Events -/

inductive Event (α : Type) where
  | create (obj : α)
  | update (old new : α)
  | delete (obj : α)

namespace Event

/-- The event for a key whose cached content changes from one to the other. -/
def between : Option α → Option α → Option (Event α)
  | none, none => none
  | none, some b => some (create b)
  | some a, some b => some (update a b)
  | some a, none => some (delete a)

def Concerns (old new : α → Prop) : Event α → Prop
  | create b => new b
  | update a b => old a ∨ new b
  | delete a => old a

theorem between_old {old : α → Prop} (new : α → Prop) {a : α} (h : old a) (b : Option α) :
    ∃ e ∈ between (some a) b, e.Concerns old new := by
  cases b with
  | none => exact ⟨_, rfl, h⟩
  | some b => exact ⟨_, rfl, .inl h⟩

theorem between_new (old : α → Prop) {new : α → Prop} {b : α} (h : new b) (a : Option α) :
    ∃ e ∈ between a (some b), e.Concerns old new := by
  cases a with
  | none => exact ⟨_, rfl, h⟩
  | some a => exact ⟨_, rfl, .inr h⟩

end Event

/-! ## Stores -/

variable [DecidableEq K]

structure Store (key : α → K) where
  entries : Finmap (fun _ : K => α)
  keyed : ∀ {k : K} {a : α}, entries.lookup k = some a → key a = k

namespace Store

instance : EmptyCollection (Store key) := ⟨⟨∅, by simp⟩⟩

def get (s : Store key) (k : K) : Option α := s.entries.lookup k

@[simp] theorem get_empty (k : K) : (∅ : Store key).get k = none := Finmap.lookup_empty k

theorem key_of_get {s : Store key} {k : K} {a : α} (h : s.get k = some a) : key a = k :=
  s.keyed h

theorem get_own {s : Store key} {k : K} {a : α} (h : s.get k = some a) :
    s.get (key a) = some a := by
  rw [key_of_get h, h]

def apply (s : Store key) : Change key → Store key
  | .put a =>
    { entries := s.entries.insert (key a) a
      keyed := by
        intro k b h
        by_cases hk : k = key a
        · subst hk
          rw [Finmap.lookup_insert] at h
          exact Option.some.inj h ▸ rfl
        · rw [Finmap.lookup_insert_of_ne _ hk] at h
          exact s.keyed h }
  | .remove k =>
    { entries := s.entries.erase k
      keyed := by
        intro k' b h
        by_cases hk : k' = k
        · subst hk
          rw [Finmap.lookup_erase] at h
          exact absurd h (by simp)
        · rw [Finmap.lookup_erase_ne hk] at h
          exact s.keyed h }

theorem get_apply_self (s : Store key) (c : Change key) :
    (s.apply c).get c.target = c.result := by
  cases c with
  | put a => exact Finmap.lookup_insert _
  | remove k => exact Finmap.lookup_erase _ _

theorem get_apply_ne (s : Store key) {c : Change key} {k : K} (h : k ≠ c.target) :
    (s.apply c).get k = s.get k := by
  cases c with
  | put a => exact Finmap.lookup_insert_of_ne _ h
  | remove k' => exact Finmap.lookup_erase_ne h

theorem get_replay {cs : List (Change key)} {s : Store key} {k : K} {a : α}
    (h : (cs.foldl apply s).get k = some a) :
    s.get k = some a ∨ ∃ c ∈ cs, c.target = k ∧ c.result = some a := by
  induction cs generalizing s with
  | nil => exact .inl h
  | cons c cs ih =>
    rcases ih h with hget | ⟨d, hd, hk, ha⟩
    · by_cases hk : k = c.target
      · subst hk
        rw [get_apply_self] at hget
        exact .inr ⟨c, List.mem_cons_self, rfl, hget⟩
      · rw [get_apply_ne _ hk] at hget
        exact .inl hget
    · exact .inr ⟨d, List.mem_cons_of_mem _ hd, hk, ha⟩

theorem get_replay_ne {cs : List (Change key)} {s : Store key} {k : K}
    (h : ∀ c ∈ cs, c.target ≠ k) : (cs.foldl apply s).get k = s.get k := by
  induction cs generalizing s with
  | nil => rfl
  | cons c cs ih =>
    rw [List.foldl_cons, ih fun d hd => h d (List.mem_cons_of_mem _ hd),
      get_apply_ne _ (h c List.mem_cons_self).symm]

/-- The objects of the store, in some order. -/
structure Lists (s : Store key) (xs : List α) : Prop where
  nodup : (xs.map key).Nodup
  mem : ∀ a, a ∈ xs ↔ s.get (key a) = some a

theorem lists_iff {s : Store key} {xs : List α} :
    s.Lists xs ↔ (xs.map key).Nodup ∧ (∀ a ∈ xs, s.get (key a) = some a) ∧
      ∀ k ∈ s.entries.keys, k ∈ xs.map key := by
  constructor
  · intro h
    refine ⟨h.nodup, fun a ha => (h.mem a).mp ha, fun k hk => ?_⟩
    obtain ⟨a, ha⟩ := Finmap.mem_iff.mp (Finmap.mem_keys.mp hk)
    have hkey : key a = k := s.keyed ha
    exact List.mem_map.mpr ⟨a, (h.mem a).mpr (hkey ▸ ha), hkey⟩
  · rintro ⟨hnodup, hsound, hcomplete⟩
    refine ⟨hnodup, fun a => ⟨hsound a, fun ha => ?_⟩⟩
    have hk : key a ∈ s.entries.keys := Finmap.mem_keys.mpr (Finmap.mem_iff.mpr ⟨a, ha⟩)
    obtain ⟨b, hb, hkey⟩ := List.mem_map.mp (hcomplete _ hk)
    have hget := hsound b hb
    rw [hkey, ha] at hget
    exact Option.some.inj hget ▸ hb

theorem Lists.perm {s : Store key} {xs ys : List α} (hxs : s.Lists xs) (hys : s.Lists ys) :
    xs.Perm ys := by
  refine (List.perm_ext_iff_of_nodup hxs.nodup.of_map hys.nodup.of_map).mpr fun a => ?_
  rw [hxs.mem, hys.mem]

theorem Lists.length {s : Store key} {xs : List α} (h : s.Lists xs) :
    xs.length = s.entries.keys.card := by
  have hkeys : (xs.map key).toFinset = s.entries.keys := by
    obtain ⟨-, hsound, hcomplete⟩ := lists_iff.mp h
    ext k
    rw [List.mem_toFinset]
    refine ⟨fun hk => ?_, hcomplete k⟩
    obtain ⟨a, ha, rfl⟩ := List.mem_map.mp hk
    exact Finmap.mem_keys.mpr (Finmap.mem_iff.mpr ⟨a, hsound a ha⟩)
  rw [← hkeys, List.toFinset_card_of_nodup h.nodup, List.length_map]

theorem exists_lists (s : Store key) : ∃ xs, s.Lists xs := by
  have hmap : ∀ ks : List K, (∀ k ∈ ks, k ∈ s.entries.keys) →
      (ks.filterMap s.get).map key = ks := by
    intro ks hks
    induction ks with
    | nil => rfl
    | cons k ks ih =>
      obtain ⟨a, ha⟩ : ∃ a, s.get k = some a :=
        Finmap.mem_iff.mp (Finmap.mem_keys.mp (hks k List.mem_cons_self))
      rw [List.filterMap_cons_some ha, List.map_cons, key_of_get ha,
        ih fun k' hk' => hks k' (List.mem_cons_of_mem _ hk')]
  have hkeys := hmap s.entries.keys.toList fun k hk => Finset.mem_toList.mp hk
  refine ⟨s.entries.keys.toList.filterMap s.get, lists_iff.mpr ⟨?_, ?_, ?_⟩⟩
  · rw [hkeys]
    exact Finset.nodup_toList _
  · intro a ha
    obtain ⟨k, -, hget⟩ := List.mem_filterMap.mp ha
    exact get_own hget
  · intro k hk
    rw [hkeys]
    exact Finset.mem_toList.mpr hk

instance [DecidableEq α] (s : Store key) (xs : List α) : Decidable (s.Lists xs) :=
  decidable_of_iff' _ lists_iff

end Store

/-! ## Watched stores -/

structure Watched (key : α → K) where
  store : Store key := ∅
  watch : List (Change key) := []
  cache : Store key := ∅
  events : List (Event α) := []
  follows : watch.foldl Store.apply cache = store := by rfl

namespace Watched

/-- A write reaches the store at once, and the informer later. -/
def write (w : Watched key) (c : Change key) : Watched key :=
  { w with
    store := w.store.apply c
    watch := w.watch ++ [c]
    follows := by rw [List.foldl_append, w.follows]; rfl }

/-- The informer sees the oldest unseen write. -/
def sync (w : Watched key) : Option (Watched key) :=
  match h : w.watch with
  | [] => none
  | c :: rest =>
    some { w with
      watch := rest
      cache := w.cache.apply c
      events := w.events ++ (Event.between (w.cache.get c.target) c.result).toList
      follows := by rw [← w.follows, h]; rfl }

def next (w : Watched key) : Option (Event α × Watched key) :=
  match w.events with
  | [] => none
  | e :: rest => some (e, { w with events := rest })

/-- A reader that starts afresh from the cache does not need the events before. -/
def discard (w : Watched key) : Watched key := { w with events := [] }

theorem sync_eq_some {w w' : Watched key} (h : w.sync = some w') :
    ∃ c, w.watch = c :: w'.watch ∧ w'.store = w.store ∧ w'.cache = w.cache.apply c ∧
      w'.events = w.events ++ (Event.between (w.cache.get c.target) c.result).toList := by
  unfold sync at h
  split at h
  · exact absurd h (by simp)
  · rename_i c rest hwatch
    obtain rfl := Option.some.inj h
    exact ⟨c, hwatch, rfl, rfl, rfl⟩

theorem next_eq_some {w w' : Watched key} {e : Event α} (h : w.next = some (e, w')) :
    w.events = e :: w'.events ∧ w'.store = w.store ∧ w'.watch = w.watch ∧
      w'.cache = w.cache := by
  unfold next at h
  split at h
  · exact absurd h (by simp)
  · rename_i e' rest hevents
    simp only [Option.some.injEq, Prod.mk.injEq] at h
    obtain ⟨rfl, rfl⟩ := h
    exact ⟨hevents, rfl, rfl, rfl⟩

theorem cached_or_unseen {w : Watched key} {k : K} {a : α} (h : w.store.get k = some a) :
    w.cache.get k = some a ∨ ∃ c ∈ w.watch, c.target = k ∧ c.result = some a :=
  Store.get_replay (w.follows ▸ h)

theorem unseen_of_stale {w : Watched key} {k : K} (h : w.store.get k ≠ w.cache.get k) :
    ∃ c ∈ w.watch, c.target = k := by
  by_contra hno
  have hne : ∀ c ∈ w.watch, c.target ≠ k := fun c hc hk => hno ⟨c, hc, hk⟩
  exact h (by rw [← w.follows, Store.get_replay_ne hne])

/-- An object the informer knows or is about to know. -/
def Holds (w : Watched key) (k : K) (a : α) : Prop :=
  w.cache.get k = some a ∨ ∃ c ∈ w.watch, c.target = k ∧ c.result = some a

theorem holds_of_write {w : Watched key} {c : Change key} {k : K} {a : α}
    (h : (w.write c).Holds k a) : w.Holds k a ∨ (c.target = k ∧ c.result = some a) := by
  rcases h with hcache | ⟨d, hd, htarget, hresult⟩
  · exact .inl (.inl hcache)
  · rcases List.mem_append.mp hd with hd | hd
    · exact .inl (.inr ⟨d, hd, htarget, hresult⟩)
    · obtain rfl := List.mem_singleton.mp hd
      exact .inr ⟨htarget, hresult⟩

theorem holds_of_sync {w w' : Watched key} (hsync : w.sync = some w') {k : K} {a : α}
    (h : w'.Holds k a) : w.Holds k a := by
  obtain ⟨c, hwatch, -, hcache, -⟩ := sync_eq_some hsync
  rcases h with h | ⟨d, hd, hrest⟩
  · rw [hcache] at h
    by_cases hk : k = c.target
    · subst hk
      rw [Store.get_apply_self] at h
      exact .inr ⟨c, by simp [hwatch], rfl, h⟩
    · rw [Store.get_apply_ne _ hk] at h
      exact .inl h
  · exact .inr ⟨d, by simp [hwatch, hd], hrest⟩

theorem holds_of_next {w w' : Watched key} {e : Event α} (hnext : w.next = some (e, w'))
    {k : K} {a : α} (h : w'.Holds k a) : w.Holds k a := by
  obtain ⟨-, -, hwatch, hcache⟩ := next_eq_some hnext
  rwa [Holds, hwatch, hcache] at h

/-! ### Stamps -/

section Stamps
variable {stamp : α → Nat} {last : Nat} {w w' : Watched key} {k : K} {a : α}

/-- An object once seen at a key, where stamps never repeat: an object stored there with the
same stamp is this one. -/
structure Seen (stamp : α → Nat) (last : Nat) (w : Watched key) (k : K) (a : α) : Prop where
  le : stamp a ≤ last
  same : ∀ b, w.store.get k = some b → stamp b = stamp a → b = a

theorem Seen.congr (h : w.Seen stamp last k a) (hstore : w'.store = w.store) :
    w'.Seen stamp last k a :=
  ⟨h.le, hstore ▸ h.same⟩

theorem Seen.write (h : w.Seen stamp last k a) {c : Change key}
    (hc : ∀ b, c.result = some b → stamp b = last + 1) :
    (w.write c).Seen stamp (last + 1) k a := by
  have hle := h.le
  refine ⟨by omega, fun b hb hstamp => ?_⟩
  by_cases hk : k = c.target
  · subst hk
    have hnew := hc b ((Store.get_apply_self w.store c).symm.trans hb)
    omega
  · exact h.same b ((Store.get_apply_ne w.store hk).symm.trans hb) hstamp

theorem seen_write {c : Change key} (ha : c.result = some a) (hstamp : stamp a = last + 1) :
    (w.write c).Seen stamp (last + 1) c.target a := by
  refine ⟨hstamp.le, fun b hb _ => ?_⟩
  exact Option.some.inj (((Store.get_apply_self w.store c).symm.trans hb).symm.trans ha)

end Stamps

/-! ### Events on their way -/

section Pending
variable {old new : α → Prop}

def Pending (old new : α → Prop) (w : Watched key) : Prop :=
  (∃ e ∈ w.events, e.Concerns old new) ∨
    ∃ c ∈ w.watch, (∃ a, c.result = some a ∧ new a) ∨
      ∃ a, w.cache.get c.target = some a ∧ old a

theorem pending_write_new {w : Watched key} {c : Change key} {a : α} (h : c.result = some a)
    (ha : new a) : (w.write c).Pending old new :=
  .inr ⟨c, by simp [write], .inl ⟨a, h, ha⟩⟩

theorem pending_write_old {w : Watched key} {c : Change key} {a : α}
    (h : w.store.get c.target = some a) (hold : old a) (hnew : new a) :
    (w.write c).Pending old new := by
  rcases cached_or_unseen h with hcache | ⟨d, hd, -, hresult⟩
  · exact .inr ⟨c, by simp [write], .inr ⟨a, hcache, hold⟩⟩
  · exact .inr ⟨d, by simp [write, hd], .inl ⟨a, hresult, hnew⟩⟩

theorem Pending.write {w : Watched key} (h : w.Pending old new) (c : Change key) :
    (w.write c).Pending old new := by
  rcases h with h | ⟨d, hd, hrest⟩
  · exact .inl h
  · exact .inr ⟨d, by simp [Watched.write, hd], hrest⟩

theorem Pending.sync {w w' : Watched key} (h : w.Pending old new) (hsync : w.sync = some w') :
    w'.Pending old new := by
  obtain ⟨c, hwatch, -, hcache, hevents⟩ := sync_eq_some hsync
  have hnow : ∀ e ∈ Event.between (w.cache.get c.target) c.result, e.Concerns old new →
      w'.Pending old new := fun e he hconcerns =>
    .inl ⟨e, by simp [hevents, Option.mem_def.mp he], hconcerns⟩
  rcases h with ⟨e, he, hconcerns⟩ | ⟨d, hd, hrest⟩
  · exact .inl ⟨e, by simp [hevents, he], hconcerns⟩
  · -- the write just seen reports both its own object and the one it replaces
    rw [hwatch] at hd
    by_cases hdc : d = c
    · subst hdc
      rcases hrest with ⟨a, hresult, ha⟩ | ⟨a, hget, ha⟩
      · obtain ⟨e, he, hconcerns⟩ := Event.between_new old ha (w.cache.get d.target)
        exact hnow e (hresult ▸ he) hconcerns
      · obtain ⟨e, he, hconcerns⟩ := Event.between_old new ha d.result
        exact hnow e (hget ▸ he) hconcerns
    · have hd' : d ∈ w'.watch := (List.mem_cons.mp hd).resolve_left hdc
      rcases hrest with hnew | ⟨a, hget, ha⟩
      · exact .inr ⟨d, hd', .inl hnew⟩
      -- the object in question is replaced by the write just seen, or it is still cached
      · by_cases htarget : d.target = c.target
        · obtain ⟨e, he, hconcerns⟩ := Event.between_old new ha c.result
          rw [htarget] at hget
          exact hnow e (hget ▸ he) hconcerns
        · exact .inr ⟨d, hd', .inr ⟨a, by rw [hcache, Store.get_apply_ne _ htarget, hget], ha⟩⟩

theorem Pending.next {w w' : Watched key} {e : Event α} (h : w.Pending old new)
    (hnext : w.next = some (e, w')) : e.Concerns old new ∨ w'.Pending old new := by
  obtain ⟨hevents, -, hwatch, hcache⟩ := next_eq_some hnext
  rcases h with ⟨d, hd, hconcerns⟩ | hrest
  · rw [hevents] at hd
    rcases List.mem_cons.mp hd with rfl | hd
    · exact .inl hconcerns
    · exact .inr (.inl ⟨d, hd, hconcerns⟩)
  · refine .inr (.inr ?_)
    rwa [hwatch, hcache]

theorem pending_of_uncached {w : Watched key} {k : K} {a : α} (h : w.store.get k = some a)
    (hne : w.cache.get k ≠ some a) (ha : new a) : w.Pending old new := by
  rcases cached_or_unseen h with hcache | ⟨c, hc, -, hresult⟩
  · exact absurd hcache hne
  · exact .inr ⟨c, hc, .inl ⟨a, hresult, ha⟩⟩

theorem pending_of_stale {w : Watched key} {k : K} {a : α} (h : w.cache.get k = some a)
    (hne : w.store.get k ≠ some a) (ha : old a) : w.Pending old new := by
  rw [← h] at hne
  obtain ⟨c, hc, hk⟩ := unseen_of_stale hne
  exact .inr ⟨c, hc, .inr ⟨a, by rw [hk, h], ha⟩⟩

/-- If the cache changes at a key, what was there and what is there now is reported. -/
theorem pending_of_sync {w w' : Watched key} (hsync : w.sync = some w') {k : K}
    (hne : w'.cache.get k ≠ w.cache.get k)
    (h : (∃ a, w.cache.get k = some a ∧ old a) ∨ ∃ a, w'.cache.get k = some a ∧ new a) :
    w'.Pending old new := by
  obtain ⟨c, -, -, hcache, hevents⟩ := sync_eq_some hsync
  obtain rfl : k = c.target := by
    by_contra hk
    exact hne (by rw [hcache, Store.get_apply_ne _ hk])
  have hmem : ∀ e ∈ Event.between (w.cache.get c.target) c.result, e ∈ w'.events := fun e he => by
    simp [hevents, Option.mem_def.mp he]
  rw [hcache, Store.get_apply_self] at h
  rcases h with ⟨a, hget, ha⟩ | ⟨a, hresult, ha⟩
  · obtain ⟨e, he, hconcerns⟩ := Event.between_old new ha c.result
    exact .inl ⟨e, hmem e (hget ▸ he), hconcerns⟩
  · obtain ⟨e, he, hconcerns⟩ := Event.between_new old ha (w.cache.get c.target)
    exact .inl ⟨e, hmem e (hresult ▸ he), hconcerns⟩

end Pending

end Watched
end PgProxy
