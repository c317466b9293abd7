import PgProxy.Lib.Debounce
import PgProxy.Lib.Informer
import PgProxy.Registry.Table

/-!
# The loop that keeps the routing table current

`Start` of the RouteTableBuilder: it registers the handlers of its informers, builds once,
and then rebuilds after every debounced burst of events. A rebuild lists the routes of the
cache, resolves them one after another, publishes the snapshot and notifies the routes
whose decision changed. The cache changes under it at any time, so every read is a step
of its own.
-/

namespace PgProxy
set_option autoImplicit false

variable {Pool : Type}

inductive ObjectKind where
  | postgresRoute
  | service
  | secret
  deriving DecidableEq

/-- `statusEvents` is the capacity of the channel, if there is one. -/
structure RouteTableBuilder where
  clusterDomain : GoString
  watchSecrets : Bool := false
  statusEvents : Option Nat := some 1024

def RouteTableBuilder.watched (b : RouteTableBuilder) : List ObjectKind :=
  [.postgresRoute, .service] ++ if b.watchSecrets then [.secret] else []

/-- A builder as `run` makes it by default. -/
def sampleBuilder : RouteTableBuilder := { clusterDomain := str "cluster.local" }

def errorMessage : Option GoError → GoString
  | none => []
  | some err => err.text

def decisionChanged (before now : Decision) : Bool :=
  before.database ≠ now.database || before.accepted ≠ now.accepted ||
  before.conflictsWith ≠ now.conflictsWith || before.endpoint ≠ now.endpoint ||
  errorMessage before.resolveErr ≠ errorMessage now.resolveErr

/-- Whether `notifyChanged` notifies a route. -/
def notifies (previous current : Snapshot Pool) (key : NamespacedName) : Bool :=
  match current.decision key, previous.decision key with
  | none, _ => false
  | some _, none => true
  | some now, some before => decisionChanged before now

def changedKeys (previous current : Snapshot Pool) : Finset NamespacedName :=
  current.decisions.keys.filter fun key => notifies previous current key

theorem mem_changedKeys {previous current : Snapshot Pool} {key : NamespacedName} :
    key ∈ changedKeys previous current ↔ notifies previous current key = true := by
  rw [changedKeys, Finset.mem_filter, and_iff_right_of_imp]
  intro h
  rw [Finmap.mem_keys, Finmap.mem_iff]
  cases hd : current.decision key with
  | none => simp [notifies, hd] at h
  | some now => exact ⟨now, hd⟩

/-- Where `Start` is. While it builds: the routes listed, those still to resolve, and the
maps filled so far. -/
inductive BuilderPhase (Pool : Type) where
  | watching (rest : List ObjectKind)
  | listing
  | building (routes rest : List PostgresRoute) (st : BuildState Pool)
  | notifying (changed : List NamespacedName)
  | selecting

def BuilderPhase.registered (kind : ObjectKind) : BuilderPhase Pool → Bool
  | .watching rest => kind ∉ rest
  | _ => true

/-- After the last handler comes the initial build. -/
def BuilderPhase.watchRest : List ObjectKind → BuilderPhase Pool
  | [] => .listing
  | rest => .watching rest

/-- A snapshot that was published, and the routes it was built from. -/
structure Publication (Pool : Type) where
  routes : List PostgresRoute
  snapshot : Snapshot Pool

/-- `events` is the content of the status channel. The last two fields are auxiliary:
whether the cache changed after the last attempt to list it, and all publications. -/
structure RouteTable (Pool : Type) where
  wake : Debounce := {}
  phase : BuilderPhase Pool
  store : Snapshot Pool := { table := Table.new ∅, decisions := ∅ }
  events : List NamespacedName := []
  unlisted : Bool := true
  published : List (Publication Pool) := []

/-- `register` carries the number of objects the informer already holds, `list` the order
in which the cache lists its routes, `resolve` what the resolver answers at the time, and
`publish` the order in which the changed decisions are visited. -/
inductive TableAction (Pool : Type) where
  | register (existing : Nat)
  | list (routes : List PostgresRoute)
  | listFails
  | resolve (resolver : Resolver Pool)
  | publish (changed : List NamespacedName)
  | notify
  | rebuilt
  | schedule
  | receive
  | fire
  | tick

namespace RouteTable

def start (b : RouteTableBuilder) : RouteTable Pool := { phase := .watching b.watched }

/-- The cache changes; a registered handler is about to be called. -/
def cacheChanged (s : RouteTable Pool) (kind : ObjectKind) : RouteTable Pool :=
  { s with
    wake := s.wake.request (if s.phase.registered kind then 1 else 0)
    unlisted := true }

/-- A send that does not block: the event is dropped if the channel is full. -/
def notify (b : RouteTableBuilder) (events : List NamespacedName) (key : NamespacedName) :
    List NamespacedName :=
  if events.length < b.statusEvents.getD 0 then events ++ [key] else events

def snapshot (st : BuildState Pool) : Snapshot Pool :=
  { table := Table.new st.table, decisions := st.decisions }

def step [GoFmt] (b : RouteTableBuilder) (cache : Store PostgresRoute.key)
    (s : RouteTable Pool) : TableAction Pool → Option (RouteTable Pool)
  | .register existing =>
    match s.phase with
    | .watching (_ :: rest) =>
      some { s with phase := .watchRest rest, wake := s.wake.request existing }
    | _ => none
  | .list routes =>
    match s.phase with
    | .listing =>
      if cache.Lists routes then
        some { s with phase := .building routes (sliceStable less routes) {}, unlisted := false }
      else none
    | _ => none
  | .listFails =>
    match s.phase with
    | .listing => some { s with phase := .selecting, unlisted := false }
    | _ => none
  | .resolve resolver =>
    match s.phase with
    | .building routes (route :: rest) st =>
      some { s with
        phase := .building routes rest (buildStep resolver b.clusterDomain st route) }
    | _ => none
  | .publish changed =>
    match s.phase with
    | .building routes [] st =>
      if changed.Nodup ∧ changed.toFinset =
          (if b.statusEvents.isSome then changedKeys s.store (snapshot st) else ∅) then
        some { s with
          phase := .notifying changed
          store := snapshot st
          published := s.published ++ [{ routes, snapshot := snapshot st }] }
      else none
    | _ => none
  | .notify =>
    match s.phase with
    | .notifying (key :: rest) =>
      some { s with phase := .notifying rest, events := notify b s.events key }
    | _ => none
  | .rebuilt =>
    match s.phase with
    | .notifying [] => some { s with phase := .selecting }
    | _ => none
  | .schedule => s.wake.schedule.map fun wake => { s with wake }
  | .receive =>
    match s.phase with
    | .selecting => s.wake.receive.map fun wake => { s with wake }
    | _ => none
  | .fire => s.wake.fire.map fun wake => { s with wake }
  | .tick =>
    match s.phase with
    | .selecting => s.wake.tick.map fun wake => { s with wake, phase := .listing }
    | _ => none

inductive Move [GoFmt] (b : RouteTableBuilder) (cache : Store PostgresRoute.key)
    (s : RouteTable Pool) : TableAction Pool → RouteTable Pool → Prop
  | registered {existing : Nat} {kind : ObjectKind} {rest : List ObjectKind}
      (hphase : s.phase = .watching (kind :: rest)) :
      Move b cache s (.register existing)
        { s with phase := .watchRest rest, wake := s.wake.request existing }
  | listed {routes : List PostgresRoute} (hphase : s.phase = .listing)
      (hlists : cache.Lists routes) :
      Move b cache s (.list routes)
        { s with phase := .building routes (sliceStable less routes) {}, unlisted := false }
  | listFailed (hphase : s.phase = .listing) :
      Move b cache s .listFails { s with phase := .selecting, unlisted := false }
  | resolved {resolver : Resolver Pool} {routes rest : List PostgresRoute} {route : PostgresRoute}
      {st : BuildState Pool} (hphase : s.phase = .building routes (route :: rest) st) :
      Move b cache s (.resolve resolver)
        { s with phase := .building routes rest (buildStep resolver b.clusterDomain st route) }
  | published {changed : List NamespacedName} {routes : List PostgresRoute} {st : BuildState Pool}
      (hphase : s.phase = .building routes [] st) (hnodup : changed.Nodup)
      (hchanged : changed.toFinset =
        if b.statusEvents.isSome then changedKeys s.store (snapshot st) else ∅) :
      Move b cache s (.publish changed)
        { s with
          phase := .notifying changed
          store := snapshot st
          published := s.published ++ [{ routes, snapshot := snapshot st }] }
  | notified {key : NamespacedName} {rest : List NamespacedName}
      (hphase : s.phase = .notifying (key :: rest)) :
      Move b cache s .notify { s with phase := .notifying rest, events := notify b s.events key }
  | rebuilt (hphase : s.phase = .notifying []) :
      Move b cache s .rebuilt { s with phase := .selecting }
  | scheduled {wake : Debounce} (h : s.wake.schedule = some wake) :
      Move b cache s .schedule { s with wake }
  | received {wake : Debounce} (hphase : s.phase = .selecting) (h : s.wake.receive = some wake) :
      Move b cache s .receive { s with wake }
  | fired {wake : Debounce} (h : s.wake.fire = some wake) : Move b cache s .fire { s with wake }
  | ticked {wake : Debounce} (hphase : s.phase = .selecting) (h : s.wake.tick = some wake) :
      Move b cache s .tick { s with wake, phase := .listing }

theorem step_move [GoFmt] {b : RouteTableBuilder} {cache : Store PostgresRoute.key}
    {s t : RouteTable Pool} {a : TableAction Pool} (h : s.step b cache a = some t) :
    Move b cache s a t := by
  cases a with
  | register existing =>
    simp only [step] at h
    split at h
    · rename_i hphase
      obtain rfl := Option.some.inj h
      exact .registered hphase
    · simp at h
  | list routes =>
    simp only [step] at h
    split at h
    · rename_i hphase
      obtain ⟨hlists, ⟨⟩⟩ := Option.ite_none_right_eq_some.mp h
      exact .listed hphase hlists
    · simp at h
  | listFails =>
    simp only [step] at h
    split at h
    · rename_i hphase
      obtain rfl := Option.some.inj h
      exact .listFailed hphase
    · simp at h
  | resolve resolver =>
    simp only [step] at h
    split at h
    · rename_i hphase
      obtain rfl := Option.some.inj h
      exact .resolved hphase
    · simp at h
  | publish changed =>
    simp only [step] at h
    split at h
    · rename_i hphase
      obtain ⟨⟨hnodup, hchanged⟩, ⟨⟩⟩ := Option.ite_none_right_eq_some.mp h
      exact .published hphase hnodup hchanged
    · simp at h
  | notify =>
    simp only [step] at h
    split at h
    · rename_i hphase
      obtain rfl := Option.some.inj h
      exact .notified hphase
    · simp at h
  | rebuilt =>
    simp only [step] at h
    split at h
    · rename_i hphase
      obtain rfl := Option.some.inj h
      exact .rebuilt hphase
    · simp at h
  | schedule =>
    obtain ⟨wake, hwake, rfl⟩ := Option.map_eq_some_iff.mp h
    exact .scheduled hwake
  | receive =>
    simp only [step] at h
    split at h
    · rename_i hphase
      obtain ⟨wake, hwake, rfl⟩ := Option.map_eq_some_iff.mp h
      exact .received hphase hwake
    · simp at h
  | fire =>
    obtain ⟨wake, hwake, rfl⟩ := Option.map_eq_some_iff.mp h
    exact .fired hwake
  | tick =>
    simp only [step] at h
    split at h
    · rename_i hphase
      obtain ⟨wake, hwake, rfl⟩ := Option.map_eq_some_iff.mp h
      exact .ticked hphase hwake
    · simp at h

end RouteTable
end PgProxy
