import PgProxy.Registry.Award

/-!
# Build against its specification

The specification does not sort: a name belongs to the claimant that comes before all
others by priority, age, namespace and name. Who that is does not depend on any
resolution, so a resolution decides nothing but the decision and the table entry of the
route it was made for.
-/

namespace PgProxy
set_option autoImplicit false

/-- The route claims the name and comes before every other claimant. -/
structure Wins (routes : List PostgresRoute) (database : GoString) (w : PostgresRoute) : Prop where
  listed : w ∈ routes
  claims : w.effectiveDatabase = database
  first : ∀ r ∈ routes, r.effectiveDatabase = database → r ≠ w → Before w r

section Winner
variable {routes : List PostgresRoute} {database : GoString} {w : PostgresRoute}

theorem wins_of_firstClaimant (hd : DistinctKeys routes)
    (hw : firstClaimant (sliceStable less routes) database = some w) :
    Wins routes database w := by
  obtain ⟨hmem, hclaims⟩ := firstClaimant_some hw
  have hlisted := (sliceStable_perm less routes).subset hmem
  refine ⟨hlisted, hclaims, fun r hr hdb hne => ?_⟩
  have hnot : less r w = false := sliceStable_find?_min less_ranks hw hr (by simpa using hdb)
  rcases (less_strictTotalOn hd).total r hr w hlisted hne with hless | hless
  · rw [hnot] at hless
    exact absurd hless (by simp)
  · exact (less_iff_before w r).mp hless

theorem Wins.unique {w' : PostgresRoute} (h : Wins routes database w)
    (h' : Wins routes database w') : w = w' := by
  by_contra hne
  exact before_ranks.asymm (h.first w' h'.listed h'.claims (Ne.symm hne))
    (h'.first w h.listed h.claims hne)

theorem exists_winner (hd : DistinctKeys routes) {r : PostgresRoute} (hr : r ∈ routes) :
    ∃ w, firstClaimant (sliceStable less routes) r.effectiveDatabase = some w ∧
      Wins routes r.effectiveDatabase w := by
  obtain ⟨w, hw⟩ := exists_firstClaimant ((sliceStable_perm less routes).symm.subset hr)
  exact ⟨w, hw, wins_of_firstClaimant hd hw⟩

end Winner

section Build
variable [GoFmt] {Pool : Type}

/-- What a snapshot says about a name, given the route that wins it. -/
structure AwardedTo (resolver : Resolver Pool) (clusterDomain : GoString)
    (routes : List PostgresRoute) (snapshot : Snapshot Pool) (database : GoString)
    (w : PostgresRoute) : Prop where
  lookup : ∀ route, snapshot.table.lookup database = some route ↔
    resolve resolver clusterDomain w = .ok route
  resolved : ∀ route, resolve resolver clusterDomain w = .ok route →
    route.source = w.key ∧ route.database = database ∧
      snapshot.decision w.key = some { database, accepted := true, endpoint := route.address }
  unresolved : ∀ e, resolve resolver clusterDomain w = .error e →
    snapshot.decision w.key = some { database, accepted := true, resolveErr := some e }
  losers : ∀ r ∈ routes, r.effectiveDatabase = database → r ≠ w →
    snapshot.decision r.key = some
      { database, accepted := false, conflictsWith := w.key, endpoint := [], resolveErr := none }

variable {resolver : Resolver Pool} {clusterDomain : GoString} {routes : List PostgresRoute}
variable (hd : DistinctKeys routes)
include hd

theorem build_decision_isSome_iff (key : NamespacedName) :
    ((build resolver clusterDomain routes).decision key).isSome ↔ ∃ r ∈ routes, r.key = key := by
  have hperm := sliceStable_perm less routes
  have hlookup : (build resolver clusterDomain routes).decision key =
      (routeWithKey (sliceStable less routes) key).map
        (verdict resolver clusterDomain (sliceStable less routes)) :=
    (build_awarded hd).decisions key
  rw [hlookup, Option.isSome_map, routeWithKey, List.find?_isSome]
  constructor
  · rintro ⟨r, hr, hkey⟩
    exact ⟨r, hperm.subset hr, by simpa using hkey⟩
  · rintro ⟨r, hr, hkey⟩
    exact ⟨r, hperm.symm.subset hr, by simpa using hkey⟩

theorem verdict_of_winner {w : PostgresRoute} (hw : w ∈ routes)
    (hfirst : firstClaimant (sliceStable less routes) w.effectiveDatabase = some w) :
    (build resolver clusterDomain routes).decision w.key =
      some (wonDecision resolver clusterDomain w) := by
  rw [build_decision hd hw, verdict, hfirst]
  simp only [if_true]

theorem verdict_of_loser {r w : PostgresRoute} (hr : r ∈ routes) (hne : r ≠ w)
    (hfirst : firstClaimant (sliceStable less routes) r.effectiveDatabase = some w) :
    (build resolver clusterDomain routes).decision r.key = some (lostDecision w.key r) := by
  have hkey : w.key ≠ r.key := by
    intro heq
    have hw := (sliceStable_perm less routes).subset (firstClaimant_some hfirst).1
    exact hne (hd.eq_of_key hr hw heq.symm)
  rw [build_decision hd hr, verdict, hfirst]
  simp only [if_neg hkey]

theorem awardedTo_of_firstClaimant {database : GoString} {w : PostgresRoute}
    (hw : firstClaimant (sliceStable less routes) database = some w) :
    AwardedTo resolver clusterDomain routes (build resolver clusterDomain routes) database w := by
  obtain ⟨hmem, rfl⟩ := firstClaimant_some hw
  have hdecision : (build resolver clusterDomain routes).decision w.key =
      some (wonDecision resolver clusterDomain w) :=
    verdict_of_winner hd ((sliceStable_perm less routes).subset hmem) hw
  constructor
  · intro route
    rw [build_lookup hd, hw, Option.bind_some]
    cases hr : resolve resolver clusterDomain w <;> simp [Except.toOption]
  · intro route hr
    obtain ⟨hsource, hdatabase, -⟩ := resolve_names hr
    refine ⟨hsource, hdatabase, ?_⟩
    rw [hdecision, wonDecision, hr]
  · intro e he
    rw [hdecision, wonDecision, he]
  · intro r hr hdb hne
    rw [← hdb] at hw ⊢
    exact verdict_of_loser hd hr hne hw

variable (resolver clusterDomain) in
/-- For every list of routes with distinct keys: every route and nothing else has a
decision, every claimed name goes to the claimant that comes first, and a name nobody
claims is not routed. -/
theorem build_meets_its_specification :
    (∀ key, ((build resolver clusterDomain routes).decision key).isSome ↔
      ∃ r ∈ routes, r.key = key) ∧
    (∀ database, (∃ r ∈ routes, r.effectiveDatabase = database) →
      ∃ w, Wins routes database w ∧
        AwardedTo resolver clusterDomain routes (build resolver clusterDomain routes)
          database w) ∧
    (∀ database, (∀ r ∈ routes, r.effectiveDatabase ≠ database) →
      (build resolver clusterDomain routes).table.lookup database = none) := by
  refine ⟨build_decision_isSome_iff hd, ?_, ?_⟩
  · rintro database ⟨r, hr, rfl⟩
    obtain ⟨w, hfirst, hwins⟩ := exists_winner hd hr
    exact ⟨w, hwins, awardedTo_of_firstClaimant hd hfirst⟩
  · intro database hnone
    cases hlookup : (build resolver clusterDomain routes).table.lookup database with
    | none => rfl
    | some route =>
      obtain ⟨r, hr, hdb, -⟩ := build_lookup_resolved hlookup
      exact absurd hdb (hnone r hr)

/-! ## Two clusters -/

/-- The part of a decision that says who owns the name. -/
def Decision.ownership (d : Decision) : GoString × Bool × NamespacedName :=
  (d.database, d.accepted, d.conflictsWith)

omit hd in
theorem wonDecision_ownership (resolver : Resolver Pool) (clusterDomain : GoString)
    (r : PostgresRoute) : (wonDecision resolver clusterDomain r).ownership =
      (r.effectiveDatabase, true, ⟨[], []⟩) := by
  unfold wonDecision
  cases resolve resolver clusterDomain r <;> rfl

variable {resolver' : Resolver Pool} {clusterDomain' : GoString}

theorem ownership_of_mem {r : PostgresRoute} (hr : r ∈ routes) :
    ((build resolver clusterDomain routes).decision r.key).map Decision.ownership =
      ((build resolver' clusterDomain' routes).decision r.key).map Decision.ownership := by
  obtain ⟨w, hfirst, -⟩ := exists_winner hd hr
  by_cases hrw : r = w
  · subst hrw
    simp only [verdict_of_winner hd hr hfirst, Option.map_some, wonDecision_ownership]
  · simp only [verdict_of_loser hd hr hrw hfirst]

theorem decision_of_same_resolution {r : PostgresRoute} (hr : r ∈ routes)
    (hsame : resolve resolver clusterDomain r = resolve resolver' clusterDomain' r) :
    (build resolver clusterDomain routes).decision r.key =
      (build resolver' clusterDomain' routes).decision r.key := by
  obtain ⟨w, hfirst, -⟩ := exists_winner hd hr
  by_cases hrw : r = w
  · subst hrw
    simp only [verdict_of_winner hd hr hfirst, wonDecision, hsame]
  · simp only [verdict_of_loser hd hr hrw hfirst]

variable (resolver resolver' clusterDomain clusterDomain') in
/-- Two clusters that answer resolutions differently agree on who owns which name, and on
everything about a route whose own resolution is the same in both. -/
theorem ownership_ignores_resolution :
    (∀ key, ((build resolver clusterDomain routes).decision key).map Decision.ownership =
      ((build resolver' clusterDomain' routes).decision key).map Decision.ownership) ∧
    (∀ r ∈ routes, resolve resolver clusterDomain r = resolve resolver' clusterDomain' r →
      (build resolver clusterDomain routes).decision r.key =
        (build resolver' clusterDomain' routes).decision r.key ∧
      (Wins routes r.effectiveDatabase r →
        (build resolver clusterDomain routes).table.lookup r.effectiveDatabase =
          (build resolver' clusterDomain' routes).table.lookup r.effectiveDatabase)) := by
  constructor
  · intro key
    by_cases hkey : ∃ r ∈ routes, r.key = key
    · obtain ⟨r, hr, rfl⟩ := hkey
      exact ownership_of_mem hd hr
    · have hnone : ∀ (res : Resolver Pool) (domain : GoString),
          (build res domain routes).decision key = none := by
        intro res domain
        rw [← Option.not_isSome_iff_eq_none, build_decision_isSome_iff hd]
        exact hkey
      rw [hnone, hnone]
  · intro r hr hsame
    refine ⟨decision_of_same_resolution hd hr hsame, fun hwins => ?_⟩
    obtain ⟨w, hfirst, hw⟩ := exists_winner hd hr
    obtain rfl := hwins.unique hw
    rw [build_lookup hd, build_lookup hd, hfirst, Option.bind_some, Option.bind_some, hsame]

end Build

/-- A route whose Service does not exist, with a priority that beats the default. -/
def brokenRoute : PostgresRoute where
  metadata := { ns := str "east", name := str "broken" }
  spec := { database := str "app", priority := 10, backend :=
    { type := .service, service := some ⟨str "gone", [], .int 5432⟩ } }

theorem build_meets_its_specification_unresolved :
    let routes := [appRoute "west" "main" "db", brokenRoute]
    let snapshot := @build Unit plainQuote emptyCluster (str "cluster.local") routes
    DistinctKeys routes ∧ Wins routes (str "app") brokenRoute ∧
    snapshot.table.lookup (str "app") = none ∧
    (snapshot.decision brokenRoute.key).map Decision.accepted = some true := by
  intro routes snapshot
  let _ : GoFmt := plainQuote
  have hd : DistinctKeys routes := by decide
  obtain ⟨-, hnames, -⟩ :=
    @build_meets_its_specification plainQuote Unit emptyCluster (str "cluster.local") routes hd
  obtain ⟨w, hwins, hawarded⟩ := hnames (str "app") ⟨brokenRoute, by simp [routes], by decide⟩
  have hw : w = brokenRoute := by
    by_contra hne
    have hbefore := hwins.first brokenRoute (by simp [routes]) (by decide) (Ne.symm hne)
    rcases List.mem_cons.mp hwins.listed with rfl | hin
    · exact absurd ((less_iff_before _ _).mpr hbefore) (by decide)
    · exact hne (List.mem_singleton.mp hin)
  subst hw
  have herror : ∃ e, @resolve Unit plainQuote emptyCluster (str "cluster.local") brokenRoute =
      .error e := ⟨_, rfl⟩
  obtain ⟨e, he⟩ := herror
  refine ⟨hd, hwins, ?_, ?_⟩
  · cases hlookup : snapshot.table.lookup (str "app") with
    | none => rfl
    | some route =>
      have hok := (hawarded.lookup route).mp hlookup
      rw [he] at hok
      simp at hok
  · rw [hawarded.unresolved e he]
    rfl

theorem ownership_ignores_resolution_of_broken :
    let a := appRoute "west" "main" "db"
    let routes := [a, brokenRoute]
    let broken := @build Unit plainQuote emptyCluster (str "cluster.local") routes
    let healthy := @build Unit plainQuote healthyCluster (str "cluster.local") routes
    DistinctKeys routes ∧
    (broken.decision brokenRoute.key).map Decision.ownership =
      (healthy.decision brokenRoute.key).map Decision.ownership ∧
    broken.decision a.key = healthy.decision a.key ∧
    broken.decision brokenRoute.key ≠ healthy.decision brokenRoute.key := by
  intro a routes broken healthy
  have hd : DistinctKeys routes := by decide
  obtain ⟨howners, hroutes⟩ := @ownership_ignores_resolution plainQuote Unit emptyCluster
    (str "cluster.local") routes hd healthyCluster (str "cluster.local")
  exact ⟨hd, howners _, (hroutes a (by simp [routes]) rfl).1, by decide⟩

end PgProxy
