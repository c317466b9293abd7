import PgProxy.Registry.Table

/-!
# Every replica builds the same table

`less` is a chain of four keys. Two routes tie in it only if namespace and name
agree, so on routes with distinct keys the sorted list, and with it everything
`build` computes, does not depend on the order the routes were listed in.
-/

namespace PgProxy
set_option autoImplicit false

instance int32_gt_strictTotal : IsStrictTotalOrder Int32 (· > ·) where
  irrefl a h := Int.lt_irrefl _ (Int32.lt_iff_toInt_lt.mp h)
  trans a b c hab hbc :=
    Int32.lt_iff_toInt_lt.mpr ((Int32.lt_iff_toInt_lt.mp hbc).trans (Int32.lt_iff_toInt_lt.mp hab))
  trichotomous a b hab hba := by
    have h1 := mt Int32.lt_iff_toInt_lt.mpr hab
    have h2 := mt Int32.lt_iff_toInt_lt.mpr hba
    exact Int32.toInt_inj.mp (by omega)

instance goString_lt_strictTotal : IsStrictTotalOrder GoString (· < ·) where
  irrefl := List.lt_irrefl
  trans _ _ _ := List.lt_trans
  trichotomous _ _ hab hba := List.le_antisymm hba hab

/-- The four keys of the comparator, outermost first. -/
def Before : PostgresRoute → PostgresRoute → Prop :=
  ByKey (fun r => r.spec.priority) (· > ·)
    (ByKey (fun r => r.metadata.creationTimestamp) (· < ·)
      (ByKey (fun r => r.metadata.ns) (· < ·)
        (ByKey (fun r => r.metadata.name) (· < ·) fun _ _ => False)))

theorem less_iff_before (a b : PostgresRoute) : less a b = true ↔ Before a b := by
  apply ite_byKey (fun r : PostgresRoute => r.spec.priority)
  apply ite_byKey (fun r : PostgresRoute => r.metadata.creationTimestamp)
  apply ite_byKey (fun r : PostgresRoute => r.metadata.ns)
  simp [ByKey]

theorem before_ranks : Ranks Before :=
  .byKey _ (.byKey _ (.byKey _ (.byKey _ .never)))

theorem less_ranks : Ranks fun a b => less a b = true := by
  simp only [less_iff_before]
  exact before_ranks

theorem key_eq_of_tied {a b : PostgresRoute}
    (h : Tied (fun a b => less a b = true) a b) : a.key = b.key := by
  have hb : Tied Before a b := ⟨fun h' => h.1 ((less_iff_before a b).mpr h'),
    fun h' => h.2 ((less_iff_before b a).mpr h')⟩
  have hns := (tied_byKey _ (tied_byKey _ hb).2).2
  have hname := (tied_byKey _ hns).2
  exact congrArg₂ NamespacedName.mk (tied_byKey _ hns).1 (tied_byKey _ hname).1

def DistinctKeys (routes : List PostgresRoute) : Prop := (routes.map PostgresRoute.key).Nodup

instance (routes : List PostgresRoute) : Decidable (DistinctKeys routes) :=
  inferInstanceAs (Decidable (List.Nodup _))

theorem DistinctKeys.eq_of_key {routes : List PostgresRoute} (h : DistinctKeys routes)
    {a b : PostgresRoute} (ha : a ∈ routes) (hb : b ∈ routes) (hk : a.key = b.key) : a = b :=
  List.inj_on_of_nodup_map h ha hb hk

theorem DistinctKeys.perm {routes routes' : List PostgresRoute} (h : DistinctKeys routes)
    (hp : routes.Perm routes') : DistinctKeys routes' :=
  (hp.map PostgresRoute.key).nodup_iff.mp h

theorem sorted_eq_of_perm {routes routes' : List PostgresRoute} (hd : DistinctKeys routes)
    (hp : routes.Perm routes') : sliceStable less routes = sliceStable less routes' :=
  sliceStable_eq_of_perm less_ranks hp fun _ ha _ hb ht => hd.eq_of_key ha hb (key_eq_of_tied ht)

/-- A strict total order on the members of a list. -/
structure StrictTotalOn (less : PostgresRoute → PostgresRoute → Bool)
    (routes : List PostgresRoute) : Prop where
  irrefl : ∀ a ∈ routes, less a a = false
  trans : ∀ a ∈ routes, ∀ b ∈ routes, ∀ c ∈ routes,
    less a b = true → less b c = true → less a c = true
  total : ∀ a ∈ routes, ∀ b ∈ routes, a ≠ b → less a b = true ∨ less b a = true

theorem less_strictTotalOn {routes : List PostgresRoute} (hd : DistinctKeys routes) :
    StrictTotalOn less routes where
  irrefl a _ := Bool.eq_false_iff.mpr (less_ranks.irrefl a)
  trans _ _ _ _ _ _ hab hbc := less_ranks.trans hab hbc
  total a ha b hb hne := by
    by_contra hnot
    obtain ⟨hab, hba⟩ := not_or.mp hnot
    exact hne (hd.eq_of_key ha hb (key_eq_of_tied ⟨hab, hba⟩))

section Build
variable {Pool : Type} [GoFmt]

/-- Whatever order the API server lists the routes in, every replica serves the
same table and reports the same decisions. -/
theorem replicas_agree (resolver : Resolver Pool) (clusterDomain : GoString)
    {routes routes' : List PostgresRoute} (hd : DistinctKeys routes)
    (hp : routes.Perm routes') :
    (∀ database, (build resolver clusterDomain routes).table.lookup database =
      (build resolver clusterDomain routes').table.lookup database) ∧
    (∀ key, (build resolver clusterDomain routes).decision key =
      (build resolver clusterDomain routes').decision key) ∧
    StrictTotalOn less routes := by
  have hsorted := sorted_eq_of_perm hd hp
  have hbuild : build resolver clusterDomain routes = build resolver clusterDomain routes' := by
    simp only [build, hsorted]
  exact ⟨fun _ => by rw [hbuild], fun _ => by rw [hbuild], less_strictTotalOn hd⟩

end Build

def appRoute (ns name host : String) : PostgresRoute where
  metadata := { ns := str ns, name := str name }
  spec := { database := str "app", backend :=
    { type := .address, address := some ⟨str host, 5432⟩ } }

def emptyCluster : Resolver Unit where
  resolveServicePort _ _ _ := .error (.sentinel .backendNotFound)
  loadCABundle _ _ _ := .error (.other [])

def healthyCluster : Resolver Unit where
  resolveServicePort _ _
    | .int v => .ok v
    | _ => .error (.sentinel .portNotFound)
  loadCABundle _ _ _ := .error (.other [])

theorem replicas_agree_on_tie :
    let a := appRoute "east" "main" "db1"
    let b := appRoute "west" "main" "db2"
    let snapshot := @build Unit plainQuote emptyCluster (str "cluster.local")
    DistinctKeys [a, b] ∧ [a, b].Perm [b, a] ∧ StrictTotalOn less [a, b] ∧
    ((snapshot [a, b]).table.lookup (str "app")).map Route.source = some a.key ∧
    (snapshot [a, b]).table.lookup (str "app") = (snapshot [b, a]).table.lookup (str "app") := by
  intro a b snapshot
  have hd : DistinctKeys [a, b] := by decide
  have hp : [a, b].Perm [b, a] := .swap b a []
  have h := @replicas_agree Unit plainQuote emptyCluster (str "cluster.local") _ _ hd hp
  exact ⟨hd, hp, h.2.2, by decide, h.1 _⟩

end PgProxy
