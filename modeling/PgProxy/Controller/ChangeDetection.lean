import PgProxy.Controller.FailureReasons
import PgProxy.Controller.StatusHistory
import PgProxy.Lib.Delimited
import PgProxy.Lib.Runs

/-!
# Change detection and the status

`decisionChanged` compares the fields of two decisions and the texts of their errors. The
status is derived by another function, which also looks at what an error wraps. For the
decisions that `build` makes with a resolver over the API both see the `report` of a
decision and nothing else: names have no slash in them, and the way a NotFound error of the
API ends tells it from the other errors of a CA bundle.
-/

namespace PgProxy
set_option autoImplicit false

/-- What a reader sees of a condition of a given type. -/
def Condition.shown (c : Condition) : ConditionStatus × GoString × GoString :=
  (c.status, c.reason, c.message)

/-- Two statuses look the same, generations and transition times apart. -/
structure SameVisible (a b : PostgresRouteStatus) : Prop where
  database : a.database = b.database
  endpoint : a.endpoint = b.endpoint
  conflictingRoute : a.conflictingRoute = b.conflictingRoute
  conditions : ∀ type, (findStatusCondition a.conditions type).map Condition.shown =
    (findStatusCondition b.conditions type).map Condition.shown

theorem Stored.shown {cs : List Condition} {generation : Int} {want : Condition}
    (h : Stored cs generation want) :
    (findStatusCondition cs want.type).map Condition.shown = some want.shown := by
  obtain ⟨got, hgot, hstatus, hreason, hmessage, -⟩ := h
  rw [hgot, Option.map_some, Condition.shown, hstatus, hreason, hmessage, Condition.shown]

theorem SameVisible.shown_eq {a b : PostgresRouteStatus} (h : SameVisible a b) {g g' : Int}
    {want want' : Condition} (hwant : Stored a.conditions g want)
    (hwant' : Stored b.conditions g' want') (htype : want.type = want'.type) :
    want.shown = want'.shown := by
  have hshown := h.conditions want.type
  rw [hwant.shown, htype, hwant'.shown] at hshown
  exact Option.some.inj hshown

theorem NamespacedName.string_injective {k k' : NamespacedName} (hk : 47 ∉ k.ns)
    (hk' : 47 ∉ k'.ns) (h : k.string = k'.string) : k = k' := by
  have hcut : ∀ k : NamespacedName, k.string = k.ns ++ 47 :: k.name := by
    intro k
    rw [NamespacedName.string, List.append_assoc]
    rfl
  rw [hcut, hcut] at h
  obtain ⟨hns, hname⟩ := Delimited.cut_unique hk hk' h
  cases k
  cases k'
  exact NamespacedName.mk.injEq .. ▸ ⟨hns, hname⟩

section Status
variable [GoFmt] {setter setter' : ConditionSetter} {route : PostgresRoute} {d d' : Decision}

theorem findStatusCondition_desired {type : GoString} (h : type ∉ ownConditions) :
    findStatusCondition (desiredStatus setter route d).conditions type =
      findStatusCondition route.status.conditions type := by
  rw [← findStatusCondition_others h, (keeps_desired setter route d).others,
    findStatusCondition_others h]

theorem sameVisible_of_report (h : d.report = d'.report) :
    SameVisible (desiredStatus setter route d) (desiredStatus setter' route d') := by
  have hreports := (reports_desired setter route d).of_report h
  have hreports' := reports_desired setter' route d'
  refine ⟨hreports.database.trans hreports'.database.symm,
    hreports.endpoint.trans hreports'.endpoint.symm,
    hreports.conflictingRoute.trans hreports'.conflictingRoute.symm, fun type => ?_⟩
  by_cases htype : type ∈ ownConditions
  · obtain ⟨c, hc, rfl⟩ := exists_setCondition htype d'
    rw [(hreports.stored hc).shown, (hreports'.stored hc).shown]
  · rw [findStatusCondition_desired htype, findStatusCondition_desired htype]

theorem SameVisible.resolved
    (h : SameVisible (desiredStatus setter route d) (desiredStatus setter' route d')) :
    (resolvedCondition d).shown = (resolvedCondition d').shown :=
  h.shown_eq (reports_desired setter route d).resolved (reports_desired setter' route d').resolved
    (by rw [resolvedCondition_type, resolvedCondition_type])

theorem SameVisible.accepted_eq
    (h : SameVisible (desiredStatus setter route d) (desiredStatus setter' route d')) :
    d.accepted = d'.accepted := by
  have hshown := h.shown_eq (reports_desired setter route d).accepted
    (reports_desired setter' route d').accepted
    (by rw [acceptedCondition_type, acceptedCondition_type])
  have hstatus := congrArg Prod.fst hshown
  cases hd : d.accepted <;> cases hd' : d'.accepted <;>
    simp [Condition.shown, acceptedCondition, hd, hd'] at hstatus ⊢

end Status

theorem report_ext {d d' : Decision} (hdatabase : d.database = d'.database)
    (haccepted : d.accepted = d'.accepted) (hconflict : d.conflictsWith = d'.conflictsWith)
    (hendpoint : d.endpoint = d'.endpoint)
    (herr : (d.resolveErr.map fun e => (resolveFailureReason e, e.text)) =
      d'.resolveErr.map fun e => (resolveFailureReason e, e.text)) : d.report = d'.report := by
  rw [Decision.report, Decision.report, hdatabase, haccepted, hconflict, hendpoint, herr]

theorem unchanged_of_report {d d' : Decision} (h : d.report = d'.report) :
    decisionChanged d d' = false := by
  simp only [Decision.report, Prod.mk.injEq] at h
  obtain ⟨hdatabase, haccepted, hconflict, hendpoint, herr⟩ := h
  have htext : errorMessage d.resolveErr = errorMessage d'.resolveErr := by
    have hmessage : ∀ err : Option GoError, errorMessage err =
        ((err.map fun e => (resolveFailureReason e, e.text)).map Prod.snd).getD [] := by
      intro err
      cases err <;> rfl
    rw [hmessage, hmessage, herr]
  simp [decisionChanged, hdatabase, haccepted, hconflict, hendpoint, htext]

/-! ## Errors that read the same -/

/-- Reads of Secrets that fail with one text agree on whether the Secret is not there. -/
def SameMeaning (a b : ApiReader) : Prop :=
  ∀ {key key' : NamespacedName} {e e' : GoError}, a.getSecret key = .error e →
    b.getSecret key' = .error e' → e.text = e'.text → e.isNotFound = e'.isNotFound

/-- The words in which the API says that a Secret is not there: they end in `not found`, or in
a bracket if the server knows no such resource. -/
def NotFoundTexts (api : ApiReader) : Prop :=
  ∀ {key : NamespacedName} {e : GoError}, api.getSecret key = .error e → e.isNotFound = true →
    ∃ stem, e.text = stem ++ str "not found" ∨ e.text = stem ++ str ")"

/-- The error of an unreadable Secret, cut at the first slash after the name. -/
theorem unreadable_text (ns name : GoString) (err : GoError) :
    (errorfWrap (str "secret " ++ (ns ++ str "/" ++ name) ++ str " (it must carry the label " ++
      caBundleLabel ++ str "=true to be readable)") err).text =
      str "secret " ++ (ns ++ str "/") ++ ((name ++ str " (it must carry the label pgproxy.io") ++
        47 :: (str "ca-bundle=true to be readable): " ++ err.text)) := by
  simp only [errorfWrap, GoError.text, List.append_assoc]
  rfl

theorem unreadable_text_inj {ns name name' : GoString} {err err' : GoError} (hname : 47 ∉ name)
    (hname' : 47 ∉ name')
    (h : str "secret " ++ (ns ++ str "/") ++
        ((name ++ str " (it must carry the label pgproxy.io") ++
          47 :: (str "ca-bundle=true to be readable): " ++ err.text)) =
      str "secret " ++ (ns ++ str "/") ++
        ((name' ++ str " (it must carry the label pgproxy.io") ++
          47 :: (str "ca-bundle=true to be readable): " ++ err'.text))) : err.text = err'.text := by
  have hlabel : 47 ∉ str " (it must carry the label pgproxy.io" := by decide
  have hcut := Delimited.cut_unique (List.not_mem_append hname hlabel)
    (List.not_mem_append hname' hlabel) ((List.append_right_inj _).mp h)
  exact (List.append_right_inj _).mp hcut.2

theorem getLast?_append_of_some {α : Type} (l : List α) {tail : List α} {a : α}
    (h : tail.getLast? = some a) : (l ++ tail).getLast? = some a := by
  rw [List.getLast?_append, h, Option.some_or]

/-- The last byte of a CA bundle error for a Secret that is not there. -/
theorem unreadable_last {api : ApiReader} {ns name : GoString} {err : GoError}
    (htexts : NotFoundTexts api) (hread : api.getSecret ⟨ns, name⟩ = .error err)
    (hfound : err.isNotFound = true) (stem : GoString) :
    (stem ++ err.text).getLast? = some 100 ∨ (stem ++ err.text).getLast? = some 41 := by
  obtain ⟨words, hwords | hwords⟩ := htexts hread hfound <;> rw [hwords, ← List.append_assoc]
  · exact Or.inl (getLast?_append_of_some _ rfl)
  · exact Or.inr (getLast?_append_of_some _ rfl)

section Detection
variable {Pool : Type} [GoFmt]

section Api
variable {api api' : ApiReader} {caBundles caBundles' : Bool} {deps deps' : ResolverDeps Pool}

/-- An error that reads like that of a Secret which is not there is one. -/
theorem BundleFailure.isNotFound_of_text {ns name name' key key' : GoString} {e e' : GoError}
    (h : BundleFailure (api.resolver caBundles deps) ns name key e)
    (h' : BundleFailure (api'.resolver caBundles' deps') ns name' key' e')
    (hmeaning : SameMeaning api api') (htexts : NotFoundTexts api) (hname : 47 ∉ name)
    (hname' : 47 ∉ name') (htext : e.text = e'.text) (hfound : e.isNotFound = true) :
    e'.isNotFound = true := by
  cases h with
  | disabled | keyMissing | noCertificates => cases hfound
  | @unreadable err _ hread =>
    have hlast := unreadable_last htexts hread hfound
      (str "secret " ++ (ns ++ str "/" ++ name) ++ str " (it must carry the label " ++
        caBundleLabel ++ str "=true to be readable)" ++ str ": ")
    change (errorfWrap _ err).text.getLast? = _ ∨ (errorfWrap _ err).text.getLast? = _ at hlast
    cases h' with
    | unreadable _ hread' =>
      rw [unreadable_text, unreadable_text] at htext
      have hagree := hmeaning hread hread' (unreadable_text_inj hname hname' htext)
      exact hagree.symm.trans hfound
    | disabled => cases htext
    | keyMissing =>
      obtain ⟨stem, hstem⟩ := GoFmt.quote_ends key'
      rw [htext, GoError.text, hstem, ← List.append_assoc, getLast?_append_of_some _ rfl] at hlast
      exact absurd hlast (by decide)
    | noCertificates =>
      rw [htext, GoError.text, getLast?_append_of_some _ rfl] at hlast
      exact absurd hlast (by decide)

theorem BundleFailure.sameClass {ns name name' key key' : GoString} {e e' : GoError}
    (h : BundleFailure (api.resolver caBundles deps) ns name key e)
    (h' : BundleFailure (api'.resolver caBundles' deps') ns name' key' e')
    (hmeaning : SameMeaning api api') (htexts : NotFoundTexts api) (htexts' : NotFoundTexts api')
    (hname : 47 ∉ name) (hname' : 47 ∉ name') (htext : e.text = e'.text) :
    e.isNotFound = e'.isNotFound := by
  have hmeaning' : SameMeaning api' api :=
    fun hread' hread herr => (hmeaning hread hread' herr.symm).symm
  exact Bool.eq_iff_iff.mpr ⟨h.isNotFound_of_text h' hmeaning htexts hname hname' htext,
    h'.isNotFound_of_text h hmeaning' htexts' hname' hname htext.symm⟩

end Api

/-! ## The decisions of a build -/

/-- What `Build` works on: the routes, and the API as the resolver sees it. -/
structure ClusterState (Pool : Type) where
  routes : List PostgresRoute
  api : ApiReader
  caBundles : Bool
  deps : ResolverDeps Pool
  clusterDomain : GoString

namespace ClusterState

def resolver (c : ClusterState Pool) : Resolver Pool :=
  (c.api.resolver c.caBundles c.deps).resolver

def snapshot (c : ClusterState Pool) : Snapshot Pool := build c.resolver c.clusterDomain c.routes

omit [GoFmt] in
/-- There is no slash in a namespace or in the name of a Secret. -/
structure Legible (c : ClusterState Pool) : Prop where
  namespaces : ∀ r ∈ c.routes, 47 ∉ r.metadata.ns
  secrets : ∀ r ∈ c.routes, ∀ {spec ref}, r.spec.tls = some spec →
    spec.caSecretRef = some ref → 47 ∉ ref.name

omit [GoFmt] in
/-- What the errors of two clusters have in common: texts of failed reads mean the same in
both, and each says in the API's words that a Secret is not there. -/
structure SameWords (c c' : ClusterState Pool) : Prop where
  meaning : SameMeaning c.api c'.api
  notFound : NotFoundTexts c.api
  notFound' : NotFoundTexts c'.api

/-- The decisions that a build can make about a route. -/
inductive Produced (c : ClusterState Pool) (key : NamespacedName) : Decision → Prop where
  | served {r : PostgresRoute} {route : Route Pool} (hr : r ∈ c.routes) (hkey : r.key = key)
      (hresolve : resolve c.resolver c.clusterDomain r = .ok route) :
      Produced c key
        { database := r.effectiveDatabase, accepted := true, endpoint := route.address }
  | unresolved {r : PostgresRoute} {e : GoError} (hr : r ∈ c.routes) (hkey : r.key = key)
      (hresolve : resolve c.resolver c.clusterDomain r = .error e) :
      Produced c key { database := r.effectiveDatabase, accepted := true, resolveErr := some e }
  | lost {r w : PostgresRoute} (hr : r ∈ c.routes) (hkey : r.key = key) (hw : w ∈ c.routes) :
      Produced c key
        { database := r.effectiveDatabase, accepted := false, conflictsWith := w.key }

theorem produced {c : ClusterState Pool} {key : NamespacedName} {d : Decision}
    (h : c.snapshot.decision key = some d) : c.Produced key d := by
  obtain ⟨r, hr, hkey, rfl | ⟨w, hw, rfl⟩⟩ := (build_fromRoutes c.routes).decisions h
  · unfold wonDecision
    split
    · rename_i e hresolve
      exact .unresolved hr hkey hresolve
    · rename_i route hresolve
      exact .served hr hkey hresolve
  · exact .lost hr hkey hw

variable {c c' : ClusterState Pool} {key : NamespacedName} {d d' : Decision}

theorem error_text_ne_nil {r : PostgresRoute} {e : GoError}
    (h : resolve c.resolver c.clusterDomain r = .error e) : e.text ≠ [] := by
  rcases resolve_failure h with hbackend | ⟨-, htls⟩
  · cases resolveBackend_failure hbackend <;> exact fun h => by cases h
  · obtain ⟨spec, ref, key, e', -, -, -, -, rfl⟩ := resolveTLS_failure htls
    exact fun h => by cases h

theorem reason_eq (hc : c.Legible) (hc' : c'.Legible) (hwords : c.SameWords c')
    {r r' : PostgresRoute} (hr : r ∈ c.routes) (hr' : r' ∈ c'.routes) (hkey : r.key = r'.key)
    {e e' : GoError} (h : resolve c.resolver c.clusterDomain r = .error e)
    (h' : resolve c'.resolver c'.clusterDomain r' = .error e') (htext : e.text = e'.text) :
    resolveFailureReason e = resolveFailureReason e' := by
  rcases resolve_failure h with hbackend | ⟨-, htls⟩ <;>
    rcases resolve_failure h' with hbackend' | ⟨-, htls'⟩
  · rw [(resolveBackend_failure hbackend).reason, (resolveBackend_failure hbackend').reason, htext]
  · obtain ⟨spec, ref, key, e', -, -, -, -, rfl⟩ := resolveTLS_failure htls'
    exact absurd (congrArg List.head? htext) (resolveBackend_failure hbackend).head
  · obtain ⟨spec, ref, key, e, -, -, -, -, rfl⟩ := resolveTLS_failure htls
    exact absurd (congrArg List.head? htext.symm) (resolveBackend_failure hbackend').head
  · obtain ⟨spec, ref, key, e, hspec, -, href, hbundle, rfl⟩ := resolveTLS_failure htls
    obtain ⟨spec', ref', key', e', hspec', -, href', hbundle', rfl⟩ := resolveTLS_failure htls'
    have hns : r'.metadata.ns = r.metadata.ns := congrArg NamespacedName.ns hkey.symm
    rw [hns] at hbundle'
    have hsame : e.isNotFound = e'.isNotFound :=
      hbundle.sameClass hbundle' hwords.meaning hwords.notFound hwords.notFound'
        (hc.secrets r hr hspec href) (hc'.secrets r' hr' hspec' href')
        ((List.append_right_inj _).mp htext)
    rw [hbundle.reason, hbundle'.reason, hsame]

theorem Produced.report_of_unchanged (h : c.Produced key d) (h' : c'.Produced key d')
    (hc : c.Legible) (hc' : c'.Legible) (hwords : c.SameWords c')
    (hsame : decisionChanged d d' = false) : d.report = d'.report := by
  apply report_eq_of_unchanged hsame
  simp only [decisionChanged, Bool.or_eq_false_iff, decide_eq_false_iff_not, not_not] at hsame
  obtain ⟨⟨⟨⟨-, haccepted⟩, -⟩, -⟩, htext⟩ := hsame
  cases h with
  | served hr hkey hresolve =>
    cases h' with
    | served => rfl
    | unresolved _ _ hresolve' => exact absurd htext.symm (error_text_ne_nil hresolve')
    | lost => cases haccepted
  | unresolved hr hkey hresolve =>
    cases h' with
    | served => exact absurd htext (error_text_ne_nil hresolve)
    | unresolved hr' hkey' hresolve' =>
      exact congrArg some
        (reason_eq hc hc' hwords hr hr' (hkey.trans hkey'.symm) hresolve hresolve' htext)
    | lost => cases haccepted
  | lost =>
    cases h' with
    | served | unresolved => cases haccepted
    | lost => rfl

theorem Produced.report_of_sameVisible {setter setter' : ConditionSetter} {route : PostgresRoute}
    (h : c.Produced key d) (h' : c'.Produced key d') (hc : c.Legible) (hc' : c'.Legible)
    (hsame : SameVisible (desiredStatus setter route d) (desiredStatus setter' route d')) :
    d.report = d'.report := by
  have hreports := reports_desired setter route d
  have hreports' := reports_desired setter' route d'
  have hdatabase : d.database = d'.database :=
    hreports.database.symm.trans (hsame.database.trans hreports'.database)
  have hendpoint := hreports.endpoint.symm.trans (hsame.endpoint.trans hreports'.endpoint)
  have hconflict :=
    hreports.conflictingRoute.symm.trans (hsame.conflictingRoute.trans hreports'.conflictingRoute)
  have haccepted := hsame.accepted_eq
  have hresolved := hsame.resolved
  cases h with
  | served =>
    cases h' with
    | served => exact report_ext hdatabase rfl rfl hendpoint rfl
    | unresolved => cases congrArg Prod.fst hresolved
    | lost => cases haccepted
  | unresolved =>
    cases h' with
    | served => cases congrArg Prod.fst hresolved
    | unresolved =>
      -- the condition shows the reason and the text
      have herr := congrArg (fun shown => some shown.2) hresolved
      exact report_ext hdatabase rfl rfl rfl herr
    | lost => cases haccepted
  | lost _ _ hw =>
    cases h' with
    | served | unresolved => cases haccepted
    | lost _ _ hw' =>
      have hkeys := NamespacedName.string_injective (hc.namespaces _ hw) (hc'.namespaces _ hw')
        hconflict
      exact report_ext hdatabase rfl hkeys rfl rfl

theorem changed_iff (hc : c.Legible) (hc' : c'.Legible) (hwords : c.SameWords c')
    (h : c.snapshot.decision key = some d) (h' : c'.snapshot.decision key = some d')
    (setter setter' : ConditionSetter) (route : PostgresRoute) :
    decisionChanged d d' = false ↔
      SameVisible (desiredStatus setter route d) (desiredStatus setter' route d') := by
  have hproduced := produced h
  have hproduced' := produced h'
  constructor
  · intro hsame
    exact sameVisible_of_report (hproduced.report_of_unchanged hproduced' hc hc' hwords hsame)
  · intro hsame
    exact unchanged_of_report (hproduced.report_of_sameVisible hproduced' hc hc' hsame)

end ClusterState

/-! ## Notifications -/

namespace RouteTable

omit [GoFmt] in
theorem length_foldl_notify_le (b : RouteTableBuilder) (changed events : List NamespacedName) :
    (changed.foldl (notify b) events).length ≤ events.length + changed.length := by
  induction changed generalizing events with
  | nil => exact Nat.le_refl _
  | cons key changed ih =>
    have hone : (notify b events key).length ≤ events.length + 1 := by
      unfold notify
      split <;> simp
    have hrest := ih (notify b events key)
    rw [List.foldl_cons, List.length_cons]
    omega

omit [GoFmt] in
theorem foldl_notify_eq {b : RouteTableBuilder} {changed events : List NamespacedName}
    (h : (changed.foldl (notify b) events).length = events.length + changed.length) :
    changed.foldl (notify b) events = events ++ changed := by
  induction changed generalizing events with
  | nil => simp
  | cons key changed ih =>
    rw [List.foldl_cons, List.length_cons] at h
    have hrest := length_foldl_notify_le b changed (notify b events key)
    have hsent : notify b events key = events ++ [key] := by
      unfold notify at hrest h ⊢
      split
      · rfl
      · rename_i hfull
        rw [if_neg hfull] at hrest h
        omega
    rw [hsent] at h
    have hlength : (events ++ [key]).length = events.length + 1 := List.length_append
    rw [List.foldl_cons, hsent, ih (by omega), List.append_assoc, List.singleton_append]

theorem exec_notify {b : RouteTableBuilder} {cache : Store PostgresRoute.key}
    {s t : RouteTable Pool} {changed : List NamespacedName} (hphase : s.phase = .notifying changed)
    (hrun : exec (step b cache) s (List.replicate changed.length .notify) = some t) :
    t.events = changed.foldl (notify b) s.events := by
  induction changed generalizing s with
  | nil => exact Option.some.inj hrun ▸ rfl
  | cons key changed ih =>
    obtain ⟨u, hu, hrest⟩ := exec_cons.mp hrun
    cases step_move hu with
    | notified hphase' =>
      obtain ⟨rfl, rfl⟩ : _ ∧ _ := by simpa using hphase.symm.trans hphase'
      exact ih rfl hrest

theorem events_of_publication {b : RouteTableBuilder} {cache : Store PostgresRoute.key}
    {s t : RouteTable Pool} {changed : List NamespacedName} {routes : List PostgresRoute}
    {st : BuildState Pool} (hevents : b.statusEvents.isSome = true)
    (hphase : s.phase = .building routes [] st)
    (hrun : exec (step b cache) s
      (.publish changed :: List.replicate changed.length .notify) = some t)
    (hall : t.events.length = s.events.length + changed.length) :
    t.events = s.events ++ changed ∧
      ∀ key, key ∈ changed ↔ notifies s.store (snapshot st) key = true := by
  obtain ⟨u, hu, hrest⟩ := exec_cons.mp hrun
  cases step_move hu with
  | published hphase' hnodup hchanged =>
    obtain ⟨-, rfl⟩ : _ ∧ _ := by simpa using hphase.symm.trans hphase'
    have hfold := exec_notify rfl hrest
    rw [hfold] at hall ⊢
    refine ⟨foldl_notify_eq hall, fun key => ?_⟩
    rw [if_pos hevents] at hchanged
    rw [← mem_changedKeys, ← hchanged, List.mem_toFinset]

end RouteTable

/-- A decision counts as changed exactly if the status shows a difference, and so a
publication whose sends all succeed sends an event for exactly the routes that are new or
whose visible status changes. -/
theorem change_detection_matches_status {c c' : ClusterState Pool} (hc : c.Legible)
    (hc' : c'.Legible) (hwords : c.SameWords c')
    (setter setter' : ConditionSetter) (route : PostgresRoute) :
    (∀ {key before now}, c.snapshot.decision key = some before →
      c'.snapshot.decision key = some now →
      (decisionChanged before now = false ↔
        SameVisible (desiredStatus setter route before) (desiredStatus setter' route now))) ∧
    (∀ {b : RouteTableBuilder} {cache : Store PostgresRoute.key} {s t : RouteTable Pool}
        {changed routes st}, b.statusEvents.isSome = true →
      s.phase = .building routes [] st → RouteTable.snapshot st = c'.snapshot →
      s.store = c.snapshot →
      exec (RouteTable.step b cache) s
        (.publish changed :: List.replicate changed.length .notify) = some t →
      t.events.length = s.events.length + changed.length →
      ∃ sent, t.events = s.events ++ sent ∧
        ∀ key, key ∈ sent ↔ ∃ now, c'.snapshot.decision key = some now ∧
          ∀ before, c.snapshot.decision key = some before →
            ¬ SameVisible (desiredStatus setter route before)
              (desiredStatus setter' route now)) := by
  refine ⟨fun h h' => ClusterState.changed_iff hc hc' hwords h h' setter setter' route, ?_⟩
  intro b cache s t changed routes st hevents hphase hcurrent hprevious hrun hall
  obtain ⟨hsent, hchanged⟩ := RouteTable.events_of_publication hevents hphase hrun hall
  refine ⟨changed, hsent, fun key => ?_⟩
  rw [hchanged, hcurrent, hprevious]
  cases hnow : c'.snapshot.decision key with
  | none => simp [notifies, hnow]
  | some now =>
    cases hbefore : c.snapshot.decision key with
    | none => simp [notifies, hnow, hbefore]
    | some before =>
      have hiff := ClusterState.changed_iff hc hc' hwords hbefore hnow setter setter' route
      simp [notifies, hnow, hbefore, ← hiff]

end Detection

def pinnedRoute : PostgresRoute :=
  { metadata := { ns := str "team", name := str "app" }
    spec :=
      { backend := { type := .address, address := some ⟨str "10.0.0.1", 5432⟩ }
        tls := some
          { mode := .verifyCA
            caSecretRef := some { name := str "ca", key := str "tls.crt" }
            serverName := [] } } }

def pinnedCluster (api : ApiReader) : ClusterState Unit :=
  { routes := [pinnedRoute]
    api
    caBundles := true
    deps := secretlessResolver.deps
    clusterDomain := str "cluster.local" }

def absentSecrets : ApiReader where
  getService _ := .error (.api .notFound [])
  getSecret key := .error (.api .notFound (str "Secret \"" ++ key.name ++ str "\" not found"))
  service_foreign h := foreign_of_api h
  secret_foreign h := foreign_of_api h

def emptySecrets : ApiReader where
  getService _ := .error (.api .notFound [])
  getSecret key := .ok { metadata := { ns := key.ns, name := key.name } }
  service_foreign h := foreign_of_api h
  secret_foreign h := nomatch h

theorem pinnedCluster_legible (api : ApiReader) : (pinnedCluster api).Legible := by
  have hns : 47 ∉ str "team" := by decide
  have hsecret : 47 ∉ str "ca" := by decide
  refine ⟨fun r hr => ?_, fun r hr spec ref hspec href => ?_⟩ <;>
    obtain rfl := List.mem_singleton.mp hr
  · exact hns
  · cases hspec
    cases href
    exact hsecret

theorem pinnedCluster_sameWords :
    (pinnedCluster absentSecrets).SameWords (pinnedCluster emptySecrets) := by
  refine ⟨fun _ h => (nomatch h), @fun key e h _ => ?_, fun h => (nomatch h)⟩
  cases h
  refine ⟨str "Secret \"" ++ key.name ++ str "\" ", Or.inl ?_⟩
  rw [List.append_assoc _ (str "\" ")]
  rfl

/-- The Secret appears, but without the key. -/
theorem change_detection_matches_status_secret_appears :
    let c := pinnedCluster absentSecrets
    let c' := pinnedCluster emptySecrets
    let s : RouteTable Unit :=
      { phase := .building c'.routes [] (c'.routes.foldl
          (@buildStep Unit plainQuote (@ClusterState.resolver Unit plainQuote c')
            c'.clusterDomain) {})
        store := @ClusterState.snapshot Unit plainQuote c }
    let key := pinnedRoute.key
    ∃ t, exec (@RouteTable.step Unit plainQuote sampleBuilder ∅) s
        [.publish [key], .notify] = some t ∧ t.events = [key] ∧
      ∃ before now, s.store.decision key = some before ∧
        (@ClusterState.snapshot Unit plainQuote c').decision key = some now ∧
        ∀ route, ¬ SameVisible (@desiredStatus plainQuote frozenSetter route before)
          (@desiredStatus plainQuote frozenSetter route now) := by
  intro c c' s key
  obtain ⟨t, hrun, hevents⟩ : ∃ t, exec (@RouteTable.step Unit plainQuote sampleBuilder ∅) s
      [.publish [key], .notify] = some t ∧ t.events = [key] := ⟨_, rfl, rfl⟩
  refine ⟨t, hrun, hevents, _, _, rfl, rfl, fun route => ?_⟩
  have hmatches := @change_detection_matches_status Unit plainQuote c c'
    (pinnedCluster_legible _) (pinnedCluster_legible _) pinnedCluster_sameWords
    frozenSetter frozenSetter route
  obtain ⟨sent, hsent, hiff⟩ := hmatches.2 (rfl : sampleBuilder.statusEvents.isSome = true)
    (rfl : s.phase = _) rfl rfl hrun (congrArg List.length hevents)
  obtain rfl : sent = [key] := hsent.symm.trans hevents
  obtain ⟨now, hnow, hdiffers⟩ := (hiff key).mp (List.mem_singleton_self key)
  cases hnow
  exact hdiffers _ rfl

end PgProxy
