import Mathlib.Data.Nat.Digits.Defs
import PgProxy.Controller.Status
import PgProxy.Registry.ClientResolver

/-!
# The reason a failed resolution is reported with

`resolveFailureReason` looks for sentinels anywhere in an error, in a fixed order, and the
errors come from three functions that wrap one another. The class of a failure of the
backend reference shows in its text. That of a CA bundle depends on what the API answered
for the Secret, because a Secret that is not found counts as a backend that is not found.
An integer port that is not declared carries no sentinel at all.
-/

namespace PgProxy
set_option autoImplicit false

variable {Pool : Type}

/-! ## What the resolver reads -/

def registrySentinels : List Sentinel :=
  [.backendNotFound, .portNotFound, .invalidBackend, .caBundle]

/-- An error from outside the registry package. -/
def GoError.Foreign (e : GoError) : Prop := ∀ s ∈ registrySentinels, e.is s = false

/-- A reader of the API; its errors are the API's or the network's. -/
structure ApiReader extends Reader where
  service_foreign : ∀ {key : NamespacedName} {e : GoError},
    getService key = .error e → e.Foreign
  secret_foreign : ∀ {key : NamespacedName} {e : GoError},
    getSecret key = .error e → e.Foreign

theorem foreign_of_api {α : Type} {reason : ApiReason} {text : GoString} {e : GoError}
    (h : (.error (.api reason text) : Except GoError α) = .error e) : e.Foreign := by
  cases h
  exact fun _ _ => rfl

def ApiReader.resolver (api : ApiReader) (caBundles : Bool) (deps : ResolverDeps Pool) :
    ClientResolver Pool :=
  { client := api.toReader, caBundles, deps }

def ServiceAbsent (r : ClientResolver Pool) (route : PostgresRoute) : Prop :=
  ∃ backend e, route.spec.backend.type = .service ∧
    route.spec.backend.service = some backend ∧
    r.client.getService
      ⟨if backend.ns = [] then route.metadata.ns else backend.ns, backend.name⟩ = .error e ∧
    e.isNotFound = true

/-- The backend of a route resolves, the route verifies it by the CA bundle in a Secret, and
the API answers that there is no such Secret. -/
structure SecretAbsent [GoFmt] (r : ClientResolver Pool) (clusterDomain : GoString)
    (route : PostgresRoute) : Prop where
  backend : ∃ backend, resolveBackend r.resolver clusterDomain route = .ok backend
  enabled : r.caBundles = true
  secret : ∃ spec ref e, route.spec.tls = some spec ∧
    (spec.mode = .verifyCA ∨ spec.mode = .verifyFull) ∧ spec.caSecretRef = some ref ∧
    r.client.getSecret ⟨route.metadata.ns, ref.name⟩ = .error e ∧ e.isNotFound = true

/-! ## Port references -/

/-- The number a string of digits denotes; leading zeros do not count. -/
structure Denotes (s : GoString) (n : Nat) : Prop where
  ne_nil : s ≠ []
  digits : ∀ d ∈ s, 48 ≤ d ∧ d ≤ 57
  value : Nat.ofDigits 10 (s.reverse.map fun d => d.toNat - 48) = n

def IsNumeric (s : GoString) : Prop := s ≠ [] ∧ ∀ d ∈ s, 48 ≤ d ∧ d ≤ 57

def Service.Declares (svc : Service) (n : Int32) : Prop := ∃ p ∈ svc.ports, p.port = n

theorem foldl_eq_ofDigits (s : GoString) :
    s.foldl (fun (n : Nat) d => n * 10 + (d.toNat - 48)) 0 =
      Nat.ofDigits 10 (s.reverse.map fun d => d.toNat - 48) := by
  rw [Nat.ofDigits_eq_foldr, List.map_reverse, List.foldr_reverse, List.foldl_map]
  congr 1
  funext n d
  simp only [Nat.cast_id]
  omega

theorem any_nonDigit_eq_false {s : GoString} (h : ∀ d ∈ s, 48 ≤ d ∧ d ≤ 57) :
    (s.any fun d => d < 48 || 57 < d) = false := by
  rw [List.any_eq_false]
  intro d hd
  simpa using h d hd

theorem parsePortNumber_of_denotes {s : GoString} {n : Nat} (h : Denotes s n) (hmin : 1 ≤ n)
    (hmax : n ≤ 65535) : parsePortNumber s = some (Int32.ofNat n) := by
  have hvalue := (foldl_eq_ofDigits s).trans h.value
  unfold parsePortNumber
  simp only [hvalue]
  rw [if_neg (by simp [h.ne_nil, any_nonDigit_eq_false h.digits]), if_neg (by omega)]

theorem parsePortNumber_of_not_numeric {s : GoString} (h : ¬ IsNumeric s) :
    parsePortNumber s = none := by
  unfold parsePortNumber
  refine if_pos ?_
  by_contra hdigits
  rw [not_or] at hdigits
  refine h ⟨hdigits.1, fun d hd => ?_⟩
  simpa using (List.any_eq_false.mp (Bool.eq_false_iff.mpr hdigits.2)) d hd

theorem any_port_iff {svc : Service} {n : Int32} :
    (svc.ports.any fun p => p.port = n) = true ↔ svc.Declares n := by
  simp [Service.Declares]

section Ports
variable [GoFmt] {r : ClientResolver Pool} {ns name : GoString} {svc : Service}
variable (hsvc : r.client.getService ⟨ns, name⟩ = .ok svc)
include hsvc

theorem resolveServicePort_int_ok {n : Int32} (h : svc.Declares n) :
    r.resolveServicePort ns name (.int n) = .ok n := by
  simp only [ClientResolver.resolveServicePort, hsvc]
  rw [if_pos (any_port_iff.mpr h)]

theorem resolveServicePort_int_error {n : Int32} (h : ¬ svc.Declares n) :
    ∃ text, r.resolveServicePort ns name (.int n) = .error (.other text) := by
  simp only [ClientResolver.resolveServicePort, hsvc]
  rw [if_neg (mt any_port_iff.mp h)]
  exact ⟨_, rfl⟩

theorem resolveServicePort_numeric {s : GoString} {n : Int32} (hs : parsePortNumber s = some n) :
    (svc.Declares n → r.resolveServicePort ns name (.string s) = .ok n) ∧
      (¬ svc.Declares n → ∃ text, r.resolveServicePort ns name (.string s) =
        .error (ClientResolver.sentinelError .portNotFound text)) := by
  simp only [ClientResolver.resolveServicePort, hsvc, hs]
  refine ⟨fun h => by rw [if_pos (any_port_iff.mpr h)], fun h => ?_⟩
  rw [if_neg (mt any_port_iff.mp h)]
  exact ⟨_, rfl⟩

theorem resolveServicePort_named {s : GoString} (hs : parsePortNumber s = none) :
    (∀ p, (svc.ports.find? fun p => p.name = s) = some p →
      r.resolveServicePort ns name (.string s) = .ok p.port) ∧
    ((svc.ports.find? fun p => p.name = s) = none → ∃ text,
      r.resolveServicePort ns name (.string s) =
        .error (ClientResolver.sentinelError .portNotFound text)) := by
  simp only [ClientResolver.resolveServicePort, hsvc, hs]
  refine ⟨fun p hp => by rw [hp], fun hnone => ?_⟩
  rw [hnone]
  exact ⟨_, rfl⟩

/-- The two spellings of a number agree on a declared port. On any other port both fail,
the string with ErrPortNotFound and the integer without it. -/
theorem port_references_agree_if_declared :
    (∀ (n : Nat) (s : GoString), 1 ≤ n → n ≤ 65535 → Denotes s n →
      (svc.Declares (Int32.ofNat n) →
        r.resolveServicePort ns name (.int (Int32.ofNat n)) = .ok (Int32.ofNat n) ∧
        r.resolveServicePort ns name (.string s) = .ok (Int32.ofNat n)) ∧
      (¬ svc.Declares (Int32.ofNat n) →
        (∃ e, r.resolveServicePort ns name (.string s) = .error e ∧ e.is .portNotFound = true ∧
          resolveFailureReason e = reasonPortNotFound) ∧
        ∃ e, r.resolveServicePort ns name (.int (Int32.ofNat n)) = .error e ∧
          e.is .portNotFound = false ∧ resolveFailureReason e = reasonInvalidBackend)) ∧
    (∀ s, ¬ IsNumeric s →
      (∀ p, (svc.ports.find? fun p => p.name = s) = some p →
        r.resolveServicePort ns name (.string s) = .ok p.port) ∧
      ((∀ p ∈ svc.ports, p.name ≠ s) ↔
        ∃ e, r.resolveServicePort ns name (.string s) = .error e ∧
          e.is .portNotFound = true)) := by
  constructor
  · intro n s hmin hmax hs
    have hnumeric := resolveServicePort_numeric hsvc (parsePortNumber_of_denotes hs hmin hmax)
    refine ⟨fun h => ⟨resolveServicePort_int_ok hsvc h, hnumeric.1 h⟩, fun h => ?_⟩
    obtain ⟨text, hstring⟩ := hnumeric.2 h
    obtain ⟨text', hint⟩ := resolveServicePort_int_error hsvc h
    exact ⟨⟨_, hstring, rfl, rfl⟩, _, hint, rfl, rfl⟩
  · intro s hs
    obtain ⟨hfound, hmissing⟩ :=
      resolveServicePort_named hsvc (parsePortNumber_of_not_numeric hs)
    refine ⟨hfound, ?_⟩
    have hnone : (∀ p ∈ svc.ports, p.name ≠ s) ↔
        (svc.ports.find? fun p => p.name = s) = none := by simp
    rw [hnone]
    constructor
    · intro h
      obtain ⟨text, htext⟩ := hmissing h
      exact ⟨_, htext, rfl⟩
    · rintro ⟨e, he, -⟩
      cases hp : svc.ports.find? fun p => p.name = s with
      | none => rfl
      | some p =>
        rw [hfound p hp] at he
        simp at he

end Ports

def twoPortService : Service :=
  { metadata := { ns := str "team", name := str "db" }
    ports := [{ name := str "metrics", port := 9187 }, { name := str "sql", port := 5433 }] }

def secretlessReader : Reader where
  getService _ := .ok twoPortService
  getSecret name := .error (.api .notFound (str "secrets " ++ name.string ++ str " not found"))

def secretlessResolver : ClientResolver Unit :=
  { client := secretlessReader
    caBundles := true
    deps := { appendCertsFromPEM := fun _ => none, notFoundText := fun _ => [] } }

theorem port_references_agree_if_declared_sample :
    Denotes (str "05433") 5433 ∧
    @ClientResolver.resolveServicePort Unit plainQuote secretlessResolver (str "team") (str "db")
      (.int 5433) = .ok 5433 ∧
    @ClientResolver.resolveServicePort Unit plainQuote secretlessResolver (str "team") (str "db")
      (.string (str "05433")) = .ok 5433 := by
  have hdenotes : Denotes (str "05433") 5433 :=
    ⟨by decide, by decide +kernel, by decide⟩
  have hsvc : secretlessResolver.client.getService ⟨str "team", str "db"⟩ =
      .ok twoPortService := rfl
  have hagree := (@port_references_agree_if_declared Unit plainQuote secretlessResolver (str "team")
    (str "db") twoPortService hsvc).1 5433 (str "05433") (by decide) (by decide) hdenotes
  exact ⟨hdenotes, hagree.1 ⟨{ name := str "sql", port := 5433 }, by decide, rfl⟩⟩

/-- The integer 5432 and the string "5432" fail with different reasons. -/
theorem integer_port_lacks_its_sentinel :
    Denotes (str "5432") 5432 ∧ ¬ twoPortService.Declares 5432 ∧
    (∃ e, @ClientResolver.resolveServicePort Unit plainQuote secretlessResolver (str "team")
        (str "db") (.string (str "5432")) = .error e ∧
      e.is .portNotFound = true ∧ resolveFailureReason e = reasonPortNotFound) ∧
    ∃ e, @ClientResolver.resolveServicePort Unit plainQuote secretlessResolver (str "team")
        (str "db") (.int 5432) = .error e ∧
      e.is .portNotFound = false ∧ resolveFailureReason e = reasonInvalidBackend := by
  refine ⟨⟨by decide, by decide +kernel, by decide⟩, ?_, ⟨_, rfl, rfl, rfl⟩, _, rfl, rfl, rfl⟩
  rintro ⟨p, hp, hport⟩
  simp only [twoPortService, List.mem_cons, List.not_mem_nil, or_false] at hp
  rcases hp with rfl | rfl <;> exact absurd hport (by decide)

/-! ## Backend references -/

/-- The ways in which a backend reference fails. -/
inductive BackendFailure (r : ClientResolver Pool) (route : PostgresRoute) : GoError → Prop where
  | absent {text : GoString} (h : ServiceAbsent r route) :
      BackendFailure r route (ClientResolver.sentinelError .backendNotFound text)
  | unreadable {text : GoString} {key : NamespacedName} {err : GoError}
      (hread : r.client.getService key = .error err) (hfound : err.isNotFound = false) :
      BackendFailure r route (errorfWrap (str "reading " ++ text) err)
  | undeclared {text : GoString} : BackendFailure r route (.other (str "service " ++ text))
  | portMissing {text : GoString} :
      BackendFailure r route (ClientResolver.sentinelError .portNotFound text)
  | invalid {text : GoString} :
      BackendFailure r route (ClientResolver.sentinelError .invalidBackend text)

theorem resolveServicePort_failure [GoFmt] {r : ClientResolver Pool} {route : PostgresRoute}
    {backend : ServiceBackend} {e : GoError} (htype : route.spec.backend.type = .service)
    (hbackend : route.spec.backend.service = some backend)
    (h : r.resolveServicePort (if backend.ns = [] then route.metadata.ns else backend.ns)
      backend.name backend.port = .error e) : BackendFailure r route e := by
  unfold ClientResolver.resolveServicePort at h
  dsimp only at h
  split at h
  · rename_i err hread
    split at h
    · rename_i hfound
      injection h with h
      exact h ▸ .absent ⟨backend, err, htype, hbackend, hread, hfound⟩
    · rename_i hfound
      injection h with h
      exact h ▸ .unreadable hread (by simpa using hfound)
  · split at h
    · split at h
      · simp at h
      · injection h with h
        rw [← h, List.append_assoc, List.append_assoc, List.append_assoc, List.append_assoc]
        exact .undeclared
    · split at h
      · split at h
        · simp at h
        · injection h with h
          exact h ▸ .portMissing
      · split at h
        · simp at h
        · injection h with h
          exact h ▸ .portMissing
    · injection h with h
      exact h ▸ .invalid

theorem resolveBackend_failure [GoFmt] {r : ClientResolver Pool} {clusterDomain : GoString}
    {route : PostgresRoute} {e : GoError}
    (h : resolveBackend r.resolver clusterDomain route = .error e) :
    BackendFailure r route e := by
  unfold resolveBackend at h
  dsimp only at h
  split at h
  · rename_i htype
    split at h
    · injection h with h
      exact h ▸ .invalid
    · rename_i backend hbackend
      split at h
      · rename_i e' hport
        injection h with h
        exact resolveServicePort_failure htype hbackend (h ▸ hport)
      · simp at h
  · split at h
    · injection h with h
      exact h ▸ .invalid
    · simp at h
  · injection h with h
    exact h ▸ .invalid

/-- The reason that the text of a failed backend reference stands for. -/
def backendReason (text : GoString) : GoString :=
  match text.head? with
  | some 98 => reasonBackendNotFound
  | some 112 => reasonPortNotFound
  | _ => reasonInvalidBackend

theorem BackendFailure.reason {api : ApiReader} {caBundles : Bool} {deps : ResolverDeps Pool}
    {route : PostgresRoute} {e : GoError}
    (h : BackendFailure (api.resolver caBundles deps) route e) :
    resolveFailureReason e = backendReason e.text := by
  cases h with
  | absent | undeclared | portMissing | invalid => rfl
  | @unreadable text key err hread hfound =>
    have hforeign := api.service_foreign hread
    have hbackend : (errorfWrap (str "reading " ++ text) err).is .backendNotFound = false :=
      hforeign .backendNotFound (by decide)
    have hport : (errorfWrap (str "reading " ++ text) err).is .portNotFound = false :=
      hforeign .portNotFound (by decide)
    have hca : (errorfWrap (str "reading " ++ text) err).is .caBundle = false :=
      hforeign .caBundle (by decide)
    have hnotFound : (errorfWrap (str "reading " ++ text) err).isNotFound = false := hfound
    simp only [resolveFailureReason, hbackend, hport, hca, hnotFound, Bool.or_self,
      Bool.false_eq_true, if_false]
    rfl

theorem BackendFailure.head {r : ClientResolver Pool} {route : PostgresRoute} {e : GoError}
    (h : BackendFailure r route e) :
    e.text.head? ≠ Sentinel.caBundle.text.head? := by
  cases h <;> exact fun h => by cases h

theorem BackendFailure.serviceAbsent {api : ApiReader} {caBundles : Bool}
    {deps : ResolverDeps Pool} {route : PostgresRoute} {e : GoError}
    (h : BackendFailure (api.resolver caBundles deps) route e)
    (hreason : resolveFailureReason e = reasonBackendNotFound) :
    ServiceAbsent (api.resolver caBundles deps) route := by
  have hport : reasonPortNotFound ≠ reasonBackendNotFound := by decide
  have hinvalid : reasonInvalidBackend ≠ reasonBackendNotFound := by decide
  rw [h.reason] at hreason
  cases h with
  | absent habsent => exact habsent
  | portMissing => exact absurd hreason hport
  | unreadable | undeclared | invalid => exact absurd hreason hinvalid

/-! ## CA bundles -/

section Bundle
variable [GoFmt]

/-- The ways in which a CA bundle cannot be loaded. -/
inductive BundleFailure (r : ClientResolver Pool) (ns name key : GoString) : GoError → Prop where
  | disabled (h : r.caBundles = false) {text : GoString} :
      BundleFailure r ns name key (.other (str "route " ++ text))
  | unreadable {err : GoError} (h : r.caBundles = true)
      (hread : r.client.getSecret ⟨ns, name⟩ = .error err) :
      BundleFailure r ns name key
        (errorfWrap (str "secret " ++ (ns ++ str "/" ++ name) ++
          str " (it must carry the label " ++ caBundleLabel ++ str "=true to be readable)") err)
  | keyMissing {secret : Secret} (hread : r.client.getSecret ⟨ns, name⟩ = .ok secret) :
      BundleFailure r ns name key
        (.other (str "secret " ++ (ns ++ str "/" ++ name) ++ str " has no key " ++ quote key))
  | noCertificates {secret : Secret} (hread : r.client.getSecret ⟨ns, name⟩ = .ok secret) :
      BundleFailure r ns name key
        (.other (str "secret " ++ (ns ++ str "/" ++ name) ++ str " key " ++ quote key ++
          str " holds no PEM certificates"))

theorem loadCABundle_failure {r : ClientResolver Pool} {ns name key : GoString} {e : GoError}
    (h : r.loadCABundle ns name key = .error e) : BundleFailure r ns name key e := by
  unfold ClientResolver.loadCABundle at h
  dsimp only at h
  split at h
  · rename_i hdisabled
    injection h with h
    rw [← h]
    exact .disabled (by simpa using hdisabled)
  · rename_i henabled
    have hon : r.caBundles = true := by simpa using henabled
    split at h
    · rename_i err hread
      injection h with h
      exact h ▸ .unreadable hon hread
    · rename_i secret hread
      split at h
      · injection h with h
        exact h ▸ .keyMissing hread
      · split at h
        · injection h with h
          exact h ▸ .noCertificates hread
        · simp at h

def bundleError (e : GoError) : GoError :=
  .wrap2 (Sentinel.caBundle.text ++ str ": " ++ e.text) (.sentinel .caBundle) e

theorem resolveTLS_failure {r : ClientResolver Pool} {route : PostgresRoute} {e : GoError}
    (h : resolveTLS r.resolver route = .error e) :
    ∃ spec ref key e', route.spec.tls = some spec ∧
      (spec.mode = .verifyCA ∨ spec.mode = .verifyFull) ∧ spec.caSecretRef = some ref ∧
      BundleFailure r route.metadata.ns ref.name key e' ∧ e = bundleError e' := by
  unfold resolveTLS at h
  split at h
  · simp at h
  · rename_i spec hspec
    split at h
    · simp at h
    · dsimp only at h
      split at h
      · simp at h
      · rename_i hverify
        split at h
        · simp at h
        · rename_i ref href
          split at h
          · rename_i e' hload
            injection h with h
            exact ⟨spec, ref, _, e', hspec, not_not.mp hverify, href, loadCABundle_failure hload,
              h.symm⟩
          · simp at h

theorem SecretAbsent.resolve_error {r : ClientResolver Pool} {clusterDomain : GoString}
    {route : PostgresRoute} (h : SecretAbsent r clusterDomain route) :
    ∃ name key e, BundleFailure r route.metadata.ns name key e ∧ e.isNotFound = true ∧
      resolve r.resolver clusterDomain route = .error (bundleError e) := by
  obtain ⟨⟨⟨host, port⟩, hbackend⟩, hon, spec, ref, err, hspec, hverify, href, hread, hfound⟩ := h
  have hmode : ¬ (spec.mode = .unset ∨ spec.mode = .disable) := by
    rcases hverify with hmode | hmode <;> simp [hmode]
  refine ⟨ref.name, ref.key, _, .unreadable hon hread, hfound, ?_⟩
  simp only [resolve, hbackend]
  simp only [resolveTLS, hspec, if_neg hmode, not_not.mpr hverify, if_false, href,
    ClientResolver.resolver, ClientResolver.loadCABundle, hon, not_true_eq_false, hread]
  rfl

theorem resolve_failure {r : ClientResolver Pool} {clusterDomain : GoString}
    {route : PostgresRoute} {e : GoError} (h : resolve r.resolver clusterDomain route = .error e) :
    resolveBackend r.resolver clusterDomain route = .error e ∨
      (∃ backend, resolveBackend r.resolver clusterDomain route = .ok backend) ∧
        resolveTLS r.resolver route = .error e := by
  unfold resolve at h
  split at h
  · rename_i e' hbackend
    injection h with h
    exact Or.inl (h ▸ hbackend)
  · rename_i host port hbackend
    split at h
    · rename_i e' htls
      injection h with h
      exact Or.inr ⟨⟨_, hbackend⟩, h ▸ htls⟩
    · simp at h

section Api
variable {api : ApiReader} {caBundles : Bool} {deps : ResolverDeps Pool}

theorem BundleFailure.foreign {ns name key : GoString} {e : GoError}
    (h : BundleFailure (api.resolver caBundles deps) ns name key e) : e.Foreign := by
  cases h with
  | unreadable _ hread => exact fun s hs => api.secret_foreign hread s hs
  | disabled | keyMissing | noCertificates => exact fun _ _ => rfl

theorem BundleFailure.reason {ns name key : GoString} {e : GoError}
    (h : BundleFailure (api.resolver caBundles deps) ns name key e) :
    resolveFailureReason (bundleError e) =
      if e.isNotFound then reasonBackendNotFound else reasonCABundleFailed := by
  have hbackend : (bundleError e).is .backendNotFound = false :=
    h.foreign .backendNotFound (by decide)
  have hport : (bundleError e).is .portNotFound = false := h.foreign .portNotFound (by decide)
  have hca : (bundleError e).is .caBundle = true := rfl
  have hnotFound : (bundleError e).isNotFound = e.isNotFound := rfl
  simp only [resolveFailureReason, hbackend, hport, hca, hnotFound, Bool.false_or,
    Bool.false_eq_true, if_false, if_true]

theorem BundleFailure.unreadable_of_isNotFound {r : ClientResolver Pool} {ns name key : GoString}
    {e : GoError} (h : BundleFailure r ns name key e) (hfound : e.isNotFound = true) :
    r.caBundles = true ∧ ∃ err, r.client.getSecret ⟨ns, name⟩ = .error err ∧
      err.isNotFound = true := by
  cases h with
  | unreadable hon hread => exact ⟨hon, _, hread, hfound⟩
  | disabled | keyMissing | noCertificates => cases hfound

/-- However the resolution of a route fails: if its backend resolves, the CA bundle is
reported, and a backend is reported as not found only if its Service is not there. -/
def FailuresReported (r : ClientResolver Pool) (clusterDomain : GoString)
    (route : PostgresRoute) : Prop :=
  ∀ e, resolve r.resolver clusterDomain route = .error e →
    ((∃ backend, resolveBackend r.resolver clusterDomain route = .ok backend) →
      resolveFailureReason e = reasonCABundleFailed) ∧
    (resolveFailureReason e = reasonBackendNotFound → ServiceAbsent r route)

/-- The failures of a route are reported for what they are, exactly unless a Secret it needs
is not there. -/
theorem ca_bundle_failures_reported_iff (clusterDomain : GoString) (route : PostgresRoute) :
    FailuresReported (api.resolver caBundles deps) clusterDomain route ↔
      ¬ SecretAbsent (api.resolver caBundles deps) clusterDomain route := by
  have hne : reasonCABundleFailed ≠ reasonBackendNotFound := by decide
  constructor
  · intro hreported habsent
    obtain ⟨name, key, e, hbundle, hfound, hfail⟩ := habsent.resolve_error
    have hreason := (hreported _ hfail).1 habsent.backend
    rw [hbundle.reason, if_pos hfound] at hreason
    exact hne hreason.symm
  · intro hsecret e hfail
    rcases resolve_failure hfail with hbackend | ⟨hok, htls⟩
    · refine ⟨?_, fun hreason => (resolveBackend_failure hbackend).serviceAbsent hreason⟩
      rintro ⟨backend, hok⟩
      rw [hok] at hbackend
      simp at hbackend
    · obtain ⟨spec, ref, key, e', hspec, hverify, href, hbundle, rfl⟩ := resolveTLS_failure htls
      have hfound : ¬ e'.isNotFound = true := by
        intro hfound
        obtain ⟨hon, err, hread, herr⟩ := hbundle.unreadable_of_isNotFound hfound
        exact hsecret ⟨hok, hon, spec, ref, err, hspec, hverify, href, hread, herr⟩
      rw [hbundle.reason, if_neg hfound]
      exact ⟨fun _ => rfl, fun hreason => absurd hreason hne⟩

end Api
end Bundle

def secretlessApi : ApiReader where
  toReader := secretlessReader
  service_foreign h := nomatch h
  secret_foreign h := foreign_of_api h

def verifiedRoute : PostgresRoute :=
  { metadata := { ns := str "team", name := str "app" }
    spec :=
      { backend := { service := some { name := str "db", ns := [], port := .int 5433 } }
        tls := some
          { mode := .verifyCA
            caSecretRef := some { name := str "ca", key := [] }
            serverName := [] } } }

/-- The Service is there and the port is declared; only the Secret is missing. -/
theorem absent_secret_reported_as_backend :
    (∃ backend, @resolveBackend Unit plainQuote (@ClientResolver.resolver Unit plainQuote
        (secretlessApi.resolver true secretlessResolver.deps)) (str "cluster.local")
        verifiedRoute = .ok backend) ∧
    ∃ e, @resolve Unit plainQuote (@ClientResolver.resolver Unit plainQuote
        (secretlessApi.resolver true secretlessResolver.deps)) (str "cluster.local")
        verifiedRoute = .error e ∧
      e.is .caBundle = true ∧ resolveFailureReason e = reasonBackendNotFound ∧
      ¬ ServiceAbsent (secretlessApi.resolver true secretlessResolver.deps) verifiedRoute := by
  refine ⟨⟨_, rfl⟩, _, rfl, rfl, rfl, ?_⟩
  rintro ⟨backend, e, -, -, hread, -⟩
  cases hread

end PgProxy
