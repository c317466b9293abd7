import PgProxy.Lib.Informer
import PgProxy.Registry.Table

/-!
# Resolving against the shared cache

`ClientResolver` answers from the Services and Secrets of the cache. A read of the cache
may fail for reasons of its own, so the resolver works on a reader; `Contents.reader` is
the reader that answers from the stored objects.
-/

namespace PgProxy
set_option autoImplicit false

variable {Pool : Type}

structure Secret where
  metadata : ObjectMeta
  data : GoMap GoString Bytes := ∅

def Secret.key (s : Secret) : NamespacedName := s.metadata.key

/-- The objects the informers hold. -/
structure Contents where
  routes : Store PostgresRoute.key := ∅
  services : Store Service.key := ∅
  secrets : Store Secret.key := ∅

/-- `client.Reader`, for the two kinds the resolver reads. -/
structure Reader where
  getService : NamespacedName → Except GoError Service
  getSecret : NamespacedName → Except GoError Secret

/-- What the resolver takes from outside: `AppendCertsFromPEM` on an empty pool, with
`none` if it adds no certificate, and the text of a NotFound error. -/
structure ResolverDeps (Pool : Type) where
  appendCertsFromPEM : Bytes → Option Pool
  notFoundText : NamespacedName → GoString

def getStored {α : Type} {key : α → NamespacedName} (notFoundText : NamespacedName → GoString)
    (s : Store key) (name : NamespacedName) : Except GoError α :=
  match s.get name with
  | none => .error (.api .notFound (notFoundText name))
  | some a => .ok a

def Contents.reader (deps : ResolverDeps Pool) (c : Contents) : Reader where
  getService := getStored deps.notFoundText c.services
  getSecret := getStored deps.notFoundText c.secrets

def caBundleLabel : GoString := str "pgproxy.io/ca-bundle"

/-- `strconv.ParseUint` in base 10 for 16 bits, and no port 0. -/
def parsePortNumber (s : GoString) : Option Int32 :=
  let value := s.foldl (fun (n : Nat) d => n * 10 + (d.toNat - 48)) 0
  if s = [] ∨ s.any (fun d => d < 48 || 57 < d) then none
  else if value = 0 ∨ 65535 < value then none
  else some (Int32.ofNat value)

structure ClientResolver (Pool : Type) where
  client : Reader
  caBundles : Bool
  deps : ResolverDeps Pool

namespace ClientResolver
variable [GoFmt]

/-- `fmt.Errorf` with the sentinel in front of the text. -/
def sentinelError (s : Sentinel) (text : GoString) : GoError :=
  .wrap (s.text ++ str ": " ++ text) (.sentinel s)

def resolveServicePort (r : ClientResolver Pool) (ns name : GoString) (port : IntOrString) :
    Except GoError Int32 :=
  let service := str "service " ++ ns ++ str "/" ++ name
  match r.client.getService ⟨ns, name⟩ with
  | .error err =>
    if err.isNotFound then .error (sentinelError .backendNotFound service)
    else .error (errorfWrap (str "reading " ++ service) err)
  | .ok svc =>
    match port with
    | .int want =>
      if svc.ports.any fun p => p.port = want then .ok want
      else .error (.other (service ++ str " exposes no port " ++ itoa want.toInt))
    | .string s =>
      match parsePortNumber s with
      | some numeric =>
        if svc.ports.any fun p => p.port = numeric then .ok numeric
        else .error (sentinelError .portNotFound
          (service ++ str " exposes no port " ++ itoa numeric.toInt))
      | none =>
        match svc.ports.find? fun p => p.name = s with
        | some p => .ok p.port
        | none => .error (sentinelError .portNotFound
            (service ++ str " has no port named " ++ quote s))
    | .other => .error (sentinelError .invalidBackend
        (service ++ str " has an unrecognised port reference"))

def loadCABundle (r : ClientResolver Pool) (ns secretName key : GoString) :
    Except GoError Pool :=
  let name := ns ++ str "/" ++ secretName
  if ¬ r.caBundles then
    .error (.other (str "route refers to the CA bundle Secret " ++ name ++
      str ", but reading Secrets is disabled; " ++
      str "install the chart with rbac.readCABundleSecrets=true"))
  else
    match r.client.getSecret ⟨ns, secretName⟩ with
    | .error err =>
      .error (errorfWrap (str "secret " ++ name ++ str " (it must carry the label " ++
        caBundleLabel ++ str "=true to be readable)") err)
    | .ok secret =>
      match secret.data.lookup key with
      | none => .error (.other (str "secret " ++ name ++ str " has no key " ++ quote key))
      | some pem =>
        match r.deps.appendCertsFromPEM pem with
        | none => .error (.other (str "secret " ++ name ++ str " key " ++ quote key ++
            str " holds no PEM certificates"))
        | some pool => .ok pool

def resolver (r : ClientResolver Pool) : Resolver Pool where
  resolveServicePort := r.resolveServicePort
  loadCABundle := r.loadCABundle

end ClientResolver

/-- The resolver over a cache whose reads all succeed. -/
def Contents.resolver [GoFmt] (deps : ResolverDeps Pool) (caBundles : Bool) (c : Contents) :
    Resolver Pool :=
  ({ client := c.reader deps, caBundles, deps } : ClientResolver Pool).resolver

end PgProxy
