import S2SProxy.VaultKeys

/- Keys on extension servers. The servers are configured once, the connections' key policies name
   them in key URIs, and the whole configuration is validated before the servers are dialed and
   the keys opened. A URI is parsed three times on the way, each time by the same function. -/
namespace ExtensionKeys
open EncryptionConfig VaultKeys

/-- What the rest of the configuration takes from other packages: the checks for a host and port
    and for duplicates, and a parsed URI as text. -/
structure ConfigLibrary extends Library where
  isHostPort : String → Check
  unique : List String → Check
  uriText : String → String

structure ExtensionServer (τ : Type) where
  name : String
  address : String
  tlsConfig : τ

structure ClusterDefinition where
  connectionType : String
  credentials : Option String

structure ClusterConnConfig where
  localCluster : ClusterDefinition
  remoteCluster : ClusterDefinition
  encryptionConfig : EncryptionConfig.Config

structure S2SProxyConfig (τ : Type) where
  extensionServers : List (ExtensionServer τ)
  clusterConnections : List ClusterConnConfig

def credentialIdentityDefault : String := "default"
def credentialIdentityProxy : String := "proxy"
def credentialIdentityStrip : String := "strip"
def connTypeTCP : String := "tcp"

def ClusterDefinition.credentialIdentity (c : ClusterDefinition) : String :=
  match c.credentials with
  | none => credentialIdentityDefault
  | some identity => if identity = "" then credentialIdentityDefault else identity

section Validation
variable {τ : Type} (lib : ConfigLibrary)

def ExtensionServer.validate (s : ExtensionServer τ) : List ValidationError :=
  lib.validate "" [
    lib.field "name" [lib.required (s.name == "")],
    lib.field "address" [lib.isHostPort s.address]]

def validateServers (sl : List (ExtensionServer τ)) : List ValidationError :=
  lib.validate "" [
    lib.field "[name]" [lib.unique (sl.map ExtensionServer.name)],
    lib.field "[address]" [lib.unique (sl.map ExtensionServer.address)],
    lib.children "" (sl.map (ExtensionServer.validate lib))]

def names (sl : List (ExtensionServer τ)) : List String := sl.map ExtensionServer.name

def identityCheck (cluster : ClusterDefinition) : Option String :=
  let identity := cluster.credentialIdentity
  if identity = credentialIdentityDefault ∨ identity = credentialIdentityStrip then none
  else if identity = credentialIdentityProxy then
    if cluster.connectionType ≠ connTypeTCP then
      some s!"identity {lib.quote identity} requires connectionType {lib.quote connTypeTCP}, got {lib.quote cluster.connectionType}"
    else none
  else some s!"unsupported identity {lib.quote identity}: must be {lib.quote credentialIdentityDefault}, {lib.quote credentialIdentityProxy} or {lib.quote credentialIdentityStrip}"

def remoteCredentialsCheck (credentials : Option String) : Check :=
  if credentials.isSome then some "credentials are only supported on the local cluster definition" else none

def ClusterConnConfig.validate (c : ClusterConnConfig) : List ValidationError :=
  lib.validate "" [
    lib.nested "encryption" (EncryptionConfig.validate lib.toLibrary c.encryptionConfig),
    lib.field "local.credentials.identity" [identityCheck lib c.localCluster],
    lib.field "remote.credentials" [remoteCredentialsCheck c.remoteCluster.credentials]]

def extensionRef (subject fieldName raw : String) (known : List String) : Rule :=
  match lib.parseURI raw with
  | .error _ => []
  | .ok (scheme, host) =>
    if !lib.equalFold scheme extensionKeyScheme || host == "" then []
    else if known.contains host then []
    else
      [{ subject := subject, field := fieldName, message := s!"unknown extension server: {host}" }]

def policyRefs (known : List String) (subject : String) (p : KeyPolicy) : List Rule :=
  extensionRef lib subject "uri" p.uri known ::
    p.decryptURIs.zipIdx.map fun (uri, i) => extensionRef lib subject s!"decryptURIs[{i}]" uri known

def referentialRules (e : EncryptionConfig.Config) (path : String) (known : List String) : List Rule :=
  e.default.toList.flatMap (policyRefs lib known (path ++ ".default")) ++
  e.replication.toList.flatMap (policyRefs lib known (path ++ ".replication")) ++
  e.overrides.flatMap fun (ns, p) => policyRefs lib known s!"{path}.overrides[{ns}]" p

def S2SProxyConfig.validate (c : S2SProxyConfig τ) : List ValidationError :=
  let known := names c.extensionServers
  lib.validate "" (
    [lib.nested "extensionServers" (validateServers lib c.extensionServers),
      lib.children "clusterConnections" (c.clusterConnections.map (ClusterConnConfig.validate lib))] ++
    c.clusterConnections.zipIdx.flatMap fun (conn, i) =>
      referentialRules lib conn.encryptionConfig s!"clusterConnections[{i}].encryption" known)

end Validation

/-- A connection is a κ. No two are open at once under one name. -/
abbrev Connections (κ : Type) := AList fun _ : String => κ

/-- TLS material and gRPC clients. A server without TLS has no TLS configuration. -/
structure Network (τ γ κ : Type) where
  getClientTLSConfig : τ → Except String (Option γ)
  newClient : String → Option γ → Except String κ

/-- A dial, with the connections it opened, which are closed when the lifetime ends, and those it
    closed itself. -/
structure Dialed (κ : Type) where
  result : Except String (Connections κ)
  opened : List κ
  closed : List κ

structure KMS (κ : Type) where
  id : String
  conn : κ

section Dialing
variable {τ γ κ : Type} (lib : ConfigLibrary) (net : Network τ γ κ)

def dialOne (s : ExtensionServer τ) : Except String κ :=
  match net.getClientTLSConfig s.tlsConfig with
  | .error err => .error s!"invalid TLS config for extension server {lib.quote s.name}: {err}"
  | .ok tlsConfig =>
    match net.newClient s.address tlsConfig with
    | .error err =>
      .error s!"failed to dial extension server {lib.quote s.name} at {s.address}: {err}"
    | .ok cc => .ok cc

def dialFrom (conns : Connections κ) (opened : List κ) : List (ExtensionServer τ) → Dialed κ
  | [] => ⟨.ok conns, opened, []⟩
  | s :: rest =>
    if (conns.lookup s.name).isSome then
      ⟨.error s!"duplicate extension server name: {s.name}", opened, opened⟩
    else
      match dialOne lib net s with
      | .error err => ⟨.error err, opened, opened⟩
      | .ok cc => dialFrom (conns.insert s.name cc) (opened ++ [cc]) rest

def dial (servers : List (ExtensionServer τ)) : Dialed κ := dialFrom lib net ∅ [] servers

def newKeyFunc (conns : Connections κ) (uri : String) : Except String (KMS κ) :=
  match lib.parseURI uri with
  | .error err => .error s!"failed to parse key URI: {uri}, {err}"
  | .ok (_, host) =>
    if host = "" then .error s!"extension key URI must name an extension server: {uri}"
    else
      match conns.lookup host with
      | none => .error s!"unknown extension server {lib.quote host} in key URI: {uri}"
      | some conn => .ok ⟨lib.uriText uri, conn⟩

end Dialing

section Accepted
variable {τ : Type} {lib : ConfigLibrary}

theorem validKeyURI_none {raw : String} (accepted : validKeyURI lib.toLibrary raw = none) :
    ∃ scheme host, lib.parseURI raw = .ok (scheme, host) ∧
      (lib.equalFold scheme extensionKeyScheme = true → host ≠ "") := by
  unfold validKeyURI at accepted
  cases parsed : lib.parseURI raw with
  | error err => simp [parsed] at accepted
  | ok uri =>
    obtain ⟨scheme, host⟩ := uri
    refine ⟨scheme, host, rfl, fun extension empty => ?_⟩
    simp only [parsed] at accepted
    split at accepted
    · cases accepted
    · simp [extension, empty] at accepted

theorem policy_uris_valid (collects : lib.CollectsAll) {p : KeyPolicy}
    (accepted : p.validate lib.toLibrary = []) {uri : String} (listed : uri ∈ policyURIs p) :
    validKeyURI lib.toLibrary uri = none := by
  have passes := collects.validate _ _ accepted
  simp only [List.forall_mem_cons] at passes
  obtain ⟨own, others, _⟩ := passes
  rcases List.mem_cons.mp listed with rfl | member
  · exact check_passes collects own
  · exact collects.childChecks _ _ others _ (List.mem_map_of_mem member)

theorem when_policy_valid (collects : lib.CollectsAll) {name : String} {policy : Option KeyPolicy}
    (passed : whenPolicy lib.toLibrary name policy = []) {p : KeyPolicy} (given : policy = some p) :
    p.validate lib.toLibrary = [] := by
  subst given
  exact collects.whenNested _ _ passed

theorem policies_valid (collects : lib.CollectsAll) {e : EncryptionConfig.Config}
    (accepted : EncryptionConfig.validate lib.toLibrary e = []) {p : KeyPolicy}
    (configured : p ∈ allPolicies e) : p.validate lib.toLibrary = [] := by
  have default : whenPolicy lib.toLibrary "default" e.default = [] :=
    rule_passes collects accepted (by simp [rules])
  have replication : whenPolicy lib.toLibrary "replication" e.replication = [] :=
    rule_passes collects accepted (by simp [rules])
  simp only [allPolicies, List.mem_append, Option.mem_toList, List.mem_map] at configured
  rcases configured with (isDefault | isReplication) | ⟨entry, member, rfl⟩
  · exact when_policy_valid collects default isDefault
  · exact when_policy_valid collects replication isReplication
  · exact (override_passes collects accepted member).2

theorem extensionRef_nil {subject fieldName raw scheme host : String} {known : List String}
    (accepted : extensionRef lib subject fieldName raw known = [])
    (parsed : lib.parseURI raw = .ok (scheme, host))
    (extension : lib.equalFold scheme extensionKeyScheme = true) (named : host ≠ "") :
    host ∈ known := by
  simp only [extensionRef, parsed, extension] at accepted
  by_contra absent
  simp [named, absent] at accepted

theorem policyRefs_has {known : List String} {subject : String} {p : KeyPolicy} {uri : String}
    (listed : uri ∈ policyURIs p) :
    ∃ fieldName, extensionRef lib subject fieldName uri known ∈ policyRefs lib known subject p := by
  rcases List.mem_cons.mp listed with rfl | member
  · exact ⟨_, List.mem_cons_self⟩
  · obtain ⟨i, found⟩ := List.mem_iff_getElem?.mp member
    have here : (uri, i) ∈ p.decryptURIs.zipIdx := by
      simpa [List.mem_zipIdx_iff_getElem?] using found
    exact ⟨_, List.mem_cons_of_mem _ (List.mem_map_of_mem here)⟩

/- The referential rules go through the same policies as the structural ones. -/
theorem referentialRules_has {e : EncryptionConfig.Config} {path : String} {known : List String}
    {p : KeyPolicy} (configured : p ∈ allPolicies e) :
    ∃ subject, ∀ rule ∈ policyRefs lib known subject p, rule ∈ referentialRules lib e path known := by
  simp only [referentialRules, List.mem_append, List.mem_flatMap]
  simp only [allPolicies, List.mem_append, Option.mem_toList, List.mem_map] at configured
  rcases configured with (isDefault | isReplication) | ⟨entry, member, rfl⟩
  · exact ⟨_, fun rule here => .inl (.inl ⟨p, by simpa using isDefault, here⟩)⟩
  · exact ⟨_, fun rule here => .inl (.inr ⟨p, by simpa using isReplication, here⟩)⟩
  · exact ⟨_, fun rule here => .inr ⟨entry, member, here⟩⟩

theorem connection_accepted (collects : lib.CollectsAll) {c : S2SProxyConfig τ}
    (accepted : c.validate lib = []) {conn : ClusterConnConfig} (member : conn ∈ c.clusterConnections) :
    EncryptionConfig.validate lib.toLibrary conn.encryptionConfig = [] ∧
      ∃ path, ∀ rule ∈ referentialRules lib conn.encryptionConfig path (names c.extensionServers),
        rule = [] := by
  have passes := collects.validate _ _ accepted
  simp only [List.mem_append, List.mem_flatMap] at passes
  constructor
  · have children := collects.children _ _ (passes _ (.inl (List.mem_cons_of_mem _ List.mem_cons_self)))
    have checks := collects.validate _ _ (children _ (List.mem_map_of_mem member))
    exact collects.nested _ _ (checks _ List.mem_cons_self)
  · obtain ⟨i, found⟩ := List.mem_iff_getElem?.mp member
    have listed : (conn, i) ∈ c.clusterConnections.zipIdx := by
      simpa [List.mem_zipIdx_iff_getElem?] using found
    exact ⟨_, fun rule here => passes rule (.inr ⟨(conn, i), listed, here⟩)⟩

/-- An extension key URI of an accepted configuration names a server of the configuration. -/
theorem extension_uri_names_server (collects : lib.CollectsAll) {c : S2SProxyConfig τ}
    (accepted : c.validate lib = []) {conn : ClusterConnConfig} (member : conn ∈ c.clusterConnections)
    {p : KeyPolicy}
    (configured : p ∈ allPolicies conn.encryptionConfig) {uri : String} (listed : uri ∈ policyURIs p) :
    ∃ scheme host, lib.parseURI uri = .ok (scheme, host) ∧
      (lib.equalFold scheme extensionKeyScheme = true →
        host ≠ "" ∧ host ∈ names c.extensionServers) := by
  obtain ⟨structural, path, referential⟩ := connection_accepted collects accepted member
  obtain ⟨scheme, host, parsed, named⟩ :=
    validKeyURI_none (policy_uris_valid collects (policies_valid collects structural configured) listed)
  obtain ⟨subject, inside⟩ := referentialRules_has configured
  obtain ⟨fieldName, among⟩ := policyRefs_has listed
  have ref := referential _ (inside _ among)
  refine ⟨scheme, host, parsed, fun extension => ?_⟩
  exact ⟨named extension, extensionRef_nil ref parsed extension (named extension)⟩

end Accepted

section Resolving
variable {τ γ κ : Type} {lib : ConfigLibrary} {net : Network τ γ κ}

theorem lookup_insert_of_absent {conns : Connections κ} {name : String}
    (absent : conns.lookup name = none) {other : String} {found cc : κ}
    (here : conns.lookup other = some found) : (conns.insert name cc).lookup other = some found := by
  have different : other ≠ name := by
    intro same
    subst same
    cases absent.symm.trans here
  rw [AList.lookup_insert_ne different, here]

theorem dialFrom_connects {servers : List (ExtensionServer τ)} {conns result : Connections κ}
    {opened : List κ} (ok : (dialFrom lib net conns opened servers).result = .ok result) :
    (∀ name cc, conns.lookup name = some cc → result.lookup name = some cc) ∧
      ∀ s ∈ servers, ∃ cc, dialOne lib net s = .ok cc ∧ result.lookup s.name = some cc := by
  induction servers generalizing conns opened with
  | nil =>
    cases ok
    exact ⟨fun _ _ found => found, fun _ member => absurd member List.not_mem_nil⟩
  | cons s rest ih =>
    unfold dialFrom at ok
    split at ok
    · cases ok
    · next fresh =>
      have absent : conns.lookup s.name = none := by simpa using fresh
      cases dialed : dialOne lib net s with
      | error err =>
        rw [dialed] at ok
        cases ok
      | ok cc =>
        rw [dialed] at ok
        obtain ⟨kept, others⟩ := ih ok
        constructor
        · intro name other found
          exact kept name other (lookup_insert_of_absent absent found)
        · intro server member
          rcases List.mem_cons.mp member with rfl | later
          · exact ⟨cc, dialed, kept server.name cc (AList.lookup_insert conns)⟩
          · exact others server later

variable (lib net) in
theorem dialFrom_opens (servers : List (ExtensionServer τ)) (conns : Connections κ) (opened : List κ) :
    ∃ earlier fresh, earlier <+: servers ∧
      (dialFrom lib net conns opened servers).opened = opened ++ fresh ∧
      List.Forall₂ (fun s cc => dialOne lib net s = .ok cc) earlier fresh ∧
      ∀ result, (dialFrom lib net conns opened servers).result = .ok result → earlier = servers := by
  induction servers generalizing conns opened with
  | nil => exact ⟨[], [], List.prefix_refl _, by simp [dialFrom], .nil, fun _ _ => rfl⟩
  | cons s rest ih =>
    unfold dialFrom
    split
    · exact ⟨[], [], List.nil_prefix, by simp, .nil, fun _ ok => nomatch ok⟩
    · cases dialed : dialOne lib net s with
      | error err => exact ⟨[], [], List.nil_prefix, by simp, .nil, fun _ ok => nomatch ok⟩
      | ok cc =>
        obtain ⟨earlier, fresh, before, all, pairs, whole⟩ := ih (conns.insert s.name cc) (opened ++ [cc])
        refine ⟨s :: earlier, cc :: fresh, ?_, ?_, .cons dialed pairs, ?_⟩
        · exact List.cons_prefix_cons.mpr ⟨rfl, before⟩
        · simpa using all
        · intro result ok
          rw [whole result ok]

variable (lib net) in
theorem dialFrom_closes (servers : List (ExtensionServer τ)) (conns : Connections κ) (opened : List κ) :
    (∀ err, (dialFrom lib net conns opened servers).result = .error err →
      (dialFrom lib net conns opened servers).closed =
        (dialFrom lib net conns opened servers).opened) ∧
    ∀ result, (dialFrom lib net conns opened servers).result = .ok result →
      (dialFrom lib net conns opened servers).closed = [] := by
  induction servers generalizing conns opened with
  | nil => exact ⟨fun _ failed => (nomatch failed), fun _ _ => rfl⟩
  | cons s rest ih =>
    unfold dialFrom
    split
    · exact ⟨fun _ _ => rfl, fun _ ok => nomatch ok⟩
    · cases dialOne lib net s with
      | error err => exact ⟨fun _ _ => rfl, fun _ ok => nomatch ok⟩
      | ok cc => exact ih _ _

theorem newKeyFunc_ok {conns : Connections κ} {uri scheme host : String} {cc : κ}
    (parsed : lib.parseURI uri = .ok (scheme, host)) (named : host ≠ "")
    (found : conns.lookup host = some cc) :
    newKeyFunc lib conns uri = .ok ⟨lib.uriText uri, cc⟩ := by
  simp [newKeyFunc, parsed, named, found]

theorem named_server_resolves {servers : List (ExtensionServer τ)} {conns : Connections κ}
    (dialed : (dial lib net servers).result = .ok conns) {uri scheme host : String}
    (parsed : lib.parseURI uri = .ok (scheme, host)) (named : host ≠ "") (known : host ∈ names servers) :
    ∃ s ∈ servers, s.name = host ∧ ∃ cc, dialOne lib net s = .ok cc ∧
      newKeyFunc lib conns uri = .ok ⟨lib.uriText uri, cc⟩ := by
  obtain ⟨s, server, rfl⟩ := List.mem_map.mp known
  obtain ⟨cc, ok, found⟩ := (dialFrom_connects dialed).2 s server
  exact ⟨s, server, rfl, cc, ok, newKeyFunc_ok parsed named found⟩

end Resolving

theorem validated_reference_resolves {τ γ κ : Type} (lib : ConfigLibrary)
    (collects : lib.CollectsAll) (net : Network τ γ κ) (c : S2SProxyConfig τ)
    (accepted : c.validate lib = []) (conns : Connections κ)
    (dialed : (dial lib net c.extensionServers).result = .ok conns) :
    ∀ conn ∈ c.clusterConnections, ∀ p ∈ allPolicies conn.encryptionConfig, ∀ uri ∈ policyURIs p,
      ∃ scheme host, lib.parseURI uri = .ok (scheme, host) ∧
        (lib.equalFold scheme extensionKeyScheme = true →
          ∃ s ∈ c.extensionServers, s.name = host ∧ ∃ cc, dialOne lib net s = .ok cc ∧
            newKeyFunc lib conns uri = .ok ⟨lib.uriText uri, cc⟩) := by
  intro conn member p configured uri listed
  obtain ⟨scheme, host, parsed, names⟩ :=
    extension_uri_names_server collects accepted member configured listed
  refine ⟨scheme, host, parsed, fun extension => ?_⟩
  obtain ⟨named, known⟩ := names extension
  exact named_server_resolves dialed parsed named known

def sampleConfigLibrary : ConfigLibrary where
  toLibrary := sampleLibrary
  isHostPort address := if address.toList.contains ':' then none else some "is not a valid host:port"
  unique values := if values.Nodup then none else some "has duplicates"
  uriText raw := String.ofList ((splitURI raw).1 ++ (splitURI raw).2)

def sampleNetwork : Network Unit Unit String where
  getClientTLSConfig _ := .ok none
  newClient address _ := .ok address

def sampleEncryption : EncryptionConfig.Config where
  enabled := true
  failures := false
  namespaceBinding := "strict"
  cacheSize := 10
  default := some ⟨"EXTENSION://hsm/orders", ["awskms://old"], 60, 10⟩
  overrides := []
  replication := none
  alreadySealedEncodings := []

def sampleProxyConfig : S2SProxyConfig Unit where
  extensionServers := [⟨"hsm", "127.0.0.1:9443", ()⟩]
  clusterConnections := [⟨⟨"tcp", none⟩, ⟨"mux-client", none⟩, sampleEncryption⟩]

theorem sample_reference_resolves :
    sampleProxyConfig.validate sampleConfigLibrary = [] ∧
      ∃ conns, (dial sampleConfigLibrary sampleNetwork sampleProxyConfig.extensionServers).result =
        .ok conns ∧ ∃ cc, newKeyFunc sampleConfigLibrary conns "EXTENSION://hsm/orders" =
          .ok ⟨"extension://hsm/orders", cc⟩ := by
  have accepted : sampleProxyConfig.validate sampleConfigLibrary = [] := by decide +kernel
  have text : sampleConfigLibrary.uriText "EXTENSION://hsm/orders" = "extension://hsm/orders" := by
    decide +kernel
  have read : sampleConfigLibrary.parseURI "EXTENSION://hsm/orders" = .ok ("extension", "hsm") := by
    decide +kernel
  refine ⟨accepted, _, rfl, ?_⟩
  obtain ⟨scheme, host, parsed, resolves⟩ := validated_reference_resolves sampleConfigLibrary
    sampleValidation_collects sampleNetwork sampleProxyConfig accepted _ rfl _ List.mem_cons_self _
    List.mem_cons_self _ List.mem_cons_self
  cases read.symm.trans parsed
  obtain ⟨s, _, _, cc, _, opened⟩ := resolves (by decide +kernel)
  rw [← text]
  exact ⟨cc, opened⟩

section Opening
open AppendingBuild
variable {ε ρ υ : Type}

theorem createKEKs_failsWith {kf : KeyCreator ε} {errors : ε → Prop} {p : KeyPolicy}
    (from_kf : ∀ uri ∈ policyURIs p, ∀ n err, kf n uri = .error err → errors err) :
    FailsWith errors (createKEKs kf p) := by
  have one : ∀ uri ∈ policyURIs p, FailsWith errors (mkKey kf uri) := by
    intro uri listed opened err failed
    rw [start_mkKey] at failed
    cases result : kf opened.length uri with
    | error first =>
      rw [result] at failed
      cases failed
      exact from_kf uri listed _ _ result
    | ok _ =>
      rw [result] at failed
      cases failed
  refine (one p.uri List.mem_cons_self).bind fun own => ?_
  refine (FailsWith.mapM fun uri listed => one uri (List.mem_cons_of_mem _ listed)).bind fun others => ?_
  exact FailsWith.pure (own, others)

theorem nsOptions_failsWith {kf : KeyCreator ε} {errors : ε → Prop} {p : KeyPolicy}
    (from_kf : ∀ uri ∈ policyURIs p, ∀ n err, kf n uri = .error err → errors err) (ns : String)
    (isDefault : Bool) : FailsWith errors (nsOptions kf ns p isDefault) :=
  (createKEKs_failsWith from_kf).bind fun _ => FailsWith.pure _

theorem toOptions_failsWith {kf : KeyCreator ε} {errors : ε → Prop} {cfg : VaultConfig}
    {default : KeyPolicy} (configured : cfg.encryption.default = some default)
    (from_kf : ∀ p ∈ allPolicies cfg.encryption, ∀ uri ∈ policyURIs p, ∀ n err,
      kf n uri = .error err → errors err) :
    FailsWith errors (toOptions kf cfg default) := by
  have policy : ∀ p ∈ allPolicies cfg.encryption, ∀ ns isDefault,
      FailsWith errors (nsOptions kf ns p isDefault) :=
    fun p member ns isDefault => nsOptions_failsWith (from_kf p member) ns isDefault
  refine (policy default (by simp [allPolicies, configured]) _ _).bind fun kopts => ?_
  refine (FailsWith.mapM fun p member => policy p ?_ _ _).bind fun replication => ?_
  · simp only [allPolicies, List.mem_append]
    exact .inl (.inr member)
  · refine (FailsWith.mapM fun entry member => policy entry.2 ?_ _ _).bind fun overrides => ?_
    · simp only [allPolicies, List.mem_append]
      exact .inr (List.mem_map_of_mem member)
    · exact FailsWith.pure _

theorem createRegistry_key_errors {crypto : Crypto ε ρ υ} {kf : KeyCreator ε} {cfg : VaultConfig}
    {default : KeyPolicy} {err : ε}
    (failed : (createRegistry crypto kf cfg default).result = .error (.createKEK err)) :
    (start (toOptions kf cfg default) []).1 = .error err := by
  unfold createRegistry at failed
  cases built : start (toOptions kf cfg default) [] with
  | mk result opened =>
    rw [built] at failed
    cases result with
    | error first =>
      cases failed
      rfl
    | ok kopts =>
      dsimp only at failed
      cases registry : crypto.newKEKRegistry kopts with
      | mk result closed =>
        rw [registry] at failed
        cases result <;> cases failed

theorem buildVault_key_errors {crypto : Crypto ε ρ υ} {kf : KeyCreator ε} {cfg : VaultConfig}
    {default : KeyPolicy} {mode : BindingMode} {err : ε}
    (failed : (buildVault crypto kf cfg default mode).result = .error (.createKEK err)) :
    (createRegistry crypto kf cfg default).result = .error (.createKEK err) := by
  unfold buildVault at failed
  cases created : createRegistry crypto kf cfg default with
  | mk result opened closed =>
    rw [created] at failed
    cases result with
    | error first =>
      cases failed
      rfl
    | ok registry =>
      dsimp only at failed
      split at failed <;> cases failed

/-- A vault that fails to open a key fails with the error of one of its policies' URIs. -/
theorem vault_key_errors {lib : Library} {crypto : Crypto ε ρ υ} {kf : KeyCreator ε}
    {cfg : VaultConfig} {err : ε} (failed : (new lib crypto kf cfg).result = .error (.createKEK err)) :
    ∃ p ∈ allPolicies cfg.encryption, ∃ uri ∈ policyURIs p, ∃ n, kf n uri = .error err := by
  unfold new at failed
  split at failed
  · cases failed
  · split at failed
    · cases failed
    · next default configured =>
      split at failed
      · cases failed
      · next mode known =>
        have source : FailsWith (fun err => ∃ p ∈ allPolicies cfg.encryption,
            ∃ uri ∈ policyURIs p, ∃ n, kf n uri = .error err) (toOptions kf cfg default) :=
          toOptions_failsWith configured fun p member uri listed n err result =>
            ⟨p, member, uri, listed, n, result⟩
        exact source [] err (createRegistry_key_errors (buildVault_key_errors failed))

variable {τ γ κ : Type}

/-- crypto.KeyFactory with NewKeyFunc for the scheme of extension keys: a key that the function opens
    is opened. -/
def Registers (lib : ConfigLibrary) (conns : Connections κ) (kf : KeyCreator String) : Prop :=
  ∀ n uri scheme host key, lib.parseURI uri = .ok (scheme, host) →
    lib.equalFold scheme extensionKeyScheme = true → newKeyFunc lib conns uri = .ok key → kf n uri = .ok ()

end Opening

def sampleConnections : Connections String := (∅ : Connections String).insert "hsm" "127.0.0.1:9443"

def sampleVaultConfig : VaultConfig where
  encryption := sampleEncryption
  distinct := .nil
  replicationIsDefault := false
  shared := nofun

/-- No key but those of the extension servers can be opened. -/
def extensionOnly : KeyCreator String := fun _ uri =>
  (newKeyFunc sampleConfigLibrary sampleConnections uri).map fun _ => ()

end ExtensionKeys
