import S2SProxy.EncryptionConfig
import S2SProxy.Lib.AppendingBuild

/- vault.New with the registry it builds: which keys are opened, which of them are closed again and
   what each of them is registered for. -/
namespace VaultKeys
open AppendingBuild EncryptionConfig

/-- An opened KEK. No two of one construction have the same number. -/
structure KEK where
  number : Nat
  uri : String
  deriving DecidableEq

inductive KEKRegistryOption where
  | withDefaultKey (k : KEK)
  | withKeyForNamespace (ns : String) (k : KEK)
  | withDecryptOnlyKey (k : KEK)
  deriving DecidableEq

/-- The configuration of a vault. The names of the overrides are the keys of a map; Replication may
    be the very pointer that Default is. -/
structure VaultConfig where
  encryption : EncryptionConfig.Config
  distinct : (encryption.overrides.map Prod.fst).Nodup
  replicationIsDefault : Bool
  shared : replicationIsDefault = true → encryption.replication = encryption.default

inductive BindingMode where
  | off
  | permissive
  | strict
  deriving DecidableEq

def mode (binding : String) : Option BindingMode :=
  if binding = "off" then some .off
  else if binding = "permissive" then some .permissive
  else if binding = "strict" then some .strict
  else none

structure KeyConfig where
  duration : Int
  renewBefore : Int

structure VaultOptions where
  defaultKeyConfig : KeyConfig
  cacheSize : Int
  bindingMode : BindingMode
  keyConfigs : List (String × KeyConfig)

/-- The crypto package. NewKEKRegistry and Close also report the keys that they close. -/
structure Crypto (ε ρ υ : Type) where
  newKEKRegistry : List KEKRegistryOption → Except ε ρ × List KEK
  close : ρ → Option ε × List KEK
  newVault : ρ → VaultOptions → Except ε υ

inductive VaultError (ε : Type) where
  | invalidConfig (errors : List ValidationError)
  | noDefaultKeyPolicy
  | unknownBinding (binding : String)
  | createKEK (err : ε)
  | createRegistry (err : ε)
  | createVault (err : ε) (closing : Option ε)

variable {ε ρ υ : Type}

/-- Whether Create opens the key, for each call and URI. -/
abbrev KeyCreator (ε : Type) := Nat → String → Except ε Unit

abbrev RegistryBuild (ε α : Type) := Build KEK ε α

def mkKey (kf : KeyCreator ε) (uri : String) : RegistryBuild ε KEK := do
  let opened ← get
  match kf opened.length uri with
  | .error err => throw err
  | .ok () =>
    let k : KEK := ⟨opened.length, uri⟩
    set (opened ++ [k])
    return k

/-- The policy's own key, which is keys[0], and its decrypt-only keys. -/
def createKEKs (kf : KeyCreator ε) (p : KeyPolicy) : RegistryBuild ε (KEK × List KEK) := do
  let own ← mkKey kf p.uri
  let others ← p.decryptURIs.mapM (mkKey kf)
  return (own, others)

/-- What a policy's own key serves: a namespace, or those that have no key. -/
abbrev Serves := Option String

def sealingOption (serves : Serves) (k : KEK) : KEKRegistryOption :=
  match serves with
  | none => .withDefaultKey k
  | some ns => .withKeyForNamespace ns k

/-- The policy is compared with Default as a pointer. -/
def nsOptions (kf : KeyCreator ε) (ns : String) (p : KeyPolicy) (isDefault : Bool) :
    RegistryBuild ε (List KEKRegistryOption) := do
  let (own, others) ← createKEKs kf p
  return sealingOption (if isDefault then none else some ns) own :: others.map .withDecryptOnlyKey

def toOptions (kf : KeyCreator ε) (cfg : VaultConfig) (default : KeyPolicy) :
    RegistryBuild ε (List KEKRegistryOption) := do
  let kopts ← nsOptions kf "default" default true
  let replication ← cfg.encryption.replication.toList.mapM fun p =>
    nsOptions kf replicationKeyNamespace p cfg.replicationIsDefault
  let overrides ← cfg.encryption.overrides.mapM fun (ns, pol) => nsOptions kf ns pol false
  return kopts ++ replication.flatten ++ overrides.flatten

/-- What a construction comes to, with the keys it has opened and closed. -/
structure Outcome (ε α : Type) where
  result : Except (VaultError ε) α
  opened : List KEK
  closed : List KEK

/-- The registry that is built is given with the options it is built from. -/
def createRegistry (crypto : Crypto ε ρ υ) (kf : KeyCreator ε) (cfg : VaultConfig)
    (default : KeyPolicy) : Outcome ε (ρ × List KEKRegistryOption) :=
  match start (toOptions kf cfg default) [] with
  | (.error err, opened) => ⟨.error (.createKEK err), opened, opened⟩
  | (.ok kopts, opened) =>
    match crypto.newKEKRegistry kopts with
    | (.error err, closed) => ⟨.error (.createRegistry err), opened, closed ++ opened⟩
    | (.ok registry, closed) => ⟨.ok (registry, kopts), opened, closed⟩

def keyConfig (p : KeyPolicy) : KeyConfig := ⟨p.duration, p.renewBefore⟩

def vaultOptions (e : EncryptionConfig.Config) (default : KeyPolicy) (mode : BindingMode) :
    VaultOptions where
  defaultKeyConfig := keyConfig default
  cacheSize := e.cacheSize
  bindingMode := mode
  keyConfigs := e.replication.toList.map (fun p => (replicationKeyNamespace, keyConfig p)) ++
    e.overrides.map fun (ns, policy) => (ns, keyConfig policy)

/-- The rest of New, after its checks. A vault is given with the options of its registry. -/
def buildVault (crypto : Crypto ε ρ υ) (kf : KeyCreator ε) (cfg : VaultConfig) (default : KeyPolicy)
    (mode : BindingMode) : Outcome ε (υ × List KEKRegistryOption) :=
  match createRegistry crypto kf cfg default with
  | ⟨.error err, opened, closed⟩ => ⟨.error err, opened, closed⟩
  | ⟨.ok (registry, kopts), opened, closed⟩ =>
    match crypto.newVault registry (vaultOptions cfg.encryption default mode) with
    | .error err =>
      let (closing, released) := crypto.close registry
      ⟨.error (.createVault err closing), opened, closed ++ released⟩
    | .ok vault => ⟨.ok (vault, kopts), opened, closed⟩

def new (lib : Library) (crypto : Crypto ε ρ υ) (kf : KeyCreator ε) (cfg : VaultConfig) :
    Outcome ε (υ × List KEKRegistryOption) :=
  match validate lib cfg.encryption with
  | e :: errors => ⟨.error (.invalidConfig (e :: errors)), [], []⟩
  | [] =>
    match cfg.encryption.default with
    | none => ⟨.error .noDefaultKeyPolicy, [], []⟩
    | some default =>
      match mode cfg.encryption.namespaceBinding with
      | none => ⟨.error (.unknownBinding cfg.encryption.namespaceBinding), [], []⟩
      | some mode => buildVault crypto kf cfg default mode

def KEKRegistryOption.key : KEKRegistryOption → KEK
  | .withDefaultKey k | .withKeyForNamespace _ k | .withDecryptOnlyKey k => k

/-- Building a registry closes no key; closing it closes each key that it was built with once. -/
structure Documented (crypto : Crypto ε ρ υ) : Prop where
  closes_nothing : ∀ kopts, (crypto.newKEKRegistry kopts).2 = []
  closes_each : ∀ kopts registry, (crypto.newKEKRegistry kopts).1 = .ok registry →
    (crypto.close registry).2.Perm (kopts.map KEKRegistryOption.key)

def policies (cfg : VaultConfig) (default : KeyPolicy) : List (Serves × KeyPolicy) :=
  (none, default) ::
    cfg.encryption.replication.toList.map
        (fun p => (if cfg.replicationIsDefault then none else some replicationKeyNamespace, p)) ++
      cfg.encryption.overrides.map fun (ns, pol) => (some ns, pol)

def policyURIs (p : KeyPolicy) : List String := p.uri :: p.decryptURIs

def Numbered (opened : List KEK) : Prop := opened.map KEK.number = List.range opened.length

/-- The options of one policy, from the keys that were opened for it. -/
def Registers (policy : Serves × KeyPolicy) (new : List KEK) (kopts : List KEKRegistryOption) : Prop :=
  ∃ own others, new = own :: others ∧ own.uri = policy.2.uri ∧
    others.map KEK.uri = policy.2.decryptURIs ∧
    kopts = sealingOption policy.1 own :: others.map .withDecryptOnlyKey

theorem start_mkKey (kf : KeyCreator ε) (uri : String) (opened : List KEK) :
    start (mkKey kf uri) opened =
      match kf opened.length uri with
      | .error err => (.error err, opened)
      | .ok () => (.ok ⟨opened.length, uri⟩, opened ++ [⟨opened.length, uri⟩]) := by
  have begun : start (mkKey kf uri) opened = start (match kf opened.length uri with
      | .error err => throw err
      | .ok () => do
        set (opened ++ [⟨opened.length, uri⟩])
        return ⟨opened.length, uri⟩) opened := rfl
  rw [begun]
  cases kf opened.length uri with
  | error err => rfl
  | ok _ => rfl

theorem mkKey_appends (kf : KeyCreator ε) (uri : String) :
    Appends Numbered (mkKey kf uri) fun new k => new = [k] ∧ k.uri = uri := by
  intro opened numbered
  rw [start_mkKey]
  cases kf opened.length uri with
  | error err => exact ⟨[], by simp, by simpa using numbered, fun _ failed => nomatch failed⟩
  | ok _ =>
    refine ⟨[⟨opened.length, uri⟩], rfl, ?_, ?_⟩
    · unfold Numbered at numbered ⊢
      simp [numbered, List.range_succ]
    · intro k same
      obtain rfl := Except.ok.inj same
      exact ⟨rfl, rfl⟩

theorem keys_of_passes {uris : List String} {new keys : List KEK}
    (passes : Passes (fun uri new (k : KEK) => new = [k] ∧ k.uri = uri) uris new keys) :
    new = keys ∧ keys.map KEK.uri = uris := by
  induction passes with
  | nil => exact ⟨rfl, rfl⟩
  | cons here later ih =>
    obtain ⟨rfl, rfl⟩ := here
    obtain ⟨rfl, rfl⟩ := ih
    exact ⟨rfl, rfl⟩

theorem createKEKs_appends (kf : KeyCreator ε) (p : KeyPolicy) :
    Appends Numbered (createKEKs kf p) fun new keys =>
      new = keys.1 :: keys.2 ∧ keys.1.uri = p.uri ∧ keys.2.map KEK.uri = p.decryptURIs := by
  refine (mkKey_appends kf p.uri).bind fun new own opened => ?_
  obtain ⟨rfl, uri⟩ := opened
  refine (Appends.mapM (mkKey_appends kf) p.decryptURIs).bind fun more others passes => .pure ?_
  obtain ⟨rfl, uris⟩ := keys_of_passes passes
  exact ⟨by simp, uri, uris⟩

theorem nsOptions_appends (kf : KeyCreator ε) (ns : String) (p : KeyPolicy) (isDefault : Bool) :
    Appends Numbered (nsOptions kf ns p isDefault)
      (Registers (if isDefault then none else some ns, p)) := by
  refine (createKEKs_appends kf p).bind fun new keys opened => .pure ?_
  obtain ⟨own, others⟩ := keys
  obtain ⟨rfl, uri, uris⟩ := opened
  exact ⟨own, others, by simp, uri, uris, rfl⟩

theorem toOptions_appends (kf : KeyCreator ε) (cfg : VaultConfig) (default : KeyPolicy) :
    Appends Numbered (toOptions kf cfg default) fun new kopts =>
      ∃ groups, Passes Registers (policies cfg default) new groups ∧ kopts = groups.flatten := by
  refine (nsOptions_appends kf "default" default true).bind fun new kopts first => ?_
  refine (Appends.mapM (fun p => nsOptions_appends kf replicationKeyNamespace p cfg.replicationIsDefault)
    cfg.encryption.replication.toList).bind fun more groups second => ?_
  refine (Appends.mapM (fun (pair : String × KeyPolicy) => nsOptions_appends kf pair.1 pair.2 false)
    cfg.encryption.overrides).bind fun last groups' third => .pure ?_
  refine ⟨kopts :: groups ++ groups', ?_, by simp⟩
  have passes := (Passes.cons first second.map).append third.map
  simpa [policies] using passes

/-- What the key of an option seals for. -/
def KEKRegistryOption.seals : KEKRegistryOption → Option (Serves × KEK)
  | .withDefaultKey k => some (none, k)
  | .withKeyForNamespace ns k => some (some ns, k)
  | .withDecryptOnlyKey _ => none

def KEKRegistryOption.decryptOnly : KEKRegistryOption → Option KEK
  | .withDecryptOnlyKey k => some k
  | .withDefaultKey _ | .withKeyForNamespace _ _ => none

/-- The own key of each policy seals, its other keys only open. -/
structure Registered (ps : List (Serves × KeyPolicy)) (new : List KEK)
    (kopts : List KEKRegistryOption) : Prop where
  uris : new.map KEK.uri = ps.flatMap fun p => policyURIs p.2
  keys : kopts.map KEKRegistryOption.key = new
  sealing : (kopts.filterMap KEKRegistryOption.seals).map (fun x => (x.1, x.2.uri)) =
    ps.map fun p => (p.1, p.2.uri)
  decrypting : (kopts.filterMap KEKRegistryOption.decryptOnly).map KEK.uri =
    ps.flatMap fun p => p.2.decryptURIs

theorem seals_sealingOption (serves : Serves) (k : KEK) :
    (sealingOption serves k).seals = some (serves, k) := by
  cases serves <;> rfl

theorem Registers.registered {p : Serves × KeyPolicy} {new : List KEK}
    {kopts : List KEKRegistryOption} (h : Registers p new kopts) : Registered [p] new kopts := by
  obtain ⟨own, others, rfl, uri, uris, rfl⟩ := h
  have decryptOnly : (sealingOption p.1 own).decryptOnly = none := by cases p.1 <;> rfl
  have key : (sealingOption p.1 own).key = own := by cases p.1 <;> rfl
  have keys : (others.map KEKRegistryOption.withDecryptOnlyKey).map KEKRegistryOption.key = others := by
    simp [Function.comp_def, KEKRegistryOption.key]
  have none_seals : (others.map KEKRegistryOption.withDecryptOnlyKey).filterMap
      KEKRegistryOption.seals = [] := by
    simp [List.filterMap_map, Function.comp_def, KEKRegistryOption.seals]
  have all_open : (others.map KEKRegistryOption.withDecryptOnlyKey).filterMap
      KEKRegistryOption.decryptOnly = others := by
    simp [List.filterMap_map, Function.comp_def, KEKRegistryOption.decryptOnly]
  constructor
  · simp [policyURIs, uri, uris]
  · rw [List.map_cons, key, keys]
  · rw [List.filterMap_cons_some (seals_sealingOption p.1 own), none_seals]
    simp [uri]
  · rw [List.filterMap_cons_none decryptOnly, all_open, uris]
    simp

theorem Registered.append {ps qs : List (Serves × KeyPolicy)} {new more : List KEK}
    {kopts others : List KEKRegistryOption} (first : Registered ps new kopts)
    (second : Registered qs more others) : Registered (ps ++ qs) (new ++ more) (kopts ++ others) where
  uris := by simp [first.uris, second.uris]
  keys := by simp [first.keys, second.keys]
  sealing := by rw [List.filterMap_append, List.map_append, first.sealing, second.sealing, List.map_append]
  decrypting := by
    rw [List.filterMap_append, List.map_append, first.decrypting, second.decrypting, List.flatMap_append]

theorem registered_of_passes {ps : List (Serves × KeyPolicy)} {new : List KEK}
    {groups : List (List KEKRegistryOption)} (passes : Passes Registers ps new groups) :
    Registered ps new groups.flatten := by
  induction passes with
  | nil => exact ⟨rfl, rfl, rfl, rfl⟩
  | cons here later ih => exact here.registered.append ih

/-- Everything that toOptions does: the keys it has opened are all different, and on success they
    are those of the policies. -/
theorem start_toOptions (kf : KeyCreator ε) (cfg : VaultConfig) (default : KeyPolicy) :
    (start (toOptions kf cfg default) []).2.Nodup ∧
      ∀ kopts, (start (toOptions kf cfg default) []).1 = .ok kopts →
        Registered (policies cfg default) (start (toOptions kf cfg default) []).2 kopts := by
  obtain ⟨new, opened, numbered, value⟩ := toOptions_appends kf cfg default [] rfl
  rw [List.nil_append] at opened numbered
  rw [opened]
  constructor
  · have distinct : (new.map KEK.number).Nodup := by
      rw [numbered]
      exact List.nodup_range
    exact distinct.of_map
  · intro kopts built
    obtain ⟨groups, passes, rfl⟩ := value kopts built
    exact registered_of_passes passes

def policyOf (e : EncryptionConfig.Config) (ns : String) : Option KeyPolicy :=
  e.overrides.lookup ns <|> (if ns = replicationKeyNamespace then e.replication else none) <|> e.default

def allPolicies (e : EncryptionConfig.Config) : List KeyPolicy :=
  e.default.toList ++ e.replication.toList ++ e.overrides.map Prod.snd

def keysFor (kopts : List KEKRegistryOption) (serves : Serves) : List KEK :=
  (kopts.filterMap KEKRegistryOption.seals).filterMap fun x => if x.1 = serves then some x.2 else none

/-- The keys that a registry may seal with for a namespace: its own, or the default key. -/
def sealingKeys (kopts : List KEKRegistryOption) (ns : String) : List KEK :=
  if keysFor kopts (some ns) = [] then keysFor kopts none else keysFor kopts (some ns)

/-- The keys of a vault that has been built. -/
structure Built (e : EncryptionConfig.Config) (kopts : List KEKRegistryOption)
    (opened closed : List KEK) : Prop where
  none_closed : closed = []
  opened_uris : opened.map KEK.uri = (allPolicies e).flatMap policyURIs
  registered : kopts.map KEKRegistryOption.key = opened
  sealing : ∀ ns, ∃ p, policyOf e ns = some p ∧ sealingKeys kopts ns ≠ [] ∧
    ∀ k ∈ sealingKeys kopts ns, k.uri = p.uri
  sealing_uris : (kopts.filterMap KEKRegistryOption.seals).map (fun x => x.2.uri) =
    (allPolicies e).map KeyPolicy.uri
  decrypting_uris : (kopts.filterMap KEKRegistryOption.decryptOnly).map KEK.uri =
    (allPolicies e).flatMap KeyPolicy.decryptURIs

theorem mem_keysFor (kopts : List KEKRegistryOption) (serves : Serves) (k : KEK) :
    k ∈ keysFor kopts serves ↔ (serves, k) ∈ kopts.filterMap KEKRegistryOption.seals := by
  unfold keysFor
  rw [List.mem_filterMap]
  constructor
  · intro found
    obtain ⟨x, member, same⟩ := found
    obtain ⟨rfl, rfl⟩ : x.1 = serves ∧ x.2 = k := by simpa using same
    exact member
  · intro member
    exact ⟨(serves, k), member, by simp⟩

theorem Registered.keysFor_uri {ps : List (Serves × KeyPolicy)} {new : List KEK}
    {kopts : List KEKRegistryOption} (h : Registered ps new kopts) (serves : Serves) (uri : String) :
    (∃ k ∈ keysFor kopts serves, k.uri = uri) ↔ ∃ p, (serves, p) ∈ ps ∧ p.uri = uri := by
  have same := congrArg (fun l => (serves, uri) ∈ l) h.sealing
  simp only [List.mem_map, Prod.mk.injEq, eq_iff_iff] at same
  constructor
  · intro found
    obtain ⟨k, member, rfl⟩ := found
    obtain ⟨p, here, rfl, uri⟩ := same.mp ⟨(serves, k), (mem_keysFor kopts serves k).mp member, rfl, rfl⟩
    exact ⟨p.2, here, uri⟩
  · intro found
    obtain ⟨p, here, rfl⟩ := found
    obtain ⟨x, member, rfl, uri⟩ := same.mpr ⟨(serves, p), here, rfl, rfl⟩
    exact ⟨x.2, (mem_keysFor kopts x.1 x.2).mpr member, uri⟩

theorem lookup_override (cfg : VaultConfig) {ns : String} {p : KeyPolicy} :
    cfg.encryption.overrides.lookup ns = some p ↔ (ns, p) ∈ cfg.encryption.overrides := by
  rw [List.lookup_eq_some_iff]
  constructor
  · intro found
    obtain ⟨before, after, split, -⟩ := found
    simp [split]
  · intro member
    obtain ⟨before, after, split⟩ := List.append_of_mem member
    refine ⟨before, after, split, ?_⟩
    intro other earlier
    have distinct := cfg.distinct
    rw [split, List.map_append, List.nodup_append] at distinct
    have different := distinct.2.2 other.1 (List.mem_map_of_mem earlier) ns (by simp)
    simpa using different.symm

theorem Registered.seals_own {ps : List (Serves × KeyPolicy)} {new : List KEK}
    {kopts : List KEKRegistryOption} (h : Registered ps new kopts) {ns : String} {p : KeyPolicy}
    (member : (some ns, p) ∈ ps) (only : ∀ p', (some ns, p') ∈ ps → p' = p) :
    sealingKeys kopts ns ≠ [] ∧ ∀ k ∈ sealingKeys kopts ns, k.uri = p.uri := by
  obtain ⟨k, key, -⟩ := (h.keysFor_uri (some ns) p.uri).mpr ⟨p, member, rfl⟩
  have own : keysFor kopts (some ns) ≠ [] := List.ne_nil_of_mem key
  rw [sealingKeys, if_neg own]
  refine ⟨own, ?_⟩
  intro k' key'
  obtain ⟨p', member', uri⟩ := (h.keysFor_uri (some ns) k'.uri).mp ⟨k', key', rfl⟩
  rw [← uri, only p' member']

theorem Registered.seals_default {ps : List (Serves × KeyPolicy)} {new : List KEK}
    {kopts : List KEKRegistryOption} (h : Registered ps new kopts) {ns : String} {p : KeyPolicy}
    (missing : ∀ p', (some ns, p') ∉ ps) (member : (none, p) ∈ ps)
    (only : ∀ p', (none, p') ∈ ps → p' = p) :
    sealingKeys kopts ns ≠ [] ∧ ∀ k ∈ sealingKeys kopts ns, k.uri = p.uri := by
  have empty : keysFor kopts (some ns) = [] := by
    rw [List.eq_nil_iff_forall_not_mem]
    intro k key
    obtain ⟨p', member', -⟩ := (h.keysFor_uri (some ns) k.uri).mp ⟨k, key, rfl⟩
    exact missing p' member'
  obtain ⟨k, key, -⟩ := (h.keysFor_uri none p.uri).mpr ⟨p, member, rfl⟩
  rw [sealingKeys, if_pos empty]
  refine ⟨List.ne_nil_of_mem key, ?_⟩
  intro k' key'
  obtain ⟨p', member', uri⟩ := (h.keysFor_uri none k'.uri).mp ⟨k', key', rfl⟩
  rw [← uri, only p' member']

section Sealing
variable {cfg : VaultConfig} {default : KeyPolicy}

theorem mem_policies_some {ns : String} {p : KeyPolicy} :
    (some ns, p) ∈ policies cfg default ↔
      (ns = replicationKeyNamespace ∧ cfg.encryption.replication = some p ∧
        cfg.replicationIsDefault = false) ∨
      (ns, p) ∈ cfg.encryption.overrides := by
  cases shared : cfg.replicationIsDefault with
  | true => simp [policies, shared]
  | false =>
    simp only [policies, shared, Bool.false_eq_true, if_false, List.cons_append, List.mem_cons,
      Prod.mk.injEq, reduceCtorEq, false_and, false_or, List.mem_append, List.mem_map,
      Option.mem_toList, Prod.exists, Option.some.injEq]
    constructor
    · intro found
      rcases found with ⟨q, given, rfl, rfl⟩ | ⟨n, q, member, rfl, rfl⟩
      · exact .inl ⟨rfl, given, trivial⟩
      · exact .inr member
    · intro found
      rcases found with ⟨rfl, given, -⟩ | member
      · exact .inl ⟨p, given, rfl, rfl⟩
      · exact .inr ⟨ns, p, member, rfl, rfl⟩

theorem mem_policies_none (configured : cfg.encryption.default = some default) (p : KeyPolicy) :
    (none, p) ∈ policies cfg default ↔ p = default := by
  constructor
  · intro member
    cases shared : cfg.replicationIsDefault with
    | false => simpa [policies, shared] using member
    | true =>
      have same := (cfg.shared shared).trans configured
      simpa [policies, shared, same] using member
  · intro same
    simp [policies, same]

/- A namespace without a key of its own has the default policy: the replication policy, if there is
   one, is then the default one. -/
theorem policyOf_default (configured : cfg.encryption.default = some default) {ns : String}
    (override : cfg.encryption.overrides.lookup ns = none)
    (missing : ∀ p, (some ns, p) ∉ policies cfg default) :
    policyOf cfg.encryption ns = some default := by
  by_cases reserved : ns = replicationKeyNamespace
  · cases given : cfg.encryption.replication with
    | none => simp [policyOf, override, given, configured]
    | some r =>
      have shared : cfg.replicationIsDefault = true := by
        by_contra alone
        exact missing r (mem_policies_some.mpr (.inl ⟨reserved, given, by simpa using alone⟩))
      have same : cfg.encryption.replication = some default := (cfg.shared shared).trans configured
      rw [policyOf, override, if_pos reserved, same]
      rfl
  · simp [policyOf, override, reserved, configured]

theorem policies_seal {lib : Library} (collects : lib.CollectsAll) (accepted : validate lib cfg.encryption = [])
    (configured : cfg.encryption.default = some default) {new : List KEK}
    {kopts : List KEKRegistryOption} (h : Registered (policies cfg default) new kopts) (ns : String) :
    ∃ p, policyOf cfg.encryption ns = some p ∧ sealingKeys kopts ns ≠ [] ∧
      ∀ k ∈ sealingKeys kopts ns, k.uri = p.uri := by
  have only_default (p' : KeyPolicy) := (mem_policies_none configured p').mp
  have default_there := (mem_policies_none configured default).mpr rfl
  cases override : cfg.encryption.overrides.lookup ns with
  | some p =>
    refine ⟨p, by simp [policyOf, override], ?_⟩
    have member := (lookup_override cfg).mp override
    refine h.seals_own (mem_policies_some.mpr (.inr member)) ?_
    intro p' other
    rcases mem_policies_some.mp other with ⟨rfl, -, -⟩ | again
    · exact absurd member (validate_reserved collects accepted p)
    · exact Option.some.inj (((lookup_override cfg).mpr again).symm.trans override)
  | none =>
    have no_override (p' : KeyPolicy) : (ns, p') ∉ cfg.encryption.overrides := fun member =>
      nomatch override.symm.trans ((lookup_override cfg).mpr member)
    by_cases own : ∃ p, (some ns, p) ∈ policies cfg default
    · obtain ⟨p, member⟩ := own
      obtain ⟨rfl, given, alone⟩ := (mem_policies_some.mp member).resolve_right (no_override p)
      refine ⟨p, by simp [policyOf, override, given], h.seals_own member ?_⟩
      intro p' other
      obtain ⟨-, given', -⟩ := (mem_policies_some.mp other).resolve_right (no_override p')
      exact Option.some.inj (given'.symm.trans given)
    · have missing := not_exists.mp own
      exact ⟨default, policyOf_default configured override missing,
        h.seals_default missing default_there only_default⟩

end Sealing

/-- After a failure each key that was opened has been closed once; a success is what it should be. -/
structure Outcome.Sound {α : Type} (good : α → List KEK → List KEK → Prop) (o : Outcome ε α) : Prop where
  distinct : o.opened.Nodup
  failed : ∀ err, o.result = .error err → o.closed.Perm o.opened
  succeeded : ∀ a, o.result = .ok a → good a o.opened o.closed

theorem Outcome.sound_error {α : Type} {good : α → List KEK → List KEK → Prop} {opened closed : List KEK}
    {err : VaultError ε} (distinct : opened.Nodup) (each : closed.Perm opened) :
    Outcome.Sound good ⟨.error err, opened, closed⟩ :=
  ⟨distinct, fun _ _ => each, fun _ succeeded => nomatch succeeded⟩

theorem Outcome.sound_ok {α : Type} {good : α → List KEK → List KEK → Prop} {opened closed : List KEK}
    {a : α} (distinct : opened.Nodup) (holds : good a opened closed) :
    Outcome.Sound good (⟨.ok a, opened, closed⟩ : Outcome ε α) where
  distinct := distinct
  failed _ failed := nomatch failed
  succeeded _ same := Except.ok.inj same ▸ holds

theorem createRegistry_sound {crypto : Crypto ε ρ υ}
    (documented : Documented crypto)
    (kf : KeyCreator ε) (cfg : VaultConfig) (default : KeyPolicy) :
    (createRegistry crypto kf cfg default).Sound fun built opened closed =>
      closed = [] ∧ (crypto.newKEKRegistry built.2).1 = .ok built.1 ∧
        Registered (policies cfg default) opened built.2 := by
  obtain ⟨distinct, value⟩ := start_toOptions kf cfg default
  unfold createRegistry
  split
  · next err opened ran =>
    rw [ran] at distinct
    exact Outcome.sound_error distinct (.refl _)
  · next kopts opened ran =>
    rw [ran] at distinct value
    have closes := documented.closes_nothing kopts
    split
    · next err closed refused =>
      rw [refused] at closes
      obtain rfl : closed = [] := closes
      exact Outcome.sound_error distinct (.refl _)
    · next registry closed built =>
      rw [built] at closes
      exact Outcome.sound_ok distinct ⟨closes, by rw [built], value kopts rfl⟩

theorem policies_snd {cfg : VaultConfig} {default : KeyPolicy}
    (configured : cfg.encryption.default = some default) :
    (policies cfg default).map Prod.snd = allPolicies cfg.encryption := by
  simp [policies, allPolicies, configured, Function.comp_def]

theorem Registered.built {lib : Library} (collects : lib.CollectsAll) {cfg : VaultConfig}
    {default : KeyPolicy} (accepted : validate lib cfg.encryption = [])
    (configured : cfg.encryption.default = some default)
    {opened : List KEK} {kopts : List KEKRegistryOption}
    (h : Registered (policies cfg default) opened kopts) : Built cfg.encryption kopts opened [] := by
  have all := policies_snd configured
  constructor
  · rfl
  · rw [h.uris, ← all, List.flatMap_map]
  · exact h.keys
  · exact policies_seal collects accepted configured h
  · have uris := congrArg (List.map Prod.snd) h.sealing
    rw [← all]
    simpa [Function.comp_def] using uris
  · rw [h.decrypting, ← all, List.flatMap_map]

theorem buildVault_sound {lib : Library} (collects : lib.CollectsAll) {crypto : Crypto ε ρ υ}
    (documented : Documented crypto)
    (kf : KeyCreator ε) {cfg : VaultConfig} {default : KeyPolicy}
    (accepted : validate lib cfg.encryption = [])
    (configured : cfg.encryption.default = some default)
    (mode : BindingMode) :
    (buildVault crypto kf cfg default mode).Sound fun built opened closed =>
      Built cfg.encryption built.2 opened closed := by
  have sound := createRegistry_sound documented kf cfg default
  unfold buildVault
  split
  · next err opened closed ran =>
    rw [ran] at sound
    exact Outcome.sound_error sound.distinct (sound.failed err rfl)
  · next registry kopts opened closed ran =>
    rw [ran] at sound
    obtain ⟨none_closed, made, registered⟩ := sound.succeeded _ rfl
    obtain rfl : closed = [] := none_closed
    split
    · have each := documented.closes_each kopts registry made
      rw [registered.keys] at each
      exact Outcome.sound_error sound.distinct each
    · exact Outcome.sound_ok sound.distinct (registered.built collects accepted configured)

/-- A vault that cannot be built leaves no key open and closes none twice; one that is built has
    closed none, has opened every URI of its configuration, and seals with the policies' own keys. -/
theorem vault_construction_leaks_no_key (lib : Library) (collects : lib.CollectsAll)
    (crypto : Crypto ε ρ υ) (documented : Documented crypto) (kf : KeyCreator ε) (cfg : VaultConfig) :
    (new lib crypto kf cfg).Sound fun built opened closed =>
      Built cfg.encryption built.2 opened closed := by
  unfold new
  split
  · exact Outcome.sound_error .nil (.refl _)
  · next accepted =>
    split
    · exact Outcome.sound_error .nil (.refl _)
    · next default configured =>
      split
      · exact Outcome.sound_error .nil (.refl _)
      · next mode known => exact buildVault_sound collects documented kf accepted configured mode

def samplePolicy (uri : String) (decryptURIs : List String) : KeyPolicy := ⟨uri, decryptURIs, 60, 10⟩

/-- A default key with one that it has replaced, a replication key and an override. -/
def sampleConfig : VaultConfig where
  encryption :=
    { enabled := true, failures := false, namespaceBinding := "strict", cacheSize := 10,
      default := some (samplePolicy "awskms://new" ["awskms://old"])
      overrides := [("orders", samplePolicy "awskms://orders" [])]
      replication := some (samplePolicy "awskms://replication" [])
      alreadySealedEncodings := [] }
  distinct := by decide
  replicationIsDefault := false
  shared := nofun

def sampleCrypto : Crypto String (List KEKRegistryOption) Unit where
  newKEKRegistry kopts := (.ok kopts, [])
  close kopts := (none, kopts.map KEKRegistryOption.key)
  newVault _ _ := .ok ()

theorem sampleCrypto_documented : Documented sampleCrypto where
  closes_nothing _ := rfl
  closes_each kopts registry built := by
    obtain rfl : kopts = registry := Except.ok.inj built
    exact .refl _

/-- The fourth key cannot be opened. -/
def threeKeys : KeyCreator String := fun count _ => if count < 3 then .ok () else .error "access denied"

theorem sample_vaults :
    (∃ kopts, (new sampleLibrary sampleCrypto (fun _ _ => .ok ()) sampleConfig).result = .ok ((), kopts) ∧
      Built sampleConfig.encryption kopts
        (new sampleLibrary sampleCrypto (fun _ _ => .ok ()) sampleConfig).opened
        (new sampleLibrary sampleCrypto (fun _ _ => .ok ()) sampleConfig).closed) ∧
    (new sampleLibrary sampleCrypto threeKeys sampleConfig).opened.map KEK.uri =
      ["awskms://new", "awskms://old", "awskms://replication"] ∧
    (new sampleLibrary sampleCrypto threeKeys sampleConfig).closed.Perm
      (new sampleLibrary sampleCrypto threeKeys sampleConfig).opened := by
  have succeeds := vault_construction_leaks_no_key sampleLibrary sampleValidation_collects
    sampleCrypto sampleCrypto_documented
    (fun _ _ => .ok ()) sampleConfig
  have fails := vault_construction_leaks_no_key sampleLibrary sampleValidation_collects
    sampleCrypto sampleCrypto_documented
    threeKeys sampleConfig
  exact ⟨⟨_, rfl, succeeds.succeeded _ rfl⟩, rfl, fails.failed (.createKEK "access denied") rfl⟩

end VaultKeys
