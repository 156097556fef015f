import Mathlib

/- The encryption block of a connection's configuration, and its validation. -/
namespace EncryptionConfig

structure ValidationError where
  subject : String := ""
  field : String := ""
  message : String
  deriving DecidableEq

abbrev Rule := List ValidationError

abbrev Check := Option String

/-- The types of the numbers that are checked, as they print differently. -/
inductive Number where
  | int
  | duration

/-- The validation package. Children is there for elements that give errors of fields and for
    elements that have one check; Required is told whether the value is missing. -/
structure Validation where
  validate : String → List Rule → List ValidationError
  whenRules : Bool → List Rule → Rule
  field : String → List Check → Rule
  nested : String → List ValidationError → Rule
  whenNested : Bool → String → List ValidationError → Rule
  children : String → List (List ValidationError) → Rule
  childChecks : String → List Check → Rule
  required : Bool → Check
  gt : Number → Int → Int → Check
  gte : Number → Int → Int → Check
  lt : Number → Int → Int → Check

/-- What the package is relied on for: no error gets lost. -/
structure Validation.CollectsAll (v : Validation) : Prop where
  validate : ∀ subject rules, v.validate subject rules = [] → ∀ rule ∈ rules, rule = []
  field : ∀ name checks, v.field name checks = [] → ∀ check ∈ checks, check = none
  nested : ∀ name errors, v.nested name errors = [] → errors = []
  whenNested : ∀ name errors, v.whenNested true name errors = [] → errors = []
  children : ∀ name elements, v.children name elements = [] → ∀ errors ∈ elements, errors = []
  childChecks : ∀ name checks, v.childChecks name checks = [] → ∀ check ∈ checks, check = none

/-- What the validation takes from other packages: the rules, URI parsing into scheme and host, the
    default key schemes, case-insensitive comparison and quoting. -/
structure Library extends Validation where
  parseURI : String → Except String (String × String)
  defaultSchemes : List String
  equalFold : String → String → Bool
  quote : String → String

structure KeyPolicy where
  uri : String
  decryptURIs : List String
  duration : Int
  renewBefore : Int

/-- The overrides stand in the order of their sorted names, in which they are validated. -/
structure Config where
  enabled : Bool
  failures : Bool
  namespaceBinding : String
  cacheSize : Int
  default : Option KeyPolicy
  overrides : List (String × KeyPolicy)
  replication : Option KeyPolicy
  alreadySealedEncodings : List String

def extensionKeyScheme : String := "extension"
def replicationKeyNamespace : String := "$replication"
def namespaceBindings : List String := ["off", "permissive", "strict"]
def joinBindings : String := ",".intercalate namespaceBindings

section Checks
variable (lib : Library)

def validKeyURI (raw : String) : Option String :=
  match lib.parseURI raw with
  | .error err => some s!"is not a valid URI: {err}"
  | .ok (scheme, host) =>
    let validKeySchemes := lib.defaultSchemes ++ [extensionKeyScheme]
    if !validKeySchemes.any (lib.equalFold · scheme) then
      let valid := ",".intercalate validKeySchemes
      some s!"invalid key URI: {raw}, valid schemes: [{valid}]"
    else if lib.equalFold scheme extensionKeyScheme && host == "" then
      some s!"extension key URI must name an extension server: {raw}"
    else none

def KeyPolicy.validate (p : KeyPolicy) : List ValidationError :=
  lib.validate "" [
    lib.field "uri" [validKeyURI lib p.uri],
    lib.childChecks "decryptURIs" (p.decryptURIs.map (validKeyURI lib)),
    lib.field "duration" [lib.gt .duration 0 p.duration],
    lib.field "renewBefore" [lib.gte .duration 0 p.renewBefore, lib.lt .duration p.duration p.renewBefore]]

def failuresCheck (e : Config) : Option String :=
  if e.failures && !e.enabled then some "requires encryption to be enabled"
  else if e.failures && e.alreadySealedEncodings.contains "json/plain" then
    some "cannot be used with \"json/plain\" in alreadySealedEncodings, which would send encoded failures unsealed"
  else none

def namespaceBindingCheck (e : Config) : Option String :=
  if e.namespaceBinding == "" && e.default.isSome then
    some "is required when keys are configured: set \"off\", \"permissive\", or \"strict\"; start with \"off\" and follow the rollout steps in the namespaceBinding docs"
  else if e.namespaceBinding != "" && !namespaceBindings.contains e.namespaceBinding then
    some s!"unknown value {lib.quote e.namespaceBinding}, valid values: [{joinBindings}]"
  else none

def notReservedNamespace (ns : String) : Option String :=
  if ns == replicationKeyNamespace then
    some "is reserved for the replication key policy; set encryption.replication instead"
  else none

def whenPolicy (name : String) (policy : Option KeyPolicy) : Rule :=
  lib.whenNested policy.isSome name ((policy.map (KeyPolicy.validate lib)).getD [])

def overrideRules (ns : String) (policy : KeyPolicy) : List Rule :=
  let subject := s!"overrides[{ns}]"
  [lib.field subject [lib.required (ns == "")],
    lib.field subject [notReservedNamespace ns],
    lib.nested subject (policy.validate lib)]

def rules (e : Config) : List Rule :=
  [lib.field "cacheSize" [lib.gte .int 0 e.cacheSize],
    lib.field "failures" [failuresCheck e],
    lib.field "namespaceBinding" [namespaceBindingCheck lib e],
    lib.whenRules e.enabled [lib.field "default" [lib.required e.default.isNone]],
    whenPolicy lib "default" e.default,
    whenPolicy lib "replication" e.replication] ++
  e.overrides.flatMap (fun (ns, policy) => overrideRules lib ns policy) ++
  e.alreadySealedEncodings.zipIdx.map fun (enc, i) =>
    lib.field s!"alreadySealedEncodings[{i}]" [lib.required (enc == "")]

def validate (e : Config) : List ValidationError := lib.validate "" (rules lib e)

end Checks

section Accepted
variable {lib : Library} {e : Config}

theorem rule_passes (collects : lib.CollectsAll) (accepted : validate lib e = []) {rule : Rule}
    (member : rule ∈ rules lib e) : rule = [] :=
  collects.validate _ _ accepted rule member

theorem check_passes (collects : lib.CollectsAll) {name : String} {check : Check}
    (passed : lib.field name [check] = []) : check = none :=
  collects.field name _ passed check List.mem_cons_self

theorem override_passes (collects : lib.CollectsAll) (accepted : validate lib e = []) {ns : String}
    {policy : KeyPolicy} (member : (ns, policy) ∈ e.overrides) :
    notReservedNamespace ns = none ∧ policy.validate lib = [] := by
  have each : ∀ rule ∈ overrideRules lib ns policy, rule = [] := by
    intro rule here
    apply rule_passes collects accepted
    simp only [rules, List.mem_append, List.mem_flatMap]
    exact .inl (.inr ⟨(ns, policy), member, here⟩)
  simp only [overrideRules, List.forall_mem_cons] at each
  obtain ⟨_, reserved, nested, _⟩ := each
  exact ⟨check_passes collects reserved, collects.nested _ _ nested⟩

theorem validate_failures (collects : lib.CollectsAll) (accepted : validate lib e = [])
    (failures : e.failures = true) :
    e.enabled = true ∧ "json/plain" ∉ e.alreadySealedEncodings := by
  have passes : lib.field "failures" [failuresCheck e] = [] :=
    rule_passes collects accepted (by simp [rules])
  have check := check_passes collects passes
  unfold failuresCheck at check
  split at check
  · cases check
  · next enabled =>
    split at check
    · cases check
    · next listed =>
      simp only [failures, Bool.true_and, Bool.not_eq_true, Bool.not_eq_false',
        List.contains_eq_mem, decide_eq_false_iff_not] at enabled listed
      exact ⟨enabled, listed⟩

theorem validate_reserved (collects : lib.CollectsAll) (accepted : validate lib e = [])
    (policy : KeyPolicy) : (replicationKeyNamespace, policy) ∉ e.overrides := by
  intro member
  have reserved := (override_passes collects accepted member).1
  simp [notReservedNamespace] at reserved

end Accepted

section Sample

def sampleField (name : String) (checks : List Check) : Rule :=
  checks.reduceOption.map fun message => { field := name, message := message }

def sampleValidation : Validation where
  validate _ rules := rules.flatten
  whenRules on rules := if on then rules.flatten else []
  field := sampleField
  nested name errors := errors.map fun e => { e with subject := name ++ "." ++ e.subject }
  whenNested on name errors := if on then errors.map fun e => { e with subject := name } else []
  children name elements := elements.flatten.map fun e => { e with subject := name }
  childChecks := sampleField
  required missing := if missing then some "is required" else none
  gt _ bound n := if bound < n then none else some "too small"
  gte _ bound n := if bound ≤ n then none else some "too small"
  lt _ bound n := if n < bound then none else some "too large"

theorem sampleField_nil {name : String} {checks : List Check} (passed : sampleField name checks = []) :
    ∀ check ∈ checks, check = none := by
  simpa [sampleField, List.reduceOption, List.filterMap_eq_nil_iff] using passed

theorem sampleValidation_collects : sampleValidation.CollectsAll where
  validate _ rules passed := by simpa [sampleValidation] using passed
  field _ _ passed := sampleField_nil passed
  nested _ _ passed := List.map_eq_nil_iff.mp passed
  whenNested _ _ passed := List.map_eq_nil_iff.mp passed
  children _ elements passed := by simpa [sampleValidation] using passed
  childChecks _ _ passed := sampleField_nil passed

/-- The scheme of a URI in small letters, and what follows it. -/
def splitURI (raw : String) : List Char × List Char :=
  let (scheme, rest) := raw.toList.span (· ≠ ':')
  (scheme.map Char.toLower, rest)

def parseSample (raw : String) : Except String (String × String) :=
  match splitURI raw with
  | (scheme, ':' :: '/' :: '/' :: rest) =>
    .ok (String.ofList scheme, String.ofList (rest.takeWhile (· ≠ '/')))
  | _ => .error "missing protocol scheme"

def sampleLibrary : Library where
  toValidation := sampleValidation
  parseURI := parseSample
  defaultSchemes := ["awskms", "testing"]
  equalFold a b := a.toList.map Char.toLower == b.toList.map Char.toLower
  quote := id

end Sample

end EncryptionConfig
