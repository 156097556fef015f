import S2SProxy.FailureRoundTrip
import S2SProxy.EncryptionConfig

/- What the peer can tell about the text of a failure that was sealed for it: two failures that
   differ in their text only are sealed into failures that differ in sealed payloads only. -/
namespace FailureEncoding
open NodeChain
variable {δ : Type}

def encryptorConfig (cfg : EncryptionConfig.Config) (vault : Codec δ) (reverse : Bool) :
    EncryptorConfig δ where
  enabled := cfg.enabled
  vault := some vault
  reverse := reverse
  alreadySealedEncodings := cfg.alreadySealedEncodings
  encodeFailures := cfg.failures

/-- What the chain encodes carries the encryption encoding, the key id and the wrapped key. -/
def OutputsSealed (c : Codec δ) : Prop :=
  ∀ p q, c.encode p = some q → q.value .encoding = encryptionEncoding ∧
    q.value .encryptionKeyID ≠ "" ∧ q.value .encryptionDEK ≠ ""

/-- The nodes differ at most in the message and stack trace of a node without attributes. -/
structure SameButText (n n' : Node δ) : Prop where
  attributes : n.encodedAttributes = n'.encodedAttributes
  details : n.details = n'.details
  text : n.encodedAttributes ≠ none → n.message = n'.message ∧ n.stackTrace = n'.stackTrace

def SameOrSealed (p q : Payload δ) : Prop := p = q ∨ isSealed p = true ∧ isSealed q = true

structure SameForPeer (n n' : Node δ) : Prop where
  message : n.message = n'.message
  stackTrace : n.stackTrace = n'.stackTrace
  attributes : Option.Rel SameOrSealed n.encodedAttributes n'.encodedAttributes
  details : List.Forall₂ SameOrSealed n.details n'.details

/-- A node without attributes keeps its text in a sealed payload only. -/
def TextHidden (n n' : Node δ) : Prop :=
  n.encodedAttributes = none → n'.message = placeholder ∧ n'.stackTrace = "" ∧
    ∃ q, n'.encodedAttributes = some q ∧ isSealed q = true

section Nodes
variable {text : FailureText δ} {encodings : List String} {c c' : Codec δ}

theorem OutputsSealed.isSealed (h : OutputsSealed c) {p q : Payload δ} (encoded : c.encode p = some q) :
    isSealed q = true := by
  obtain ⟨encoding, keyID, dek⟩ := h p q encoded
  simp [FailureEncoding.isSealed, encoding, keyID, dek]

theorem sealOne_same (outputs : OutputsSealed c) (outputs' : OutputsSealed c') {p q q' : Payload δ}
    (sealed : sealOne encodings c p = some q) (sealed' : sealOne encodings c' p = some q') :
    SameOrSealed q q' := by
  unfold sealOne at sealed sealed'
  split at sealed
  · next already =>
    rw [if_pos already] at sealed'
    cases sealed
    cases sealed'
    exact .inl rfl
  · next notYet =>
    rw [if_neg notYet] at sealed'
    exact .inr ⟨outputs.isSealed sealed, outputs'.isSealed sealed'⟩

theorem mapM_sealOne_same (outputs : OutputsSealed c) (outputs' : OutputsSealed c')
    {ps qs qs' : List (Payload δ)} (sealed : ps.mapM (sealOne encodings c) = some qs)
    (sealed' : ps.mapM (sealOne encodings c') = some qs') : List.Forall₂ SameOrSealed qs qs' := by
  rw [mapM_some_iff] at sealed sealed'
  induction sealed generalizing qs' with
  | nil =>
    cases sealed'
    exact .nil
  | cons here later ih =>
    obtain _ | ⟨here', later'⟩ := sealed'
    exact .cons (sealOne_same outputs outputs' here here') (ih later')

/- The encoding of a failure's text does not pass as sealed. -/
theorem sealOne_marked (outputs : OutputsSealed c) (unlisted : "json/plain" ∉ encodings) {d : δ}
    {q : Payload δ} (sealed : sealOne encodings c (markedAttributes d) = some q) :
    isSealed q = true := by
  have notYet : ¬alreadySealed encodings (markedAttributes d) = true := by
    have encoding : (markedAttributes d).value .encoding = "json/plain" := rfl
    simp [alreadySealed, marked_plain, encoding, unlisted]
  rw [sealOne, if_neg notYet] at sealed
  exact outputs.isSealed sealed

theorem SealedAs.same_for_peer (outputs : OutputsSealed c) (outputs' : OutputsSealed c')
    (unlisted : "json/plain" ∉ encodings) {n n' m m' : Node δ} (same : SameButText n n')
    (h : SealedAs text encodings c n m) (h' : SealedAs text encodings c' n' m') :
    SameForPeer m m' := by
  obtain ⟨attributes, details, sameText⟩ := same
  cases h with
  | kept sealed rest =>
    cases h' with
    | kept sealed' rest' =>
      cases attributes
      cases details
      obtain ⟨message, stackTrace⟩ := sameText nofun
      exact ⟨message, stackTrace, .some (sealOne_same outputs outputs' sealed sealed'),
        mapM_sealOne_same outputs outputs' rest rest'⟩
    | encoded => cases attributes
  | encoded written sealed rest =>
    cases h' with
    | kept => cases attributes
    | encoded written' sealed' rest' =>
      cases details
      refine ⟨rfl, rfl, .some (.inr ?_), mapM_sealOne_same outputs outputs' rest rest'⟩
      exact ⟨sealOne_marked outputs unlisted sealed, sealOne_marked outputs' unlisted sealed'⟩

theorem SealedAs.hides (outputs : OutputsSealed c) (unlisted : "json/plain" ∉ encodings)
    {n m : Node δ} (h : SealedAs text encodings c n m) : TextHidden n m := by
  intro none_yet
  cases h with
  | kept => cases none_yet
  | encoded written sealed rest =>
    exact ⟨rfl, rfl, _, rfl, sealOne_marked outputs unlisted sealed⟩

end Nodes

theorem sealed_failures_hide_text (lib : EncryptionConfig.Library) (collects : lib.CollectsAll)
    (cfg : EncryptionConfig.Config) (accepted : EncryptionConfig.validate lib cfg = [])
    (enabled : cfg.enabled = true)
    (failures : cfg.failures = true) (text : FailureText δ) (c c' : Codec δ)
    (outputs : OutputsSealed c) (outputs' : OutputsSealed c') (reverse reverse' : Bool)
    (crosses crosses' : Failure δ → Option (Failure δ))
    (seals : Seals text (encryptorConfig cfg c reverse) crosses)
    (seals' : Seals text (encryptorConfig cfg c' reverse') crosses') (t t' : Failure δ)
    (same : Related SameButText t t') (u u' : Failure δ) (sealed : crosses t = some u)
    (sealed' : crosses' t' = some u') :
    Related SameForPeer u u' ∧ Related TextHidden t u ∧ Related TextHidden t' u' := by
  obtain ⟨-, unlisted⟩ := EncryptionConfig.validate_failures collects accepted failures
  rw [seals.visits enabled rfl failures] at sealed
  rw [seals'.visits enabled rfl failures] at sealed'
  refine ⟨?_, ?_, ?_⟩
  · refine visit_related (fun n n' m m' alike h h' => ?_) same sealed sealed'
    exact (sealNode_inv h).same_for_peer outputs outputs' unlisted alike (sealNode_inv h')
  · exact (visit_pairs sealed).mono fun n m h => (sealNode_inv h).hides outputs unlisted
  · exact (visit_pairs sealed').mono fun n m h => (sealNode_inv h).hides outputs' unlisted

section Samples

def sampleEncryption : EncryptionConfig.Config where
  enabled := true
  failures := true
  namespaceBinding := "off"
  cacheSize := 0
  default := some { uri := "testing://key", decryptURIs := [], duration := 2, renewBefore := 1 }
  overrides := []
  replication := none
  alreadySealedEncodings := ["binary/customer-encrypted"]

theorem sampleVault_outputs : OutputsSealed sampleVault := by
  rintro p q ⟨⟩
  have keyID : (sampleEncode p).value .encryptionKeyID = "key" := rfl
  have dek : (sampleEncode p).value .encryptionDEK = "dek" := rfl
  exact ⟨rfl, by simp [keyID], by simp [dek]⟩

def causedFailure (message cause : String) : Failure SampleData :=
  .link ⟨message, "main", none, [plainDetail]⟩ (.last ⟨cause, "run", none, []⟩)

end Samples

theorem sealed_failures_hide_two_texts :
    EncryptionConfig.validate EncryptionConfig.sampleLibrary sampleEncryption = [] ∧
      ∃ crosses u u', Seals sampleText (encryptorConfig sampleEncryption sampleVault false) crosses ∧
        crosses (causedFailure "denied" "no quota") = some u ∧
        crosses (causedFailure "lost" "timed out") = some u' ∧ Related SameForPeer u u' := by
  have accepted : EncryptionConfig.validate EncryptionConfig.sampleLibrary sampleEncryption = [] := by
    decide +kernel
  have same : Related SameButText (causedFailure "denied" "no quota") (causedFailure "lost" "timed out") :=
    .link ⟨rfl, rfl, fun some_ => absurd rfl some_⟩ (.last ⟨rfl, rfl, fun some_ => absurd rfl some_⟩)
  refine ⟨accepted, _, _, _, .request rfl rfl, rfl, rfl, ?_⟩
  exact (sealed_failures_hide_text EncryptionConfig.sampleLibrary
    EncryptionConfig.sampleValidation_collects sampleEncryption accepted rfl rfl sampleText
    sampleVault sampleVault sampleVault_outputs sampleVault_outputs false false _ _
    (.request rfl rfl) (.request rfl rfl) _ _ same _ _ rfl rfl).1

end FailureEncoding
