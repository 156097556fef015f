import S2SProxy.FailureEncoding

/- A failure sealed in one direction and opened in the other comes back as it was, but for the
   payloads of its failure info that were sealed before: those are not sealed again, and they
   arrive opened. -/
namespace FailureEncoding
open GatherScatter NodeChain
variable {δ ρ ε : Type}

def sealOne (encodings : List String) (c : Codec δ) (p : Payload δ) : Option (Payload δ) :=
  if alreadySealed encodings p then some p else c.encode p

section Sealed
variable {sealed : ρ → Bool} {c : CodecChain ρ ε} {encodes : ρ → ρ → Prop} {payloads out : List ρ}

theorem seal_sealed (all : ∀ p ∈ payloads, sealed p = true) :
    sealUnlessSealed sealed c payloads = .ok payloads := by
  have none := (gather_empty_iff payloads).mpr all
  simp [sealUnlessSealed, none]

theorem some_gathered (open_ : ¬∀ p ∈ payloads, sealed p = true) :
    (gather sealed 0 payloads).2.length ≠ 0 := by
  rw [ne_eq, List.length_eq_zero_iff, gather_empty_iff]
  exact open_

theorem seal_becomes (encode : ∀ todo done, c.encode todo = .ok done → List.Forall₂ encodes todo done)
    (ok : sealUnlessSealed sealed c payloads = .ok out) :
    List.Forall₂ (Becomes sealed encodes) payloads out := by
  by_cases all : ∀ p ∈ payloads, sealed p = true
  · obtain rfl : payloads = out := Except.ok.inj ((seal_sealed all).symm.trans ok)
    exact List.forall₂_same.mpr fun p member => by simp [Becomes, all p member]
  · simp only [sealUnlessSealed, some_gathered all, ↓reduceIte] at ok
    split at ok
    · cases ok
    · next done encoded =>
      obtain ⟨written, scattered, becomes⟩ := scatter_gather (encode _ _ encoded)
      rw [scattered] at ok
      exact Except.ok.inj ok ▸ becomes

end Sealed

theorem sealOne_becomes {encodings : List String} {c : Codec δ} {p q : Payload δ} :
    sealOne encodings c p = some q ↔
      Becomes (alreadySealed encodings) (fun p q => c.encode p = some q) p q := by
  cases sealed : alreadySealed encodings p <;> simp [sealOne, Becomes, sealed, eq_comm]

/- Where every payload is sealed, those that were gathered are encoded. -/
theorem todo_encoded {encodings : List String} {c : Codec δ} {payloads out : List (Payload δ)}
    (sealed : payloads.mapM (sealOne encodings c) = some out) :
    ∃ done, (payloads.filter fun p => !alreadySealed encodings p).mapM c.encode = some done := by
  induction mapM_some_iff.mp sealed with
  | nil => exact ⟨[], rfl⟩
  | @cons p q payloads out here later ih =>
    obtain ⟨done, encoded⟩ := ih (mapM_some_iff.mpr later)
    cases skipped : alreadySealed encodings p with
    | true => exact ⟨done, by simp [skipped, encoded]⟩
    | false =>
      have changed : c.encode p = some q := (sealOne_becomes.mp here).changed skipped
      exact ⟨q :: done, by simp [skipped, changed, encoded]⟩

theorem sealAll_eq (encodings : List String) (c : Codec δ) (payloads : List (Payload δ)) :
    sealAll encodings c payloads = payloads.mapM (sealOne encodings c) := by
  by_cases all : ∀ p ∈ payloads, alreadySealed encodings p = true
  · rw [sealAll, seal_sealed all, eq_comm]
    refine mapM_some_iff.mpr (List.forall₂_same.mpr fun p member => ?_)
    simp [sealOne, all p member]
  · simp only [sealAll, sealUnlessSealed, some_gathered all, ↓reduceIte, Codec.chain]
    cases encoded : (gather (alreadySealed encodings) 0 payloads).2.mapM c.encode with
    | none =>
      cases sealed : payloads.mapM (sealOne encodings c) with
      | none => rfl
      | some out =>
        obtain ⟨done, other⟩ := todo_encoded sealed
        rw [← gather_todo, encoded] at other
        cases other
    | some done =>
      obtain ⟨out, scattered, becomes⟩ := scatter_gather (mapM_some_iff.mp encoded)
      have sealedOne : payloads.mapM (sealOne encodings c) = some out :=
        mapM_some_iff.mpr (becomes.imp fun p q became => sealOne_becomes.mpr became)
      simp [scattered, sealedOne, Except.toOption]

theorem decodeAll_eq (c : Codec δ) (payloads : List (Payload δ)) :
    decodeAll c payloads = payloads.mapM c.decode := by
  simp only [decodeAll, Codec.chain]
  cases payloads.mapM c.decode <;> rfl

def sealNode (text : FailureText δ) (encodings : List String) (c : Codec δ) (n : Node δ) :
    Option (Node δ) :=
  (encodeFailure text n).bind (visitNodePayloads (sealAll encodings c))

def openNode (text : FailureText δ) (c : Codec δ) (n : Node δ) : Option (Node δ) :=
  (visitNodePayloads (decodeAll c) n).bind (restoreFailure text)

section Directions
variable {text : FailureText δ} {cfg : EncryptorConfig δ} {c : Codec δ}
variable {crosses : Failure δ → Option (Failure δ)}

/- Wherever a configuration seals, it encodes the failure before it seals the payloads. -/
theorem Seals.visits (seals : Seals text cfg crosses) (enabled : cfg.enabled = true)
    (vault : cfg.vault = some c) (encodes : cfg.encodeFailures = true) (t : Failure δ) :
    crosses t = visit (sealNode text cfg.alreadySealedEncodings c) t := by
  cases seals with
  | request built direction | response built direction =>
    simp only [newEncryptor, enabled, vault, encodes, direction, Option.isNone_some, Bool.and_false,
      Bool.not_true, Bool.false_eq_true, ↓reduceIte, Except.ok.injEq] at built
    cases built
    exact visit_visit _ _ t
  | adminRequest built direction | adminReply built direction | adminError built direction =>
    simp only [newAdminEncryptor, enabled, vault, encodes, direction, Option.isNone_some,
      Option.map_some, Bool.and_false, Bool.not_true, Bool.false_eq_true, ↓reduceIte,
      Except.ok.injEq] at built
    cases built
    exact visit_visit _ _ t

/- Wherever a configuration opens, it opens the payloads before it restores the failure. -/
theorem Opens.visits (opens : Opens text cfg crosses) (vault : cfg.vault = some c) (t : Failure δ) :
    crosses t = visit (openNode text c) t := by
  cases opens with
  | request built direction | response built direction =>
    rw [newEncryptor] at built
    split at built
    · cases built
    · split at built
      · cases built
      · simp only [vault, direction, Bool.false_eq_true, ↓reduceIte, Except.ok.injEq] at built
        cases built
        exact visit_visit _ _ t
  | adminRequest built direction | adminReply built direction | adminError built direction =>
    rw [newAdminEncryptor] at built
    split at built
    · cases built
    · split at built
      · cases built
      · simp only [vault, direction, Option.map_some, Bool.false_eq_true, ↓reduceIte,
          Except.ok.injEq] at built
        cases built
        exact visit_visit _ _ t

end Directions

/-- What is sealed for the peer, the peer opens. -/
def Inverts (c c' : Codec δ) : Prop := ∀ p q, c.encode p = some q → c'.decode q = some p

/-- What is not one of the proxy's sealed payloads passes through. -/
def LeavesUnsealed (c : Codec δ) : Prop := ∀ p, isSealed p = false → c.decode p = some p

/-- No encoded attributes that carry the proxy's marker or are already sealed. -/
def PlainAttributes (n : Node δ) : Prop :=
  ∀ p ∈ n.encodedAttributes, p.value .encodedFailureMarker = "" ∧ isSealed p = false

def PlainDetails (n : Node δ) : Prop := ∀ p ∈ n.details, isSealed p = false

def openDetails (c : Codec δ) (n : Node δ) : Option (Node δ) :=
  (decodeAll c n.details).map fun details => { n with details := details }

section Nodes
variable {text : FailureText δ} {encodings : List String} {c c' : Codec δ}

theorem decode_sealed (inverts : Inverts c c') (leaves : LeavesUnsealed c') {p q : Payload δ}
    (sealed : sealOne encodings c p = some q) : c'.decode q = c'.decode p := by
  unfold sealOne at sealed
  split at sealed
  · cases sealed
    rfl
  · next notSealed =>
    have plain : isSealed p = false := by
      cases ours : isSealed p with
      | false => rfl
      | true => exact absurd (by simp [alreadySealed, ours]) notSealed
    rw [leaves p plain, inverts p q sealed]

theorem decodeAll_sealed (inverts : Inverts c c') (leaves : LeavesUnsealed c')
    {ps qs : List (Payload δ)} (sealed : ps.mapM (sealOne encodings c) = some qs) :
    decodeAll c' qs = decodeAll c' ps := by
  rw [mapM_some_iff] at sealed
  rw [decodeAll_eq, decodeAll_eq]
  induction sealed with
  | nil => rfl
  | cons here later ih => rw [List.mapM_cons, List.mapM_cons, decode_sealed inverts leaves here, ih]

theorem visitAttributes_mapM (f : Payload δ → Option (Payload δ)) (p : Payload δ) :
    visitAttributes (fun ps => ps.mapM f) (some p) = (f p).map some := by
  cases result : f p <;> simp [visitAttributes, result]

theorem visitNodePayloads_some {visitor : List (Payload δ) → Option (List (Payload δ))}
    {n n' : Node δ} : visitNodePayloads visitor n = some n' ↔ ∃ attributes details,
      visitAttributes visitor n.encodedAttributes = some attributes ∧
      visitor n.details = some details ∧
      n' = { n with encodedAttributes := attributes, details := details } := by
  cases first : visitAttributes visitor n.encodedAttributes <;>
    cases second : visitor n.details <;> simp [visitNodePayloads, first, second, eq_comm]

/-- What sealing makes of a node: its own attributes are sealed, or else its text becomes
    attributes that are. -/
inductive SealedAs (text : FailureText δ) (encodings : List String) (c : Codec δ) :
    Node δ → Node δ → Prop where
  | kept {message stackTrace p q details details'} (sealed : sealOne encodings c p = some q)
      (rest : details.mapM (sealOne encodings c) = some details') :
      SealedAs text encodings c ⟨message, stackTrace, some p, details⟩
        ⟨message, stackTrace, some q, details'⟩
  | encoded {message stackTrace d q details details'}
      (written : text.marshal message stackTrace = some d)
      (sealed : sealOne encodings c (markedAttributes d) = some q)
      (rest : details.mapM (sealOne encodings c) = some details') :
      SealedAs text encodings c ⟨message, stackTrace, none, details⟩
        ⟨placeholder, "", some q, details'⟩

theorem sealNode_inv {n n' : Node δ} (h : sealNode text encodings c n = some n') :
    SealedAs text encodings c n n' := by
  obtain ⟨m, encodes, visited⟩ := Option.bind_eq_some_iff.mp h
  have oneByOne : sealAll encodings c = fun ps => ps.mapM (sealOne encodings c) :=
    funext (sealAll_eq encodings c)
  rw [oneByOne] at visited
  obtain ⟨attributes, details', sealed, rest, rfl⟩ := visitNodePayloads_some.mp visited
  obtain ⟨message, stackTrace, encodedAttributes, details⟩ := n
  cases encodedAttributes with
  | some p =>
    cases encodes
    rw [visitAttributes_mapM] at sealed
    obtain ⟨q, result, rfl⟩ := Option.map_eq_some_iff.mp sealed
    exact .kept result rest
  | none =>
    cases written : text.marshal message stackTrace with
    | none => simp [encodeFailure, written] at encodes
    | some d =>
      simp only [encodeFailure, written, Option.some.injEq] at encodes
      subst encodes
      rw [visitAttributes_mapM] at sealed
      obtain ⟨q, result, rfl⟩ := Option.map_eq_some_iff.mp sealed
      exact .encoded written result rest

theorem openNode_attributes {message stackTrace : String} {p q : Payload δ}
    {details : List (Payload δ)} (opened : c'.decode q = some p) :
    openNode text c' ⟨message, stackTrace, some q, details⟩ =
      (decodeAll c' details).bind fun opens =>
        restoreFailure text ⟨message, stackTrace, some p, opens⟩ := by
  have attributes : visitAttributes (decodeAll c') (some q) = some (some p) := by
    rw [funext (decodeAll_eq c'), visitAttributes_mapM, opened]
    rfl
  cases result : decodeAll c' details <;> simp [openNode, visitNodePayloads, attributes, result]

theorem marked_plain (d : δ) : isSealed (markedAttributes d) = false := rfl

theorem restore_marked {message stackTrace : String} {d : δ}
    (readable : text.unmarshal d = some (message, stackTrace)) (details : List (Payload δ)) :
    restoreFailure text ⟨placeholder, "", some (markedAttributes d), details⟩ =
      some ⟨message, stackTrace, none, details⟩ := by
  have marker : (markedAttributes d).value .encodedFailureMarker = "true" := rfl
  have encoding : (markedAttributes d).value .encoding = "json/plain" := rfl
  have written : text.unmarshal (markedAttributes d).data = some (message, stackTrace) := readable
  simp [restoreFailure, marker, encoding, written]

/- A node that was sealed opens to itself, with its failure info's payloads opened. -/
theorem SealedAs.opens (inverts : Inverts c c') (leaves : LeavesUnsealed c') {n n' : Node δ}
    (plain : PlainAttributes n) (h : SealedAs text encodings c n n') :
    openNode text c' n' = openDetails c' n := by
  cases h with
  | kept sealed rest =>
    obtain ⟨unmarked, notSealed⟩ := plain _ rfl
    have opened := (decode_sealed inverts leaves sealed).trans (leaves _ notSealed)
    rw [openNode_attributes opened, decodeAll_sealed inverts leaves rest, openDetails]
    cases decodeAll c' _ <;> simp [restoreFailure, unmarked]
  | encoded written sealed rest =>
    have opened := (decode_sealed inverts leaves sealed).trans (leaves _ (marked_plain _))
    have readable := text.reads_back _ _ _ written
    rw [openNode_attributes opened, decodeAll_sealed inverts leaves rest, openDetails]
    simp only [restore_marked readable]
    cases decodeAll c' _ <;> rfl

theorem openDetails_plain (leaves : LeavesUnsealed c') (n : Node δ) (plain : PlainDetails n) :
    openDetails c' n = some n := by
  have same : decodeAll c' n.details = some n.details := by
    rw [decodeAll_eq, mapM_some_iff, List.forall₂_same]
    exact fun p member => leaves p (plain p member)
  rw [openDetails, same]
  rfl

theorem sealNode_total (writes : ∀ message stackTrace, ∃ d, text.marshal message stackTrace = some d)
    (encrypts : ∀ p, ∃ q, c.encode p = some q) (n : Node δ) :
    ∃ n', sealNode text encodings c n = some n' := by
  have one : ∀ p, ∃ q, sealOne encodings c p = some q := by
    intro p
    unfold sealOne
    split
    · exact ⟨p, rfl⟩
    · exact encrypts p
  obtain ⟨m, encodes⟩ : ∃ m, encodeFailure text n = some m := by
    unfold encodeFailure
    split
    · exact ⟨n, rfl⟩
    · obtain ⟨d, written⟩ := writes n.message n.stackTrace
      simp [written]
  obtain ⟨attributes, sealed⟩ : ∃ attributes, visitAttributes
      (fun ps => ps.mapM (sealOne encodings c)) m.encodedAttributes = some attributes := by
    cases m.encodedAttributes with
    | none => exact ⟨none, rfl⟩
    | some p =>
      obtain ⟨q, result⟩ := one p
      exact ⟨some q, by rw [visitAttributes_mapM, result]; rfl⟩
  obtain ⟨details, rest⟩ := mapM_total one m.details
  refine ⟨{ m with encodedAttributes := attributes, details := details }, ?_⟩
  rw [sealNode, encodes, funext (sealAll_eq encodings c)]
  exact visitNodePayloads_some.mpr ⟨attributes, details, sealed, rest, rfl⟩

end Nodes

theorem failures_survive_round_trip (text : FailureText δ) (c c' : Codec δ)
    (inverts : Inverts c c') (leaves : LeavesUnsealed c') (cfg cfg' : EncryptorConfig δ)
    (enabled : cfg.enabled = true) (vault : cfg.vault = some c) (encodes : cfg.encodeFailures = true)
    (vault' : cfg'.vault = some c') (crosses arrives : Failure δ → Option (Failure δ))
    (seals : Seals text cfg crosses) (opens : Opens text cfg' arrives) (t : Failure δ)
    (plain : All PlainAttributes t) :
    (∀ t', crosses t = some t' → arrives t' = visit (openDetails c') t ∧
      (All PlainDetails t → arrives t' = some t)) ∧
    ((∀ message stackTrace, ∃ d, text.marshal message stackTrace = some d) →
      (∀ p, ∃ q, c.encode p = some q) → ∃ t', crosses t = some t') := by
  refine ⟨fun t' sealed => ?_, fun writes encrypts => ?_⟩
  · rw [seals.visits enabled vault encodes] at sealed
    have opened : arrives t' = visit (openDetails c') t := by
      rw [opens.visits vault']
      exact visit_then (fun n n' plain h => (sealNode_inv h).opens inverts leaves plain) plain sealed
    exact ⟨opened, fun details => opened.trans (visit_same (openDetails_plain leaves) details)⟩
  · rw [seals.visits enabled vault encodes]
    exact visit_total (sealNode_total writes encrypts) t

section Samples

inductive SampleData where
  | text (message stackTrace : String)
  | bytes (content : String)
  | sealed (metadata : AList fun _ : MetadataKey => String) (data : SampleData)

def sampleText : FailureText SampleData where
  marshal message stackTrace := some (.text message stackTrace)
  unmarshal
    | .text message stackTrace => some (message, stackTrace)
    | _ => none
  reads_back := by
    rintro message stackTrace d ⟨⟩
    rfl

def sampleEncode (p : Payload SampleData) : Payload SampleData where
  metadata := (((∅ : AList fun _ : MetadataKey => String).insert .encoding encryptionEncoding).insert
    .encryptionKeyID "key").insert .encryptionDEK "dek"
  data := .sealed p.metadata p.data

def sampleVault : Codec SampleData where
  encode p := some (sampleEncode p)
  decode p :=
    match isSealed p, p.data with
    | true, .sealed metadata data => some ⟨metadata, data⟩
    | true, _ => none
    | false, _ => some p

theorem sampleVault_inverts : Inverts sampleVault sampleVault := by
  rintro p q ⟨⟩
  rfl

theorem sampleVault_leaves : LeavesUnsealed sampleVault := by
  intro p plain
  simp [sampleVault, plain]

def sampleConfig (reverse : Bool) : EncryptorConfig SampleData where
  enabled := true
  vault := some sampleVault
  reverse := reverse
  alreadySealedEncodings := []
  encodeFailures := true

/-- A failure caused by one that has attributes of its own, with one detail. -/
def sampleFailure (detail : Payload SampleData) : Failure SampleData :=
  .link ⟨"workflow failed", "main", none, [detail]⟩
    (.last ⟨placeholder, "", some ⟨∅, .bytes "attributes"⟩, []⟩)

def plainDetail : Payload SampleData := ⟨∅, .bytes "detail"⟩

theorem sampleFailure_attributes (detail : Payload SampleData) :
    All PlainAttributes (sampleFailure detail) := by
  refine ⟨nofun, ?_⟩
  rintro p ⟨⟩
  exact ⟨rfl, rfl⟩

end Samples

theorem failure_survives_with_plain_detail :
    ∃ crosses arrives t', Seals sampleText (sampleConfig false) crosses ∧
      Opens sampleText (sampleConfig true) arrives ∧
      crosses (sampleFailure plainDetail) = some t' ∧
      arrives t' = some (sampleFailure plainDetail) := by
  refine ⟨_, _, _, .request rfl rfl, .request rfl rfl, rfl, ?_⟩
  have details : All PlainDetails (sampleFailure plainDetail) := by
    refine ⟨fun p member => ?_, nofun⟩
    cases List.mem_singleton.mp member
    rfl
  exact ((failures_survive_round_trip sampleText sampleVault sampleVault sampleVault_inverts
    sampleVault_leaves (sampleConfig false) (sampleConfig true) rfl rfl rfl rfl _ _
    (.request rfl rfl) (.request rfl rfl) (sampleFailure plainDetail)
    (sampleFailure_attributes plainDetail)).1 _ rfl).2 details

theorem sealed_detail_arrives_opened :
    Inverts sampleVault sampleVault ∧ LeavesUnsealed sampleVault ∧
      All PlainAttributes (sampleFailure (sampleEncode plainDetail)) ∧
      ∃ crosses arrives, Seals sampleText (sampleConfig false) crosses ∧
        Opens sampleText (sampleConfig true) arrives ∧
        (crosses (sampleFailure (sampleEncode plainDetail))).bind arrives =
          some (sampleFailure plainDetail) ∧
        sampleFailure plainDetail ≠ sampleFailure (sampleEncode plainDetail) := by
  refine ⟨sampleVault_inverts, sampleVault_leaves, sampleFailure_attributes _, _, _,
    .request rfl rfl, .request rfl rfl, rfl, fun same => ?_⟩
  simp [sampleFailure, plainDetail, sampleEncode] at same

end FailureEncoding
