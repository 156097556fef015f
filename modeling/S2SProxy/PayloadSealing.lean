import S2SProxy.FailureRoundTrip

/- Sealing the payloads of a message. Those that are already sealed are left alone; the others
   are encoded together and written back to their places. Payloads are objects here: what is
   left alone is the same object, and what an object holds is read from it. -/
namespace PayloadSealing
open FailureEncoding GatherScatter NodeChain
variable {ρ δ ε : Type}

/-- The encoding, key ID and DEK that an encrypted payload carries. -/
structure CarriesKey (p : Payload δ) : Prop where
  encoding : p.value .encoding = encryptionEncoding
  keyID : p.value .encryptionKeyID ≠ ""
  dek : p.value .encryptionDEK ≠ ""

/-- Encode keeps length and order and its results carry a key; Decode inverts it payload by
    payload. Encryption is not a function of what is encrypted, so that q is an encoding of p is
    a relation. -/
structure Encrypts (read : ρ → Payload δ) (c : CodecChain ρ ε) (encodes : ρ → ρ → Prop) : Prop where
  encode : ∀ todo done, c.encode todo = .ok done → List.Forall₂ encodes todo done
  carriesKey : ∀ p q, encodes p q → CarriesKey (read q)
  decode : ∀ qs rs, c.decode qs = .ok rs →
    List.Forall₂ (fun q r => ∀ p, encodes p q → read r = read p) qs rs
  opens : ∀ p q, encodes p q → ∃ r, c.decode [q] = .ok [r]

theorem CarriesKey.isSealed {p : Payload δ} (h : CarriesKey p) : isSealed p = true := by
  simp [FailureEncoding.isSealed, h.encoding, h.keyID, h.dek]

/- What has been sealed is not sealed again: it was so before, or carries a key now. -/
theorem becomes_sealed {read : ρ → Payload δ} {c : CodecChain ρ ε} {encodes : ρ → ρ → Prop}
    (encrypts : Encrypts read c encodes) {encodings : List String} {payloads out : List ρ}
    (becomes : List.Forall₂ (Becomes (fun p => alreadySealed encodings (read p)) encodes) payloads out) :
    ∀ q ∈ out, alreadySealed encodings (read q) = true := by
  intro q member
  obtain ⟨i, here⟩ := List.getElem?_of_mem member
  obtain ⟨p, _, became⟩ := forall₂_source becomes here
  cases sealed : alreadySealed encodings (read p) with
  | true =>
    obtain rfl := became.skipped sealed
    exact sealed
  | false =>
    have encoded := became.changed sealed
    simp [alreadySealed, (encrypts.carriesKey p q encoded).isSealed]

theorem sealing_is_selective_and_idempotent (read : ρ → Payload δ) (c : CodecChain ρ ε)
    (encodes : ρ → ρ → Prop) (encrypts : Encrypts read c encodes) (encodings : List String)
    (payloads out : List ρ)
    (ok : sealUnlessSealed (fun p => alreadySealed encodings (read p)) c payloads = .ok out) :
    out.length = payloads.length ∧
    (∀ (i : Nat) (p q : ρ), payloads[i]? = some p → out[i]? = some q →
      if alreadySealed encodings (read p) then q = p
      else encodes p q ∧ ∃ r, c.decode [q] = .ok [r] ∧ read r = read p) ∧
    (∀ q ∈ out, alreadySealed encodings (read q) = true) ∧
    sealUnlessSealed (fun p => alreadySealed encodings (read p)) c out = .ok out ∧
    ∀ rs, c.decode out = .ok rs → rs.length = payloads.length ∧
      ∀ (i : Nat) (p r : ρ), payloads[i]? = some p → rs[i]? = some r →
        alreadySealed encodings (read p) = false → read r = read p := by
  have becomes := seal_becomes encrypts.encode ok
  have sealedNow : ∀ q ∈ out, alreadySealed encodings (read q) = true := becomes_sealed encrypts becomes
  refine ⟨becomes.length_eq.symm, ?_, sealedNow, seal_sealed sealedNow, ?_⟩
  · intro i p q here there
    have became : Becomes (fun p => alreadySealed encodings (read p)) encodes p q :=
      forall₂_at becomes here there
    split
    · next sealed => exact became.skipped sealed
    · next plain =>
      have encoded : encodes p q := became.changed (Bool.eq_false_iff.mpr plain)
      obtain ⟨r, opened⟩ := encrypts.opens p q encoded
      have same := forall₂_at (encrypts.decode _ _ opened) (i := 0) rfl rfl
      exact ⟨encoded, r, opened, same p encoded⟩
  · intro rs opened
    have decoded := encrypts.decode out rs opened
    refine ⟨(becomes.length_eq.trans decoded.length_eq).symm, ?_⟩
    intro i p r here there plain
    obtain ⟨q, between, same⟩ := forall₂_source decoded there
    have became : Becomes (fun p => alreadySealed encodings (read p)) encodes p q :=
      forall₂_at becomes here between
    exact same p (became.changed plain)

section Sample

def sampleChain : CodecChain (Payload SampleData) Unit := sampleVault.chain

theorem sampleChain_encrypts : Encrypts id sampleChain fun p q => q = sampleEncode p := by
  have encoded (todo : List (Payload SampleData)) :
      todo.mapM sampleVault.encode = some (todo.map sampleEncode) :=
    mapM_some_iff.mpr (List.forall₂_map_right_iff.mpr (List.forall₂_same.mpr fun _ _ => rfl))
  refine ⟨?_, ?_, ?_, ?_⟩
  · intro todo done ok
    simp only [sampleChain, Codec.chain, encoded, Option.elim, Except.ok.injEq] at ok
    subst ok
    exact List.forall₂_map_right_iff.mpr (List.forall₂_same.mpr fun _ _ => rfl)
  · intro p q encoded
    subst encoded
    have keyID : (sampleEncode p).value .encryptionKeyID = "key" := rfl
    have dek : (sampleEncode p).value .encryptionDEK = "dek" := rfl
    exact ⟨rfl, by simp [keyID], by simp [dek]⟩
  · intro qs rs ok
    cases decoded : qs.mapM sampleVault.decode with
    | none => simp [sampleChain, Codec.chain, decoded] at ok
    | some found =>
      simp only [sampleChain, Codec.chain, decoded, Option.elim, Except.ok.injEq] at ok
      subst ok
      refine (mapM_some_iff.mp decoded).imp fun q r opened p encoded => ?_
      subst encoded
      exact Option.some.inj opened.symm
  · intro p q encoded
    subst encoded
    exact ⟨p, rfl⟩

def customerSealed : Payload SampleData :=
  ⟨(∅ : AList fun _ : MetadataKey => String).insert .encoding "binary/customer", .bytes "detail"⟩

end Sample

theorem three_payloads_sealed_once :
    let sealed := fun p : Payload SampleData => alreadySealed ["binary/customer"] (id p)
    let out := [customerSealed, sampleEncode plainDetail, sampleEncode plainDetail]
    sealUnlessSealed sealed sampleChain [customerSealed, plainDetail, sampleEncode plainDetail] = .ok out ∧
      sealUnlessSealed sealed sampleChain out = .ok out := by
  have first : sealUnlessSealed (fun p : Payload SampleData => alreadySealed ["binary/customer"] (id p))
      sampleChain [customerSealed, plainDetail, sampleEncode plainDetail] =
        .ok [customerSealed, sampleEncode plainDetail, sampleEncode plainDetail] := rfl
  exact ⟨first, (sealing_is_selective_and_idempotent id sampleChain _ sampleChain_encrypts
    ["binary/customer"] _ _ first).2.2.2.1⟩

end PayloadSealing
