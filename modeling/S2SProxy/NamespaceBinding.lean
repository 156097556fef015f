import S2SProxy.FailureRoundTrip
import S2SProxy.TranslationReversal
import S2SProxy.VaultKeys

/- Sealed payloads are bound to a namespace. A cipher seals under the label that its binder gives
   and expects that label when it opens; a vault whose binding is strict refuses a payload that is
   bound to another label, or to none. What is counted while the binding is permissive is exactly
   what a strict binding would refuse. -/
namespace NamespaceBinding
open BiMap FailureEncoding GatherScatter NamespaceTranslation
open VaultKeys (BindingMode)
open EncryptionConfig (replicationKeyNamespace)
variable {ε δ : Type}

structure Message (δ : Type) where
  keyID : String
  dek : String
  bound : Bool
  boundTo : String
  data : δ

/-- crypto.Vault: Seal under the key of a namespace, with a label if there is one, and Open, with
    the label that is expected if there is one. -/
structure Vault (ε δ : Type) where
  sealData : String → δ → Option String → Except ε (Message δ)
  openMessage : Message δ → Option String → Except ε δ

structure Context where
  namespaceID : Option String
  stamped : Option String

structure Binding where
  label : String
  check : Bool
  ns : String

inductive Report where
  | unboundOpen (ns : String)
  | namespaceMismatch (ns : String)
  | unresolvedNamespace (id : String)
  deriving DecidableEq

inductive CipherError (ε : Type) where
  | unresolved (id : String) (err : ε)
  | vault (err : ε)
  | unreadable

abbrev Reported (ε α : Type) := Except (CipherError ε) α × List Report

abbrev Binder (ε : Type) := Context → String → Reported ε Binding

def labelBinder (label : Option (String → String)) : Option (Binder ε) :=
  label.map fun label _ ns => (.ok ⟨label ns, true, ns⟩, [])

/-- The key namespace stays in place and nothing is compared. -/
def unchecked (ns : String) : Binding := ⟨"", false, ns⟩

def boundBy (label : Option (String → String)) (name : String) : Binding :=
  match label with
  | none => ⟨name, true, name⟩
  | some label => ⟨label name, true, name⟩

def namespaceBinder (names : Option (String → Except ε String)) (label : Option (String → String))
    (strict : Bool) : Option (Binder ε) :=
  names.map fun localName ctx ns =>
    let id := ctx.namespaceID.getD ""
    if id = "" then
      let stamped := ctx.stamped.getD ""
      if stamped ≠ "" then (.ok (boundBy label stamped), []) else (.ok (unchecked ns), [])
    else
      match localName id with
      | .error err =>
        if strict then (.error (.unresolved id err), [.unresolvedNamespace id])
        else (.ok (unchecked ns), [.unresolvedNamespace id])
      | .ok name => (.ok (boundBy label name), [])

structure Cipher (ε δ : Type) where
  ctx : Context
  ns : String
  bind : Option (Binder ε)
  v : Vault ε δ

def Cipher.binding (c : Cipher ε δ) : Reported ε Binding :=
  match c.bind with
  | none => (.ok (unchecked c.ns), [])
  | some bind => bind c.ctx c.ns

def Binding.checked (b : Binding) : Option String := if b.check then some b.label else none

def Cipher.encrypt (c : Cipher ε δ) (data : δ) : Reported ε (Message δ) :=
  match c.binding with
  | (.error err, reports) => (.error err, reports)
  | (.ok b, reports) => ((c.v.sealData c.ns data b.checked).mapError .vault, reports)

def observed (b : Binding) (m : Message δ) : List Report :=
  if !m.bound then [.unboundOpen b.ns]
  else if b.check && m.boundTo ≠ b.label then [.namespaceMismatch b.ns]
  else []

def Cipher.decrypt (c : Cipher ε δ) (m : Message δ) : Reported ε δ :=
  match c.binding with
  | (.error err, reports) => (.error err, reports)
  | (.ok b, reports) => ((c.v.openMessage m b.checked).mapError .vault, reports ++ observed b m)

def each {ε' α γ : Type} (f : α → Except ε' γ) : List α → Except ε' (List γ)
  | [] => .ok []
  | x :: rest =>
    match f x with
    | .error err => .error err
    | .ok y =>
      match each f rest with
      | .error err => .error err
      | .ok done => .ok (y :: done)

theorem each_ok {ε' α γ : Type} {f : α → Except ε' γ} {xs : List α} {ys : List γ} :
    each f xs = .ok ys ↔ List.Forall₂ (fun x y => f x = .ok y) xs ys := by
  induction xs generalizing ys with
  | nil => simp [each, eq_comm]
  | cons x rest ih =>
    rw [each, List.forall₂_cons_left_iff]
    cases first : f x with
    | error err => simp
    | ok y =>
      cases others : each f rest with
      | error err =>
        rw [others] at ih
        simp [← ih]
      | ok done =>
        rw [others] at ih
        simp [← ih, eq_comm]

/-- The codec package: a payload as data and back, a sealed message as a payload and back, and the
    chain of a cipher. -/
structure CodecLibrary (ε δ : Type) where
  marshal : Payload δ → δ
  unmarshal : δ → Option (Payload δ)
  toPayload : Message δ → Payload δ
  fromPayload : Payload δ → Message δ
  encode : (δ → Reported ε (Message δ)) → List (Payload δ) → Reported ε (List (Payload δ))
  decode : (Message δ → Reported ε δ) → List (Payload δ) → Reported ε (List (Payload δ))

section Codec
variable (lib : CodecLibrary ε δ)

/-- codec.NewChain of the cipher; the observers aside. -/
def chain (c : Cipher ε δ) : CodecChain (Payload δ) (CipherError ε) where
  encode := fun ps => (lib.encode c.encrypt ps).1
  decode := fun qs => (lib.decode c.decrypt qs).1

/-- What visitPayloads does with payloads that are to be sealed. -/
def sealPayloads (c : Cipher ε δ) (encodings : List String) (payloads : List (Payload δ)) :
    Except (SealError (CipherError ε)) (List (Payload δ)) :=
  sealUnlessSealed (alreadySealed encodings) (chain lib c) payloads

/-- What it does with those that are to be opened, with what the observers are told. -/
def openPayloads (c : Cipher ε δ) (payloads : List (Payload δ)) : Reported ε (List (Payload δ)) :=
  lib.decode c.decrypt payloads

def Encoded (encrypt : δ → Reported ε (Message δ)) (p q : Payload δ) : Prop :=
  ∃ m, (encrypt (lib.marshal p)).1 = .ok m ∧ q = lib.toPayload m

/-- The second payload is the first one, decrypted; one that is not sealed is left alone. -/
def Decoded (decrypt : Message δ → Reported ε δ) (q p : Payload δ) : Prop :=
  if isSealed q then ∃ data, (decrypt (lib.fromPayload q)).1 = .ok data ∧ lib.unmarshal data = some p
  else p = q

/-- What the codec package is relied on for. A chain's Encode and Decode keep length and order, and
    Decode asks the cipher only for payloads that are sealed: what it returns is determined by the
    answers, and what is reported is what the cipher reports. -/
structure LawfulCodec : Prop where
  unmarshal : ∀ p, lib.unmarshal (lib.marshal p) = some p
  fromPayload : ∀ m, lib.fromPayload (lib.toPayload m) = m
  sealed : ∀ m : Message δ, m.keyID ≠ "" → m.dek ≠ "" → isSealed (lib.toPayload m) = true
  encode : ∀ encrypt ps qs, (lib.encode encrypt ps).1 = .ok qs → List.Forall₂ (Encoded lib encrypt) ps qs
  decode : ∀ decrypt qs ps,
    (lib.decode decrypt qs).1 = .ok ps ↔ List.Forall₂ (Decoded lib decrypt) qs ps
  asks : ∀ decrypt qs, ∃ asked : List (Message δ),
    (∀ m ∈ asked, ∃ q ∈ qs, isSealed q = true ∧ lib.fromPayload q = m) ∧
    (lib.decode decrypt qs).2 = asked.flatMap (fun m => (decrypt m).2) ∧
    ∀ decrypt', (∀ m ∈ asked, (decrypt' m).1 = (decrypt m).1) →
      (lib.decode decrypt' qs).1 = (lib.decode decrypt qs).1

end Codec

/-- The message is bound, and to the label that is expected. -/
def BoundAs (m : Message δ) (expected : Option String) : Prop :=
  m.bound = true ∧ ∀ label, expected = some label → m.boundTo = label

instance decidableBoundAs (m : Message δ) : (expected : Option String) → Decidable (BoundAs m expected)
  | none => decidable_of_iff (m.bound = true) (by simp [BoundAs])
  | some label => decidable_of_iff (m.bound = true ∧ m.boundTo = label) (by simp [BoundAs])

structure Tightens (v v' : Vault ε δ) : Prop where
  opens : ∀ m expected, BoundAs m expected → v'.openMessage m expected = v.openMessage m expected
  refuses : ∀ m expected, ¬ BoundAs m expected → ∃ err, v'.openMessage m expected = .error err

theorem observed_nil_iff (b : Binding) (m : Message δ) : observed b m = [] ↔ BoundAs m b.checked := by
  obtain ⟨label, check, ns⟩ := b
  cases bound : m.bound with
  | false => simp [observed, BoundAs, bound]
  | true => cases check <;> simp [observed, BoundAs, Binding.checked, bound]

/-- A result that was reported on is an error under the strict binding, any other is the same. -/
def Judged {α : Type} (reports : List Report) (result strict : Except (CipherError ε) α) : Prop :=
  (reports = [] ∧ strict = result) ∨ (reports ≠ [] ∧ ∃ err, strict = .error err)

/-- Two ciphers of one configuration, the second one under a strict binding. -/
structure Stricter (c c' : Cipher ε δ) : Prop where
  vault : Tightens c.v c'.v
  binding : Judged c.binding.2 c.binding.1 c'.binding.1

theorem namespaceBinder_stricter {names : Option (String → Except ε String)}
    {label : Option (String → String)} {ctx : Context} {ns : String} {v v' : Vault ε δ}
    (vault : Tightens v v') :
    Stricter ⟨ctx, ns, namespaceBinder names label false, v⟩
      ⟨ctx, ns, namespaceBinder names label true, v'⟩ := by
  constructor
  · exact vault
  · cases names with
    | none => exact .inl ⟨rfl, rfl⟩
    | some localName =>
      simp only [Cipher.binding, namespaceBinder, Option.map_some]
      split
      · split
        · exact .inl ⟨rfl, rfl⟩
        · exact .inl ⟨rfl, rfl⟩
      · cases localName (ctx.namespaceID.getD "") with
        | error err => exact .inr ⟨by simp, _, rfl⟩
        | ok name => exact .inl ⟨rfl, rfl⟩

theorem labelBinder_stricter {label : Option (String → String)} {ctx : Context} {ns : String}
    {v v' : Vault ε δ} (vault : Tightens v v') :
    Stricter ⟨ctx, ns, labelBinder label, v⟩ ⟨ctx, ns, labelBinder label, v'⟩ := by
  constructor
  · exact vault
  · cases label <;> exact .inl ⟨rfl, rfl⟩

section Rollout
variable {lib : CodecLibrary ε δ} {c c' : Cipher ε δ}

theorem decrypt_judged (stricter : Stricter c c') (m : Message δ) :
    Judged (c.decrypt m).2 (c.decrypt m).1 (c'.decrypt m).1 := by
  obtain ⟨vault, binding⟩ := stricter
  rcases found : c.binding with ⟨result, reports⟩
  rcases found' : c'.binding with ⟨result', reports'⟩
  rw [found, found'] at binding
  rcases binding with ⟨silent, same⟩ | ⟨told, err, failed⟩
  · simp only at silent same
    subst silent same
    cases result' with
    | error err => exact .inl ⟨by simp [Cipher.decrypt, found], by simp [Cipher.decrypt, found, found']⟩
    | ok b =>
      simp only [Judged, Cipher.decrypt, found, found', List.nil_append, ne_eq, observed_nil_iff]
      by_cases bound : BoundAs m b.checked
      · exact .inl ⟨bound, by rw [vault.opens m _ bound]⟩
      · obtain ⟨err, refused⟩ := vault.refuses m _ bound
        exact .inr ⟨bound, .vault err, by rw [refused]; rfl⟩
  · simp only at told failed
    subst failed
    refine .inr ⟨?_, err, by simp [Cipher.decrypt, found']⟩
    cases result with
    | error _ => simpa [Cipher.decrypt, found] using told
    | ok b => simp [Cipher.decrypt, found, told]

/- A list is opened if and only if each of its sealed payloads is. -/
theorem openPayloads_asked (lawful : LawfulCodec lib) {qs ps : List (Payload δ)}
    (opened : (openPayloads lib c qs).1 = .ok ps) {q : Payload δ} (member : q ∈ qs)
    (sealed : isSealed q = true) : ∃ data, (c.decrypt (lib.fromPayload q)).1 = .ok data := by
  induction (lawful.decode _ _ _).mp opened with
  | nil => cases member
  | @cons first p qs ps decoded rest ih =>
    rcases List.mem_cons.mp member with rfl | later
    · rw [Decoded, if_pos sealed] at decoded
      obtain ⟨data, answered, _⟩ := decoded
      exact ⟨data, answered⟩
    · exact ih ((lawful.decode _ _ _).mpr rest) later

/- If the lenient cipher reports on none of its answers, the strict one gives the same answers.
   If it reports on one, the strict one refuses the payload that this was about. -/
theorem openPayloads_judged (lawful : LawfulCodec lib) (stricter : Stricter c c')
    (qs : List (Payload δ)) :
    Judged (openPayloads lib c qs).2 (openPayloads lib c qs).1 (openPayloads lib c' qs).1 := by
  obtain ⟨asked, inside, reports, determined⟩ := lawful.asks c.decrypt qs
  by_cases silent : ∀ m ∈ asked, (c.decrypt m).2 = []
  · left
    constructor
    · exact reports.trans (List.flatMap_eq_nil_iff.mpr silent)
    · apply determined
      intro m member
      rcases decrypt_judged stricter m with ⟨_, same⟩ | ⟨told, _⟩
      · exact same
      · exact absurd (silent m member) told
  · right
    push Not at silent
    obtain ⟨m, member, told⟩ := silent
    constructor
    · intro nothing
      exact told (List.flatMap_eq_nil_iff.mp (reports.symm.trans nothing) m member)
    · cases opened : (openPayloads lib c' qs).1 with
      | error err => exact ⟨err, rfl⟩
      | ok ps =>
        obtain ⟨q, there, sealed, rfl⟩ := inside m member
        obtain ⟨data, answered⟩ := openPayloads_asked lawful opened there sealed
        rcases decrypt_judged stricter (lib.fromPayload q) with ⟨silent, _⟩ | ⟨_, err, refused⟩
        · exact absurd silent told
        · cases answered.symm.trans refused

end Rollout

/-- Two vaults that hold the same keys, each with the mode of its binding: what the first one seals
    the second one opens, unless it is strict about a binding that is missing or another one. -/
structure Shares (mode mode' : BindingMode) (v v' : Vault ε δ) : Prop where
  sealed : ∀ ns data label m, v.sealData ns data label = .ok m →
    m.keyID ≠ "" ∧ m.dek ≠ "" ∧ (m.bound = true ↔ mode ≠ .off) ∧ (mode ≠ .off → m.boundTo = label.getD ns)
  opens : ∀ ns data label m expected, v.sealData ns data label = .ok m →
    mode' ≠ .strict ∨ BoundAs m expected → v'.openMessage m expected = .ok data
  refuses : ∀ m expected, mode' = .strict → ¬ BoundAs m expected →
    ∃ err, v'.openMessage m expected = .error err

/-- The second cipher expects the label that the first one binds to, if it is strict. -/
def Crosses (mode mode' : BindingMode) (c c' : Cipher ε δ) : Prop :=
  ∃ b b', c.binding.1 = .ok b ∧ c'.binding.1 = .ok b' ∧
    (mode' ≠ .strict ∨ mode ≠ .off ∧ ∀ label, b'.checked = some label → b.checked.getD c.ns = label)

section Crossing
variable {lib : CodecLibrary ε δ} {c c' : Cipher ε δ} {mode mode' : BindingMode} {p q : Payload δ}

theorem encrypt_ok {data : δ} {m : Message δ} : (c.encrypt data).1 = .ok m ↔
    ∃ b, c.binding.1 = .ok b ∧ c.v.sealData c.ns data b.checked = .ok m := by
  rcases found : c.binding with ⟨result, reports⟩
  cases result with
  | error err => simp [Cipher.encrypt, found]
  | ok b =>
    cases done : c.v.sealData c.ns data b.checked <;>
      simp [Cipher.encrypt, found, done, Except.mapError]

theorem decrypt_ok {data : δ} {m : Message δ} : (c.decrypt m).1 = .ok data ↔
    ∃ b, c.binding.1 = .ok b ∧ c.v.openMessage m b.checked = .ok data := by
  rcases found : c.binding with ⟨result, reports⟩
  cases result with
  | error err => simp [Cipher.decrypt, found]
  | ok b =>
    cases done : c.v.openMessage m b.checked <;>
      simp [Cipher.decrypt, found, done, Except.mapError]

theorem bound_iff (shares : Shares mode mode' c.v c'.v) {ns : String} {data : δ} {label : Option String}
    {m : Message δ} (done : c.v.sealData ns data label = .ok m) (expected : Option String) :
    BoundAs m expected ↔ mode ≠ .off ∧ ∀ wanted, expected = some wanted → label.getD ns = wanted := by
  obtain ⟨_, _, bound, boundTo⟩ := shares.sealed _ _ _ _ done
  constructor
  · intro h
    have on := bound.mp h.1
    exact ⟨on, fun wanted same => (boundTo on).symm.trans (h.2 wanted same)⟩
  · intro h
    exact ⟨bound.mpr h.1, fun wanted same => (boundTo h.1).trans (h.2 wanted same)⟩

/- A payload that is sealed and sent is opened exactly if the bindings agree. -/
theorem one_crosses (lawful : LawfulCodec lib) (shares : Shares mode mode' c.v c'.v)
    (encoded : Encoded lib c.encrypt p q) :
    isSealed q = true ∧ (Decoded lib c'.decrypt q p ↔ Crosses mode mode' c c') := by
  obtain ⟨m, encrypted, rfl⟩ := encoded
  obtain ⟨b, found, done⟩ := encrypt_ok.mp encrypted
  obtain ⟨keyID, dek, _, _⟩ := shares.sealed _ _ _ _ done
  have sealed := lawful.sealed m keyID dek
  refine ⟨sealed, ?_⟩
  rw [Decoded, if_pos sealed, lawful.fromPayload]
  constructor
  · intro decoded
    obtain ⟨data, answered, _⟩ := decoded
    obtain ⟨b', found', opened⟩ := decrypt_ok.mp answered
    refine ⟨b, b', found, found', ?_⟩
    rw [← bound_iff shares done]
    by_contra disagree
    obtain ⟨strict, unbound⟩ := not_or.mp disagree
    obtain ⟨err, refused⟩ := shares.refuses m b'.checked (not_not.mp strict) unbound
    cases opened.symm.trans refused
  · intro crosses
    obtain ⟨b₁, b', same, found', agree⟩ := crosses
    obtain rfl : b = b₁ := Except.ok.inj (found.symm.trans same)
    have opened : c'.v.openMessage m b'.checked = .ok (lib.marshal p) := by
      apply shares.opens _ _ _ _ _ done
      exact agree.imp_right (bound_iff shares done b'.checked).mpr
    exact ⟨lib.marshal p, decrypt_ok.mpr ⟨b', found', opened⟩, lawful.unmarshal p⟩

theorem becomes_opened (lawful : LawfulCodec lib) (shares : Shares mode mode' c.v c'.v)
    {encodings : List String} (plain : isSealed p = false)
    (became : Becomes (alreadySealed encodings) (Encoded lib c.encrypt) p q) :
    alreadySealed encodings q = true ∧
      (Decoded lib c'.decrypt q p ↔ Crosses mode mode' c c' ∨ alreadySealed encodings p = true) := by
  cases sealed : alreadySealed encodings p with
  | true =>
    obtain rfl := became.skipped sealed
    exact ⟨sealed, by simp [Decoded, plain]⟩
  | false =>
    obtain ⟨isOurs, opened⟩ := one_crosses lawful shares (became.changed sealed)
    constructor
    · simp [alreadySealed, isOurs]
    · simp [opened]

theorem sealPayloads_becomes (lawful : LawfulCodec lib) {encodings : List String}
    {ps out : List (Payload δ)} (sent : sealPayloads lib c encodings ps = .ok out) :
    List.Forall₂ (Becomes (alreadySealed encodings) (Encoded lib c.encrypt)) ps out :=
  seal_becomes (fun todo done encoded => lawful.encode c.encrypt todo done encoded) sent

theorem sealed_binding {encodings : List String} {ps out : List (Payload δ)}
    (becomes : List.Forall₂ (Becomes (alreadySealed encodings) (Encoded lib c.encrypt)) ps out) :
    (∃ b, c.binding.1 = .ok b) ∨ ∀ p ∈ ps, alreadySealed encodings p = true := by
  induction becomes with
  | nil => exact .inr (by simp)
  | @cons p q ps out became rest ih =>
    cases sealed : alreadySealed encodings p with
    | true => exact ih.imp_right fun all => List.forall_mem_cons.mpr ⟨sealed, all⟩
    | false =>
      obtain ⟨m, encrypted, _⟩ := became.changed sealed
      obtain ⟨b, found, _⟩ := encrypt_ok.mp encrypted
      exact .inl ⟨b, found⟩

variable (c') in
theorem payloads_cross (lawful : LawfulCodec lib) (shares : Shares mode mode' c.v c'.v)
    {encodings : List String} {ps out : List (Payload δ)} (plain : ∀ p ∈ ps, isSealed p = false)
    (sent : sealPayloads lib c encodings ps = .ok out) :
    (∀ q ∈ out, alreadySealed encodings q = true) ∧
      ((openPayloads lib c' out).1 = .ok ps ↔
        Crosses mode mode' c c' ∨ ∀ p ∈ ps, alreadySealed encodings p = true) := by
  have becomes := sealPayloads_becomes lawful sent
  rw [openPayloads, lawful.decode]
  clear sent
  induction becomes with
  | nil => simp
  | cons became rest ih =>
    obtain ⟨sealedFirst, openedFirst⟩ := becomes_opened lawful shares (plain _ List.mem_cons_self) became
    obtain ⟨sealedRest, openedRest⟩ := ih fun p member => plain p (List.mem_cons_of_mem _ member)
    constructor
    · exact List.forall_mem_cons.mpr ⟨sealedFirst, sealedRest⟩
    · rw [List.forall₂_cons, openedFirst, openedRest, List.forall_mem_cons, or_and_left]

end Crossing

/-- One side of newEncryptors: the mode of the binding, the translation of namespaces, the names that
    the local cluster has for IDs, and the vault. -/
structure Connection (ε δ : Type) where
  mode : BindingMode
  nsTranslations : TwoWayMap String String
  localName : String → Except ε String
  vault : Vault ε δ

def Connection.label (cc : Connection ε δ) (ns : String) : String :=
  match cc.nsTranslations.contents.lookup ns with
  | some remote => remote
  | none => ns

/-- The cipher for the payloads of workflow and operator calls. -/
def Connection.payloadCipher (cc : Connection ε δ) (ctx : Context) : Cipher ε δ :=
  ⟨ctx, ctx.stamped.getD "", labelBinder (some cc.label), cc.vault⟩

/-- The cipher for the payloads of admin calls and streams. -/
def Connection.adminCipher (cc : Connection ε δ) (ctx : Context) : Cipher ε δ :=
  let names := if cc.mode ≠ .off then some cc.localName else none
  ⟨ctx, replicationKeyNamespace, namespaceBinder names (some cc.label) (cc.mode = .strict), cc.vault⟩

theorem label_eq (cc : Connection ε δ) (ns : String) :
    cc.label ns = translatedName cc.nsTranslations.contents ns := by
  unfold Connection.label translatedName
  cases cc.nsTranslations.contents.lookup ns <;> rfl

/-- Whatever payloads come in, in whatever context: where a permissive connection reports nothing, the
    connection opens them alike once it is strict, and where it reports something they are refused. -/
theorem permissive_reports_what_strict_refuses (lib : CodecLibrary ε δ) (lawful : LawfulCodec lib)
    (cc : Connection ε δ) (permissive : cc.mode = .permissive) (vault : Vault ε δ)
    (tightens : Tightens cc.vault vault) (ctx : Context) (qs : List (Payload δ)) :
    let strict := { cc with mode := BindingMode.strict, vault := vault }
    let payload := openPayloads lib (cc.payloadCipher ctx) qs
    let admin := openPayloads lib (cc.adminCipher ctx) qs
    Judged payload.2 payload.1 (openPayloads lib (strict.payloadCipher ctx) qs).1 ∧
      Judged admin.2 admin.1 (openPayloads lib (strict.adminCipher ctx) qs).1 := by
  constructor
  · exact openPayloads_judged lawful (labelBinder_stricter tightens) qs
  · apply openPayloads_judged lawful
    simp only [Connection.adminCipher, permissive]
    exact namespaceBinder_stricter tightens

section Samples

theorem each_congr {ε' α γ : Type} {f f' : α → Except ε' γ} {xs : List α}
    (same : ∀ x ∈ xs, f' x = f x) : each f' xs = each f xs := by
  induction xs with
  | nil => rfl
  | cons x rest ih =>
    obtain ⟨first, others⟩ := List.forall_mem_cons.mp same
    rw [each, each, first, ih others]

def sampleUnmarshal : SampleData → Option (Payload SampleData)
  | .sealed metadata data => some ⟨metadata, data⟩
  | _ => none

def sampleFromPayload (p : Payload SampleData) : Message SampleData :=
  ⟨p.value .encryptionKeyID, p.value .encryptionDEK, p.value (.other "bound") = "true",
    p.value (.other "namespace"), p.data⟩

def sampleToPayload (m : Message SampleData) : Payload SampleData :=
  ⟨(((((∅ : AList fun _ : MetadataKey => String).insert .encoding encryptionEncoding).insert
    .encryptionKeyID m.keyID).insert .encryptionDEK m.dek).insert
    (.other "bound") (if m.bound then "true" else "false")).insert (.other "namespace") m.boundTo, m.data⟩

def sampleDecode (decrypt : Message SampleData → Reported String SampleData) (q : Payload SampleData) :
    Except (CipherError String) (Payload SampleData) :=
  if isSealed q then
    (decrypt (sampleFromPayload q)).1.bind fun data => (sampleUnmarshal data).elim (.error .unreadable) .ok
  else .ok q

def sampleLib : CodecLibrary String SampleData where
  marshal p := .sealed p.metadata p.data
  unmarshal := sampleUnmarshal
  toPayload := sampleToPayload
  fromPayload := sampleFromPayload
  encode encrypt ps := (each (fun p => (encrypt (.sealed p.metadata p.data)).1.map sampleToPayload) ps,
    ps.flatMap fun p => (encrypt (.sealed p.metadata p.data)).2)
  decode decrypt qs := (each (sampleDecode decrypt) qs,
    ((qs.filter isSealed).map sampleFromPayload).flatMap fun m => (decrypt m).2)

theorem sampleDecode_ok {decrypt : Message SampleData → Reported String SampleData}
    {q p : Payload SampleData} : sampleDecode decrypt q = .ok p ↔ Decoded sampleLib decrypt q p := by
  unfold sampleDecode Decoded
  split
  · show _ ↔ ∃ data, (decrypt (sampleFromPayload q)).1 = .ok data ∧ sampleUnmarshal data = some p
    cases (decrypt (sampleFromPayload q)).1 with
    | error err => simp [Except.bind]
    | ok data => cases read : sampleUnmarshal data <;> simp [Except.bind, read]
  · simp [eq_comm]

theorem sampleDecode_answers {decrypt decrypt' : Message SampleData → Reported String SampleData}
    {q : Payload SampleData}
    (same : isSealed q = true → (decrypt' (sampleFromPayload q)).1 = (decrypt (sampleFromPayload q)).1) :
    sampleDecode decrypt' q = sampleDecode decrypt q := by
  unfold sampleDecode
  split
  · next sealed => rw [same sealed]
  · rfl

theorem sampleLib_lawful : LawfulCodec sampleLib := by
  constructor
  · exact fun p => rfl
  · intro m
    obtain ⟨keyID, dek, bound, boundTo, data⟩ := m
    cases bound <;> rfl
  · intro m keyID dek
    have encoding : (sampleLib.toPayload m).value .encoding = encryptionEncoding := rfl
    have hasKeyID : (sampleLib.toPayload m).value .encryptionKeyID = m.keyID := rfl
    have hasDek : (sampleLib.toPayload m).value .encryptionDEK = m.dek := rfl
    simp [isSealed, encoding, hasKeyID, hasDek, keyID, dek]
  · intro encrypt ps qs encoded
    refine (each_ok.mp encoded).imp fun p q done => ?_
    show ∃ m, (encrypt (.sealed p.metadata p.data)).1 = .ok m ∧ q = sampleToPayload m
    cases answer : (encrypt (.sealed p.metadata p.data)).1 with
    | error err => simp [answer, Except.map] at done
    | ok m => simpa [answer, Except.map, eq_comm] using done
  · intro decrypt qs ps
    refine each_ok.trans ?_
    simp only [sampleDecode_ok]
  · intro decrypt qs
    refine ⟨(qs.filter isSealed).map sampleFromPayload, ?_, rfl, ?_⟩
    · intro m member
      obtain ⟨q, found, rfl⟩ := List.mem_map.mp member
      obtain ⟨there, sealed⟩ := List.mem_filter.mp found
      exact ⟨q, there, sealed, rfl⟩
    · intro decrypt' same
      apply each_congr
      intro q member
      apply sampleDecode_answers
      intro sealed
      exact same _ (List.mem_map_of_mem (List.mem_filter.mpr ⟨member, sealed⟩))

def vaultOf (mode : BindingMode) : Vault String SampleData where
  sealData ns data label := .ok ⟨"key", "dek", mode ≠ .off, label.getD ns, data⟩
  openMessage m expected :=
    if mode = .strict ∧ ¬ BoundAs m expected then .error "namespace binding" else .ok m.data

theorem vaultOf_shares (mode mode' : BindingMode) : Shares mode mode' (vaultOf mode) (vaultOf mode') := by
  constructor
  · intro ns data label m done
    cases done
    exact ⟨by simp, by simp, by simp, fun _ => rfl⟩
  · intro ns data label m expected done fits
    cases done
    apply if_neg
    intro refused
    exact fits.elim (· refused.1) refused.2
  · intro m expected strict unbound
    exact ⟨"namespace binding", if_pos ⟨strict, unbound⟩⟩

theorem vaultOf_tightens : Tightens (vaultOf .permissive) (vaultOf .strict) := by
  constructor
  · intro m expected bound
    simp [vaultOf, bound]
  · exact fun m expected => (vaultOf_shares .off .strict).refuses m expected rfl

/-- The namespace with ID 1 is called local here and remote by the peer. -/
def localSide (mode : BindingMode) : Connection String SampleData where
  mode := mode
  nsTranslations := sampleBiMap
  localName id := if id = "1" then .ok "local" else .error "not found"
  vault := vaultOf mode

def remoteSide (mode : BindingMode) : Connection String SampleData where
  mode := mode
  nsTranslations := ⟨.empty, empty_inverts⟩
  localName id := if id = "1" then .ok "remote" else .error "not found"
  vault := vaultOf mode

end Samples

/-- A payload that is bound to another namespace opens with a report, and is refused under a strict
    binding. -/
theorem mismatch_reported_then_refused :
    let ctx : Context := ⟨none, some "local"⟩
    let payload := sampleLib.toPayload ⟨"key", "dek", true, "other", sampleLib.marshal plainDetail⟩
    let found := openPayloads sampleLib ((localSide .permissive).payloadCipher ctx) [payload]
    found = (.ok [plainDetail], [.namespaceMismatch "local"]) ∧
      Judged found.2 found.1 (openPayloads sampleLib ((localSide .strict).payloadCipher ctx) [payload]).1 := by
  constructor
  · rfl
  · exact (permissive_reports_what_strict_refuses sampleLib sampleLib_lawful (localSide .permissive) rfl
      (vaultOf .strict) vaultOf_tightens _ _).1

/-- What an admin payload of a task is bound to, as long as anything is bound. -/
def Connection.taskLabel (cc : Connection ε δ) (id : String) : String :=
  match cc.localName id with
  | .ok name => cc.label name
  | .error _ => replicationKeyNamespace

section Tasks
variable {cc : Connection ε δ} {id : String} {stamped : Option String}

theorem admin_binding_off (off : cc.mode = .off) (ctx : Context) :
    (cc.adminCipher ctx).binding.1 = .ok (unchecked replicationKeyNamespace) := by
  simp [Connection.adminCipher, Cipher.binding, namespaceBinder, off]

theorem admin_binding_resolved (on : cc.mode ≠ .off) (named : id ≠ "") {name : String}
    (resolved : cc.localName id = .ok name) :
    (cc.adminCipher ⟨some id, stamped⟩).binding.1 = .ok ⟨cc.label name, true, name⟩ := by
  simp [Connection.adminCipher, Cipher.binding, namespaceBinder, on, named, resolved, boundBy]

theorem admin_binding_unresolved (on : cc.mode ≠ .off) (named : id ≠ "") {err : ε}
    (unresolved : cc.localName id = .error err) :
    (cc.adminCipher ⟨some id, stamped⟩).binding.1 =
      if cc.mode = .strict then .error (.unresolved id err) else .ok (unchecked replicationKeyNamespace) := by
  by_cases strict : cc.mode = .strict <;>
    simp [Connection.adminCipher, Cipher.binding, namespaceBinder, on, named, unresolved, strict]

/- A cipher that binds at all binds a task's payloads to the label of its namespace. -/
theorem admin_label (on : cc.mode ≠ .off) (named : id ≠ "") {b : Binding}
    (found : (cc.adminCipher ⟨some id, stamped⟩).binding.1 = .ok b) :
    b.checked.getD replicationKeyNamespace = cc.taskLabel id := by
  cases resolved : cc.localName id with
  | ok name =>
    rw [admin_binding_resolved on named resolved] at found
    cases found
    simp [Binding.checked, Connection.taskLabel, resolved]
  | error err =>
    rw [admin_binding_unresolved on named resolved] at found
    split at found
    · cases found
    · cases found
      simp [Binding.checked, unchecked, Connection.taskLabel, resolved]

theorem admin_binding_lenient (lenient : cc.mode ≠ .strict) (named : id ≠ "") :
    ∃ b, (cc.adminCipher ⟨some id, stamped⟩).binding.1 = .ok b := by
  by_cases off : cc.mode = .off
  · exact ⟨_, admin_binding_off off _⟩
  · cases resolved : cc.localName id with
    | ok name => exact ⟨_, admin_binding_resolved off named resolved⟩
    | error err => exact ⟨_, by rw [admin_binding_unresolved off named resolved, if_neg lenient]⟩

end Tasks

section Replication
variable {here there : Connection ε δ} {id : String} {stamped stamped' : Option String}

theorem tasks_cross_iff (named : id ≠ "") {b : Binding}
    (found : (here.adminCipher ⟨some id, stamped⟩).binding.1 = .ok b) :
    Crosses here.mode there.mode (here.adminCipher ⟨some id, stamped⟩)
        (there.adminCipher ⟨some id, stamped'⟩) ↔
      there.mode ≠ .strict ∨ here.mode ≠ .off ∧
        ∃ name, there.localName id = .ok name ∧ here.taskLabel id = there.label name := by
  constructor
  · intro crosses
    obtain ⟨b₁, b', same, found', agree⟩ := crosses
    obtain rfl : b = b₁ := Except.ok.inj (found.symm.trans same)
    rcases agree with lenient | ⟨on, agree⟩
    · exact .inl lenient
    · by_cases strict : there.mode = .strict
      · refine .inr ⟨on, ?_⟩
        have thereOn : there.mode ≠ .off := by simp [strict]
        cases resolved : there.localName id with
        | error err =>
          rw [admin_binding_unresolved thereOn named resolved, if_pos strict] at found'
          cases found'
        | ok name =>
          rw [admin_binding_resolved thereOn named resolved] at found'
          cases found'
          refine ⟨name, rfl, ?_⟩
          rw [← admin_label on named found]
          exact agree _ rfl
      · exact .inl strict
  · intro fits
    rcases fits with lenient | ⟨on, name, resolved, same⟩
    · obtain ⟨b', found'⟩ := admin_binding_lenient lenient named
      exact ⟨b, b', found, found', .inl lenient⟩
    · by_cases strict : there.mode = .strict
      · have found' : (there.adminCipher ⟨some id, stamped'⟩).binding.1 = .ok ⟨there.label name, true, name⟩ :=
          admin_binding_resolved (by simp [strict]) named resolved
        refine ⟨b, _, found, found', .inr ⟨on, ?_⟩⟩
        intro label expected
        simp only [Binding.checked, ↓reduceIte, Option.some.injEq] at expected
        rw [← expected, ← same]
        exact admin_label on named found
      · obtain ⟨b', found'⟩ := admin_binding_lenient strict named
        exact ⟨b, b', found, found', .inl strict⟩

end Replication

end NamespaceBinding
