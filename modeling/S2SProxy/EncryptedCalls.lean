import S2SProxy.NamespaceBinding
import S2SProxy.TranslationInterceptor

/- A workflow or operator call from one cluster to the other, through the outbound server of one
   proxy and the inbound server of the other. Outbound, the namespace is stamped before it is
   translated; inbound, after it was translated back. Both proxies therefore derive the label of a
   payload from the name on the wire, and they come to the same label exactly if the second proxy's
   translation of that name is undone by its own table. -/
namespace EncryptedCalls
open MessageTree MessageVisitor NamespaceBinding NamespaceTranslation StoppingUpdate
open TranslationInterceptor
open FailureEncoding (Payload SealError alreadySealed isSealed plainDetail SampleData)
open VaultKeys (BindingMode)
variable {β ε δ : Type}

/-- A request or response: the message, and its payloads in the groups in which they are visited. -/
structure Parcel (β δ : Type) where
  message : Value β
  payloads : List (List (Payload δ))

structure Proxy (β ε δ : Type) extends Connection ε δ where
  codec : Codec β
  enabled : Bool
  alreadySealedEncodings : List String
  saTranslations : Option (List (String × NameMap) × List (String × NameMap))

def getNamespace (req : Value β) : String := (req.children.get "Namespace").text

/-- interceptor.StampNamespace, on the context of a call that has just come in. -/
def stampNamespace (req : Value β) : Context :=
  ⟨none, if getNamespace req ≠ "" then some (getNamespace req) else none⟩

/-- The translators of makeServerOptions. -/
def makeTranslators (ns : NameMap × NameMap)
    (sa : Option (List (String × NameMap) × List (String × NameMap))) : List Translator :=
  (if ns.1.entries.length > 0 then [.namespaceName ns.1 ns.2] else []) ++
    (sa.map fun maps => Translator.searchAttribute maps.1 maps.2).toList

def Proxy.outboundTranslators (p : Proxy β ε δ) : List Translator :=
  makeTranslators (p.nsTranslations.contents, p.nsTranslations.inverseContents) p.saTranslations

def Proxy.inboundTranslators (p : Proxy β ε δ) : List Translator :=
  makeTranslators (p.nsTranslations.inverseContents, p.nsTranslations.contents) (p.saTranslations.map Prod.swap)

section Encryptor
variable (lib : CodecLibrary ε δ) (p : Proxy β ε δ) (ctx : Context)

def sealGroups (groups : List (List (Payload δ))) :
    Except (SealError (CipherError ε)) (List (List (Payload δ))) :=
  if p.enabled then each (sealPayloads lib (p.payloadCipher ctx) p.alreadySealedEncodings) groups
  else .ok groups

def openGroups (groups : List (List (Payload δ))) :
    Except (SealError (CipherError ε)) (List (List (Payload δ))) :=
  each (fun group => (openPayloads lib (p.payloadCipher ctx) group).1.mapError .encode) groups

end Encryptor

/-- The outbound server: the context of the call, and the request as it is sent to the peer. -/
def outboundRequest (lib : CodecLibrary ε δ) (p : Proxy β ε δ) (orders : Nat → Orders β)
    (method : Method) (req : Parcel β δ) : Except (SealError (CipherError ε)) (Context × Parcel β δ) :=
  let ctx := stampNamespace req.message
  let message := (handlerRequest p.codec orders false p.outboundTranslators method req.message).1
  (sealGroups lib p ctx req.payloads).map fun groups => (ctx, ⟨message, groups⟩)

/-- The inbound server: the context of the call, and the request as the local cluster gets it. -/
def inboundRequest (lib : CodecLibrary ε δ) (p : Proxy β ε δ) (orders : Nat → Orders β)
    (method : Method) (req : Parcel β δ) : Except (SealError (CipherError ε)) (Context × Parcel β δ) :=
  let message := (handlerRequest p.codec orders false p.inboundTranslators method req.message).1
  let ctx := stampNamespace message
  (openGroups lib p ctx req.payloads).map fun groups => (ctx, ⟨message, groups⟩)

/-- The request names a namespace: it is a message with such a field, which like every field of that
    name is exported. -/
inductive Names (n : String) : Children β → Prop where
  | here (field : StructField) (rest : Children β) (name : field.name = "Namespace")
      (exported : field.exported = true) : Names n (.cons (some field) (.str n) rest)
  | element (v : Value β) {rest : Children β} : Names n rest → Names n (.cons none v rest)
  | later (field : StructField) (v : Value β) {rest : Children β} (other : field.name ≠ "Namespace") :
      Names n rest → Names n (.cons (some field) v rest)

def IsRequest (n : String) (v : Value β) : Prop :=
  ∃ type fields, v = .message type fields ∧
    type ≠ "*workflowservice.ListWorkflowExecutionsResponse" ∧ Names n fields

theorem Names.get {n : String} {fields : Children β} (names : Names n fields) :
    fields.get "Namespace" = .str n := by
  induction names with
  | here field rest name exported => simp [Children.get, name]
  | element v _ ih => simpa [Children.get] using ih
  | later field v other _ ih => simpa [Children.get, other] using ih

theorem IsRequest.getNamespace {n : String} {v : Value β} (request : IsRequest n v) :
    getNamespace v = n := by
  obtain ⟨type, fields, rfl, _, names⟩ := request
  simp [EncryptedCalls.getNamespace, Value.children, names.get, Value.text]

theorem IsRequest.stamped {n : String} {v : Value β} (request : IsRequest n v) :
    (stampNamespace v).stamped.getD "" = n := by
  rw [stampNamespace, request.getNamespace]
  by_cases empty : n = "" <;> simp [empty]

section Translation
variable {n : String} {fields : Children β} {translateOne : β → Translated β} {m : NameMap}

theorem walkChildren_cons {vis : Visitor β} {slot : Option StructField} {v : Value β} {rest : Children β}
    (ok : (walkChildren vis never (.cons slot v rest)).err = none) :
    ∃ first, (walkChildren vis never (.cons slot v rest)).value =
        .cons slot first (walkChildren vis never rest).value ∧
      (walkChildren vis never rest).err = none ∧
      (unexported slot = false → unhandled vis.toSelection slot v = none → first = (walk vis slot v).value) := by
  obtain ⟨first, made, own⟩ : ∃ first : Visited (Value β), walkChildren vis never (.cons slot v rest) =
        (first.both rest (walkChildren vis never rest)).map (fun p => .cons slot p.1 p.2) ∧
      (unexported slot = false → unhandled vis.toSelection slot v = none → first = walk vis slot v) := by
    rw [walkChildren]
    refine ⟨_, rfl, fun exported handled => ?_⟩
    simp [never, exported, handled]
  rw [made, map_err] at ok
  rw [made, map_value]
  cases failed : first.err with
  | some err => simp [both_of_err failed] at ok
  | none =>
    rw [both_of_ok failed] at ok ⊢
    refine ⟨first.value, rfl, ok, ?_⟩
    intro exported handled
    rw [own exported handled]

theorem Names.translated (names : Names n fields)
    (ok : (walkChildren (namespaceVisitor translateOne (createStringMatcher m)) never fields).err = none) :
    Names (translatedName m n)
      (walkChildren (namespaceVisitor translateOne (createStringMatcher m)) never fields).value := by
  induction names with
  | here field rest name exported =>
    obtain ⟨first, value, _, own⟩ := walkChildren_cons ok
    have shown : unexported (some field) = false := by simp [unexported, exported]
    have listed : inFields namespaceFieldNames (some field) = true := by
      simp [inFields, name, namespaceFieldNames]
    rw [value, own shown (unhandled_namespace _ _)]
    simp only [walk, namespaceVisitor, namespaceSelection, listed, ↓reduceIte, map_value, matchName_map]
    exact .here field _ name exported
  | element v _ ih =>
    obtain ⟨first, value, okRest, _⟩ := walkChildren_cons ok
    rw [value]
    exact .element first (ih okRest)
  | later field v other _ ih =>
    obtain ⟨first, value, okRest, _⟩ := walkChildren_cons ok
    rw [value]
    exact .later field first other (ih okRest)

theorem Names.kept (names : Names n fields) (ss : List (Spot β)) :
    Names n (refillChildren searchAttributeSelection never fields ss) := by
  induction names generalizing ss with
  | here field rest name exported =>
    have unlisted : inFields (searchAttributeSelection : Selection β).attributeFields (some field) =
        false := by
      simp [inFields, searchAttributeSelection, name, searchAttributeFieldNames]
    have nothing : spots searchAttributeSelection (some field) (.str n : Value β) = [] := by
      simp [spots, searchAttributeSelection, inFields]
    have still : refill searchAttributeSelection (some field) (.str n : Value β) [] = .str n := rfl
    simp only [refillChildren, nothing, reachedSpots, unhandled, unlisted, never, unexported, exported,
      Bool.not_true, Bool.or_self, Bool.false_eq_true, ↓reduceIte, List.length_nil, List.take_zero, still,
      ite_self]
    exact .here field _ name exported
  | element v _ ih => exact .element _ (ih _)
  | later field v other _ ih => exact .later field _ other (ih _)

variable {codec : Codec β} {v : Value β}

theorem IsRequest.translated (request : IsRequest n v) {orders : Orders β}
    (ok : (visitNamespace codec orders (createStringMatcher m) v).err = none) :
    IsRequest (translatedName m n) (visitNamespace codec orders (createStringMatcher m) v).value := by
  obtain ⟨type, fields, rfl, other, names⟩ := request
  have walked : isSkippableForNamespaceTranslation (.message type fields) = false := by
    simp [isSkippableForNamespaceTranslation, other]
  have steady := translateOneDataBlob_steady codec
    (visitNamespaceEvents orders.events (createStringMatcher m))
  have same : visitNamespace codec orders (createStringMatcher m) (.message type fields) =
      walk (namespaceVisitor (translateOneDataBlob codec
        (visitNamespaceEvents orders.events (createStringMatcher m))) (createStringMatcher m)) none
        (.message type fields) := by
    rw [visitNamespace, visitNamespaceOver, if_neg (by simp [walked])] at ok ⊢
    exact visit_eq_walk_of_ok steady ok
  rw [same] at ok ⊢
  exact ⟨type, _, rfl, other, names.translated ok⟩

theorem IsRequest.kept (request : IsRequest n v) (orders : Orders β) (matcher : StringMatcher) :
    IsRequest n (visitSearchAttributes codec orders matcher v).value := by
  obtain ⟨type, fields, rfl, other, names⟩ := request
  exact ⟨type, _, rfl, other, names.kept _⟩

def Translates (codec : Codec β) (orders : Orders β) (m : NameMap) (v : Value β) : Prop :=
  (visitNamespace codec orders (createStringMatcher m) v).err = none

theorem translateAll_append (orders : Nat → Orders β) (dir : Direction)
    (first second : List Translator) (v : Value β) :
    (translateAll codec orders dir (first ++ second) v).1 =
      (translateAll codec (fun k => orders (k + first.length)) dir second
        (translateAll codec orders dir first v).1).1 := by
  induction first generalizing orders v with
  | nil => rfl
  | cons tr rest ih => exact ih _ _

theorem IsRequest.attributes (request : IsRequest n v) (orders : Nat → Orders β)
    {translators : List Translator}
    (all : ∀ tr ∈ translators, ∃ reqMap respMap, tr = .searchAttribute reqMap respMap) :
    IsRequest n (translateAll codec orders .request translators v).1 := by
  induction translators generalizing orders v with
  | nil => exact request
  | cons tr rest ih =>
    obtain ⟨reqMap, respMap, rfl⟩ := all tr List.mem_cons_self
    exact ih (request.kept _ _) _ fun tr member => all tr (List.mem_cons_of_mem _ member)

theorem lookup_of_no_entries (empty : ¬ m.entries.length > 0) (n : String) : m.lookup n = none := by
  obtain ⟨entries, distinct⟩ := m
  cases entries with
  | nil => rfl
  | cons entry rest => simp at empty

theorem IsRequest.handled (request : IsRequest n v) {orders : Nat → Orders β} (method : Method)
    (served : method.service ≠ .other) (back : NameMap)
    (sa : Option (List (String × NameMap) × List (String × NameMap)))
    (ok : Translates codec (orders 0) m v) :
    IsRequest (translatedName m n)
      (handlerRequest codec orders false (makeTranslators (m, back) sa) method v).1 := by
  let names : List Translator := if m.entries.length > 0 then [.namespaceName m back] else []
  let attributes := (sa.map fun maps => Translator.searchAttribute maps.1 maps.2).toList
  have active : activeTranslators false (makeTranslators (m, back) sa) method =
      names ++ attributes.filter (Translator.matchMethod method) := by
    have all : names.filter (Translator.matchMethod method) = names := by
      simp only [names]
      split <;> rfl
    simp only [activeTranslators, served, makeTranslators, List.filter_append]
    simp only [names] at all
    simp [names, attributes, all]
  have named : IsRequest (translatedName m n) (translateAll codec orders .request names v).1 := by
    simp only [names]
    split
    · exact request.translated ok
    · next empty =>
      rw [translatedName_fixed m n (lookup_of_no_entries empty n)]
      exact request
  rw [handlerRequest, active, translateAll_append]
  apply named.attributes
  intro tr member
  obtain ⟨maps, _, rfl⟩ : ∃ maps ∈ sa, Translator.searchAttribute maps.1 maps.2 = tr := by
    simpa [attributes] using (List.mem_filter.mp member).1
  exact ⟨_, _, rfl⟩

end Translation

section Labels

/-- The name comes back when it has been translated to a local one: it is in the table, or it is not
    the local name of another namespace. -/
def Undone (p : Proxy β ε δ) (w : String) : Prop :=
  (p.nsTranslations.inverseContents.lookup w).isSome ∨ p.nsTranslations.contents.lookup w = none

theorem label_back_iff (p : Proxy β ε δ) (w : String) :
    p.label (translatedName p.nsTranslations.inverseContents w) = w ↔ Undone p w := by
  rw [label_eq, Undone]
  cases found : p.nsTranslations.inverseContents.lookup w with
  | some k =>
    have back : translatedName p.nsTranslations.inverseContents w = k := by simp [translatedName, found]
    have there := (p.nsTranslations.inverts k w).mpr found
    rw [back]
    simp [translatedName, there]
  | none =>
    rw [translatedName_fixed _ w found]
    cases taken : p.nsTranslations.contents.lookup w with
    | none => simp [translatedName, taken]
    | some v =>
      simp only [translatedName, taken, Option.getD_some, Option.isSome_none, Bool.false_eq_true,
        reduceCtorEq, or_self, iff_false]
      rintro rfl
      rw [p.nsTranslations.inverts, found] at taken
      cases taken

theorem payloads_cross_iff {here there : Proxy β ε δ} {ctx ctx' : Context} :
    Crosses here.mode there.mode (here.payloadCipher ctx) (there.payloadCipher ctx') ↔
      there.mode ≠ .strict ∨ here.mode ≠ .off ∧
        here.label (ctx.stamped.getD "") = there.label (ctx'.stamped.getD "") := by
  simp [Crosses, Connection.payloadCipher, Cipher.binding, labelBinder, Binding.checked]

end Labels

section Groups
variable {lib : CodecLibrary ε δ} {here there : Proxy β ε δ} {ctx ctx' : Context}
  {groups out : List (List (Payload δ))}

def Plain (groups : List (List (Payload δ))) : Prop := ∀ group ∈ groups, ∀ p ∈ group, isSealed p = false

/-- Every payload is sealed, or encrypted by a codec that is listed. -/
def AllSealed (p : Proxy β ε δ) (groups : List (List (Payload δ))) : Prop :=
  ∀ group ∈ groups, ∀ q ∈ group, alreadySealed p.alreadySealedEncodings q = true

theorem openGroups_ok {received : List (List (Payload δ))} :
    openGroups lib there ctx' groups = .ok received ↔
      List.Forall₂ (fun group ps => (openPayloads lib (there.payloadCipher ctx') group).1 = .ok ps)
        groups received := by
  rw [openGroups, each_ok]
  have same (group ps : List (Payload δ)) :
      (openPayloads lib (there.payloadCipher ctx') group).1.mapError SealError.encode = .ok ps ↔
        (openPayloads lib (there.payloadCipher ctx') group).1 = .ok ps := by
    cases (openPayloads lib (there.payloadCipher ctx') group).1 <;> simp [Except.mapError]
  simp only [same]

theorem openGroups_plain (lawful : LawfulCodec lib) (plain : Plain groups) :
    openGroups lib there ctx' groups = .ok groups := by
  rw [openGroups_ok]
  refine List.forall₂_same.mpr fun group member => ?_
  rw [openPayloads, lawful.decode]
  refine List.forall₂_same.mpr fun p inside => ?_
  simp [Decoded, plain group member p inside]

variable (ctx') in
theorem groups_cross (lawful : LawfulCodec lib)
    (shares : Shares here.mode there.mode here.vault there.vault) (plain : Plain groups)
    (sent : sealGroups lib here ctx groups = .ok out) :
    (here.enabled = true → AllSealed here out) ∧
      (openGroups lib there ctx' out = .ok groups ↔ here.enabled = false ∨
        Crosses here.mode there.mode (here.payloadCipher ctx) (there.payloadCipher ctx') ∨
          AllSealed here groups) := by
  cases enabled : here.enabled with
  | false =>
    rw [sealGroups, enabled] at sent
    cases sent
    simp [openGroups_plain lawful plain]
  | true =>
    rw [sealGroups, enabled, if_pos rfl, each_ok] at sent
    rw [openGroups_ok]
    simp only [reduceCtorEq, false_or, forall_const]
    induction sent with
    | nil => simp [AllSealed]
    | @cons group sealedGroup groups out first rest ih =>
      obtain ⟨sealedRest, openedRest⟩ := ih fun g member => plain g (List.mem_cons_of_mem _ member)
      obtain ⟨sealedFirst, openedFirst⟩ := payloads_cross (there.payloadCipher ctx') lawful shares
        (plain _ List.mem_cons_self) first
      constructor
      · exact List.forall_mem_cons.mpr ⟨sealedFirst, sealedRest⟩
      · rw [List.forall₂_cons, openedFirst, openedRest, AllSealed, AllSealed, List.forall_mem_cons, or_and_left]

end Groups

/-- The receiver opens what the sender sent, for a label on which the two agree or not. -/
def Fits (sender receiver : Proxy β ε δ) (agreed : Prop) (groups : List (List (Payload δ))) : Prop :=
  sender.enabled = false ∨ receiver.mode ≠ .strict ∨ (sender.mode ≠ .off ∧ agreed) ∨ AllSealed sender groups

section Servers
variable {lib : CodecLibrary ε δ} {here there : Proxy β ε δ} {method : Method} {n : String}
  {req : Parcel β δ} {ctx : Context} {sent : Parcel β δ} {orders : Nat → Orders β}

theorem outboundRequest_ok : outboundRequest lib here orders method req = .ok (ctx, sent) ↔
    ctx = stampNamespace req.message ∧
      sent.message = (handlerRequest here.codec orders false here.outboundTranslators method req.message).1 ∧
      sealGroups lib here ctx req.payloads = .ok sent.payloads := by
  obtain ⟨message, groups⟩ := sent
  unfold outboundRequest
  constructor
  · intro ok
    cases done : sealGroups lib here (stampNamespace req.message) req.payloads with
    | error err => simp [done, Except.map] at ok
    | ok found =>
      simp only [done, Except.map, Except.ok.injEq, Prod.mk.injEq, Parcel.mk.injEq] at ok
      obtain ⟨rfl, rfl, rfl⟩ := ok
      exact ⟨rfl, rfl, done⟩
  · intro parts
    obtain ⟨rfl, rfl, done⟩ := parts
    simp [done, Except.map]

theorem inboundRequest_ok : inboundRequest lib there orders method req = .ok (ctx, sent) ↔
    sent.message = (handlerRequest there.codec orders false there.inboundTranslators method req.message).1 ∧
      ctx = stampNamespace sent.message ∧ openGroups lib there ctx req.payloads = .ok sent.payloads := by
  obtain ⟨message, groups⟩ := sent
  unfold inboundRequest
  constructor
  · intro ok
    cases done : openGroups lib there
        (stampNamespace (handlerRequest there.codec orders false there.inboundTranslators method req.message).1)
        req.payloads with
    | error err => simp [done, Except.map] at ok
    | ok found =>
      simp only [done, Except.map, Except.ok.injEq, Prod.mk.injEq, Parcel.mk.injEq] at ok
      obtain ⟨rfl, rfl, rfl⟩ := ok
      exact ⟨rfl, rfl, done⟩
  · intro parts
    obtain ⟨rfl, rfl, done⟩ := parts
    simp [done, Except.map]

end Servers

section Samples

def callingProxy : Proxy (Option (Children Empty)) String SampleData where
  toConnection := localSide .strict
  codec := sampleCodec
  enabled := true
  alreadySealedEncodings := []
  saTranslations := none

/-- The proxy of the cluster that calls it remote; it translates nothing. -/
def calledProxy : Proxy (Option (Children Empty)) String SampleData where
  toConnection := remoteSide .strict
  codec := sampleCodec
  enabled := true
  alreadySealedEncodings := []
  saTranslations := none

def sampleCall : Parcel (Option (Children Empty)) SampleData where
  message := namespaceRequest "local"
  payloads := [[plainDetail]]

def sampleWire : Parcel (Option (Children Empty)) SampleData where
  message := namespaceRequest "remote"
  payloads := [[sampleLib.toPayload ⟨"key", "dek", true, "remote", sampleLib.marshal plainDetail⟩]]

theorem namespaceRequest_isRequest (n : String) : IsRequest n (namespaceRequest n) :=
  ⟨_, _, rfl, by simp, .here ⟨"Namespace", true⟩ .empty rfl rfl⟩

end Samples

end EncryptedCalls
