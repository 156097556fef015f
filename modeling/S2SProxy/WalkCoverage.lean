import S2SProxy.PayloadDue

/- What the walk leaves in the emitter. The memos stay right, errors and trie only grow, and an
   emitter without errors holds the handlers of every node on a live way, while every message at
   which the walk was cut is inert. -/
namespace PayloadVisitor
open MemoSearch PathTrie
variable {g : TypeGraph} {tables : PayloadTables} {getters : Getters}

section Paths

/-- The steps that can follow a step. -/
inductive Next : Step g → Step g → Prop where
  | oneof {m : g.Msg} {f : Field g.size} {o : Oneof} : f ∈ g.fields m → f.oneof = some o →
      Next (.message m) (.oneof m o)
  | plain {m : g.Msg} {f : Field g.size} : f ∈ g.fields m → f.oneof = none →
      Next (.message m) (.field m f)
  | member {m : g.Msg} {f : Field g.size} {o : Oneof} : f ∈ g.fields m → f.oneof = some o →
      Next (.oneof m o) (.field m f)
  | target {m t : g.Msg} {f : Field g.size} : f.kind = .message t → Next (.field m f) (.message t)

theorem Next.member_of_message {m : g.Msg} {q : Step g} (next : Next (.message m) q) : q ∈ members m := by
  cases next with
  | oneof member inOneof => exact oneof_mem_members member inOneof
  | plain member _ => exact field_mem_members member

theorem Next.member_of_oneof {m : g.Msg} {o : Oneof} {q : Step g} (next : Next (.oneof m o) q) :
    q ∈ members m := by
  cases next with
  | member member _ => exact field_mem_members member

/- Steps that can follow one step differ in their names. -/
theorem next_distinct (names : GoNames g) (p q q' : Step g) (first : Next p q) (second : Next p q')
    (same : q.goName = q'.goName) : q = q' := by
  cases p with
  | message m => exact names.distinct m q first.member_of_message q' second.member_of_message same
  | oneof m o => exact names.distinct m q first.member_of_oneof q' second.member_of_oneof same
  | field m f =>
    cases first with
    | target kind =>
      cases second with
      | target kind' => rw [Kind.message.inj (kind.symm.trans kind')]

/-- A path of the types from one of the roots. -/
def Rooted (roots : List g.Msg) (path : VisitPath g) : Prop :=
  ∃ r ∈ roots, ∃ rest, path = .message r :: rest ∧ path.IsChain Next

def DistinctIdents (roots : List g.Msg) : Prop :=
  ∀ r ∈ roots, ∀ r' ∈ roots, g.goIdent r = g.goIdent r' → r = r'

/-- Neither two roots nor two members of a message share a node of the trie. -/
structure NamesApart (roots : List g.Msg) : Prop where
  idents : DistinctIdents roots
  members : GoNames g

variable {roots : List g.Msg}

theorem rooted_coherent (apart : NamesApart roots) {path other : VisitPath g}
    (first : Rooted roots path) (second : Rooted roots other) : Coherent Step.goName path other := by
  obtain ⟨r, member, rest, rfl, chain⟩ := first
  obtain ⟨r', member', rest', rfl, chain'⟩ := second
  intro same
  obtain rfl := apart.idents r member r' member' same
  exact ⟨rfl, coherent_of_chain (next_distinct apart.members) chain chain'⟩

theorem Rooted.extend {path more : VisitPath g} {last next : Step g} (h : Rooted roots path)
    (ends : path.getLast? = some last) (step : Next last next) (chain : (next :: more).IsChain Next) :
    Rooted roots (path ++ next :: more) := by
  obtain ⟨r, member, rest, rfl, before⟩ := h
  refine ⟨r, member, rest ++ next :: more, rfl, ?_⟩
  refine List.isChain_append.mpr ⟨before, chain, fun a isLast b isFirst => ?_⟩
  rw [ends, Option.mem_some_iff] at isLast
  simp only [List.head?_cons, Option.mem_some_iff] at isFirst
  subst isLast isFirst
  exact step

theorem rooted_segment {path : VisitPath g} {m : g.Msg} {f : Field g.size}
    (h : Rooted roots (path ++ [Step.message m])) (member : f ∈ g.fields m) :
    Rooted roots (path ++ [Step.message m] ++ segment m f) := by
  unfold segment
  split
  · next plain => exact h.extend (by simp) (.plain member plain) (.singleton _)
  · next name inOneof =>
    exact h.extend (by simp) (.oneof member inOneof)
      (List.isChain_cons_cons.mpr ⟨.member member inOneof, .singleton _⟩)

theorem segment_last (path : VisitPath g) (m : g.Msg) (f : Field g.size) :
    (path ++ segment m f).getLast? = some (.field m f) := by
  unfold segment
  cases f.oneof <;> simp

theorem rooted_target {path : VisitPath g} {m t : g.Msg} {f : Field g.size}
    (h : Rooted roots (path ++ segment m f)) (kind : f.kind = .message t) :
    Rooted roots (path ++ segment m f ++ [Step.message t]) :=
  h.extend (segment_last path m f) (.target kind) (.singleton _)

theorem Live.rooted {seen : List String} {m : g.Msg} {q : VisitPath g} {node : Step g}
    (live : Live g tables seen m q node) {path : VisitPath g} (h : Rooted roots (path ++ [Step.message m])) :
    Rooted roots (path ++ q) := by
  induction live generalizing path with
  | message _ => exact h
  | field _ _ member =>
    have longer := rooted_segment h member
    rwa [List.append_assoc] at longer
  | @deeper seen m t f q node _ _ member _ kind _ ih =>
    have longer := ih (rooted_target (rooted_segment h member) kind)
    simpa using longer

end Paths

section Offered
variable (roots : List g.Msg) {e e' e'' : Emitter g} {step : Step g} {path : VisitPath g}

/-- Nothing that was found is lost. -/
structure Grows (e e' : Emitter g) : Prop where
  errs : e'.errs = [] → e.errs = []
  holds : ∀ path b, Rooted roots path → Holds Step.goName path b e.root → Holds Step.goName path b e'.root
  keyed : KeyedTree Step.goName e.root → KeyedTree Step.goName e'.root

theorem Grows.refl (e : Emitter g) : Grows roots e e := ⟨id, fun _ _ _ h => h, id⟩

variable {roots}

theorem Grows.trans (first : Grows roots e e') (second : Grows roots e' e'') : Grows roots e e'' :=
  ⟨fun none => first.errs (second.errs none),
    fun path b rooted h => second.holds path b rooted (first.holds path b rooted h),
    fun h => second.keyed (first.keyed h)⟩

theorem matchField_iff {c : Classifier g} (sound : SoundMemos g tables c)
    (table : AList fun _ : FullName => Bool) (m : g.Msg) (f : Field g.size) :
    ((matchField table m f c).1 = true ↔ table.lookup (g.fieldFullName m f) = some true) ∧
      SoundMemos g tables (matchField table m f c).2 := by
  unfold matchField
  split
  · next found => exact ⟨iff_of_true rfl found, sound⟩
  · next missing => exact ⟨iff_of_false (by simp) missing, sound⟩

theorem includes_iff {c : Classifier g} (sound : SoundMemos g tables c) (h : Handler) (step : Step g) :
    ((includes tables c h step).1 = true ↔ Handles g tables h step) ∧
      SoundMemos g tables (includes tables c h step).2 := by
  cases h <;> cases step <;> try exact ⟨by simp [includes, Handles], sound⟩
  case publicMessage.message m =>
    obtain ⟨answer, kept⟩ := classifier_canReach sound m
    by_cases asked : g.isPublic m = true ∧ g.fullName m ≠ payloadMessage
    · have same : includes tables c .publicMessage (.message m) = c.canReachPayload m := if_pos asked
      rw [same, answer]
      exact ⟨⟨fun holds => ⟨asked.1, asked.2, holds⟩, fun all => all.2.2⟩, kept⟩
    · have same : includes tables c .publicMessage (.message m) = (false, c) := if_neg asked
      rw [same]
      exact ⟨iff_of_false (by simp) fun all => asked ⟨all.1, all.2.1⟩, sound⟩
  case eventBlob.field m f => exact matchField_iff sound tables.eventBlobs m f
  case opaqueField.field m f => exact matchField_iff sound tables.opaques m f
  case helper.message m =>
    simp only [includes]
    split
    · next found => exact ⟨iff_of_true rfl found, sound⟩
    · next missing => exact ⟨iff_of_false (by simp) missing, sound⟩

structure OfferedTo (roots : List g.Msg) (tables : PayloadTables) (hs : List Handler) (step : Step g)
    (path : VisitPath g) (e : Emitter g) (result : Bool × Emitter g) : Prop where
  sound : SoundMemos g tables result.2.classifier
  grows : Grows roots e result.2
  errs : result.2.errs = e.errs
  matched : result.1 = true ↔ ∃ h ∈ hs, Handles g tables h step
  held : ∀ h ∈ hs, Handles g tables h step → Holds Step.goName path ⟨h, path⟩ result.2.root

theorem grows_insert (apart : NamesApart roots) (rooted : Rooted roots path) (b : BoundHandler g)
    (e : Emitter g) : Grows roots e { e with root := PathTrie.insert Step.goName path b e.root } :=
  ⟨id, fun _ _ other held => holds_insert_other (rooted_coherent apart other rooted) held,
    keyed_insert path b⟩

theorem offerHandlers_offered (apart : NamesApart roots) (rooted : Rooted roots path)
    (hs : List Handler) (e : Emitter g) (sound : SoundMemos g tables e.classifier) :
    OfferedTo roots tables hs step path e (offerHandlers tables step path hs e) := by
  induction hs generalizing e with
  | nil => exact ⟨sound, .refl roots e, rfl, by simp [offerHandlers], by simp⟩
  | cons h rest ih =>
    obtain ⟨answer, kept⟩ := includes_iff sound h step
    rcases included : includes tables e.classifier h step with ⟨matched, c⟩
    rw [included] at answer kept
    cases matched with
    | false =>
      have unhandled : ¬Handles g tables h step := by
        intro yes
        cases answer.mpr yes
      have others := ih { e with classifier := c } kept
      simp only [offerHandlers, included, Bool.false_eq_true, ↓reduceIte, Bool.false_or]
      refine ⟨others.sound, ⟨others.grows.errs, others.grows.holds, others.grows.keyed⟩, others.errs, ?_, ?_⟩
      · rw [others.matched]
        simp [unhandled]
      · intro h' member handles
        rcases List.mem_cons.mp member with rfl | later
        · exact absurd handles unhandled
        · exact others.held h' later handles
    | true =>
      have handles := answer.mp rfl
      have inserted := grows_insert apart rooted ⟨h, path⟩ { e with classifier := c }
      have others := ih { e with
        classifier := c, root := PathTrie.insert Step.goName path ⟨h, path⟩ e.root } kept
      simp only [offerHandlers, included, ↓reduceIte, Bool.true_or]
      refine ⟨others.sound, ?_, others.errs, ?_, ?_⟩
      · have both := inserted.trans others.grows
        exact ⟨both.errs, both.holds, both.keyed⟩
      · exact iff_of_true rfl ⟨h, List.mem_cons_self, handles⟩
      · intro h' member handles'
        rcases List.mem_cons.mp member with rfl | later
        · exact others.grows.holds path _ rooted (holds_insert path _ e.root)
        · exact others.held h' later handles'

/-- The node is neither handled nor a place where the walk turns back. -/
def Open (g : TypeGraph) (tables : PayloadTables) : Step g → Prop
  | .message m => OpenMessage g tables m
  | .oneof _ _ => False
  | .field m f => OpenField g tables m f

structure Offered (roots : List g.Msg) (tables : PayloadTables) (step : Step g) (path : VisitPath g)
    (e : Emitter g) (result : Action × Emitter g) : Prop where
  sound : SoundMemos g tables result.2.classifier
  grows : Grows roots e result.2
  held : ∀ h, Handles g tables h step → Holds Step.goName path ⟨h, path⟩ result.2.root
  goes : result.2.errs = [] → Open g tables step → result.1 = .descend
  stays : result.1 ≠ .abort

theorem useGetter_memos (getters : Getters) (c : Classifier g) (step : Step g) :
    (useGetter getters c step).memos = c.memos := by
  cases step with
  | message m =>
    simp only [useGetter]
    split <;> rfl
  | oneof _ _ => rfl
  | field _ _ => rfl

theorem check_memos (step : Step g) (path : VisitPath g) (matched : Bool) (c : Classifier g) :
    (check tables getters step path matched c).classifier.memos = c.memos := by
  rw [← useGetter_memos getters c step]
  unfold check
  split
  · rfl
  · split
    · split <;> rfl
    · rfl
    · split
      · rfl
      · split <;> rfl

theorem check_open (path : VisitPath g) (c : Classifier g) (open_ : Open g tables step)
    (ok : (check tables getters step path false c).err = none) :
    (check tables getters step path false c).action = .descend := by
  cases step with
  | message m => simp [check, open_.internal]
  | oneof _ _ => exact open_.elim
  | field m f =>
    have kept := open_.kept
    cases data : isOpaqueKind g f with
    | true => simp [check, kept, data] at ok
    | false => simp [check, kept, data]

theorem check_not_abort (path : VisitPath g) (matched : Bool) (c : Classifier g) :
    (check tables getters step path matched c).action ≠ .abort := by
  unfold check
  split
  · simp
  · split
    · split <;> simp
    · simp
    · split
      · simp
      · split <;> simp

theorem open_unhandled (open_ : Open g tables step) (h : Handler) : ¬Handles g tables h step := by
  cases step with
  | message _ => exact open_.unhandled h
  | oneof _ _ => exact open_.elim
  | field _ _ => exact open_.unhandled h

theorem mem_handlers (h : Handler) : h ∈ handlers := by
  cases h <;> simp [handlers]

theorem visit_offered (apart : NamesApart roots) (rooted : Rooted roots path)
    (sound : SoundMemos g tables e.classifier) :
    Offered roots tables step path e (e.visit tables getters step path) := by
  rcases result : offerHandlers tables step path handlers e with ⟨matched, e'⟩
  have offered : OfferedTo roots tables handlers step path e (matched, e') :=
    result ▸ offerHandlers_offered apart rooted handlers e sound
  have unmatched (open_ : Open g tables step) : matched = false := by
    refine Bool.eq_false_iff.mpr fun yes => ?_
    obtain ⟨h, _, handles⟩ := offered.matched.mp yes
    exact open_unhandled open_ h handles
  obtain ⟨checked, same⟩ : ∃ checked, check tables getters step path matched e'.classifier = checked :=
    ⟨_, rfl⟩
  have kept : SoundMemos g tables checked.classifier := by
    rw [SoundMemos, ← same, check_memos]
    exact offered.sound
  have held (h : Handler) (handles : Handles g tables h step) :
      Holds Step.goName path ⟨h, path⟩ e'.root := offered.held h (mem_handlers h) handles
  simp only [Emitter.visit, result, same]
  cases err : checked.err with
  | some problem =>
    refine ⟨kept, ⟨?_, offered.grows.holds, offered.grows.keyed⟩, held, ?_, by simp⟩ <;> simp
  | none =>
    cases action : checked.action with
    | descend =>
      refine ⟨kept, ⟨offered.grows.errs, offered.grows.holds, offered.grows.keyed⟩, held, ?_, ?_⟩
      · intro _ open_
        simp [unmatched open_]
      · cases matched <;> simp
    | prune =>
      refine ⟨kept, ⟨offered.grows.errs, offered.grows.holds, offered.grows.keyed⟩, held, ?_, by simp⟩
      intro _ open_
      rw [unmatched open_] at same
      subst same
      cases action.symm.trans (check_open path e'.classifier open_ err)
    | abort =>
      subst same
      exact absurd action (check_not_abort path matched e'.classifier)

/- A cycle that is not inert is an error. -/
theorem visitCycle_offered (roots : List g.Msg) (m : g.Msg) (path : VisitPath g)
    (sound : SoundMemos g tables e.classifier) :
    SoundMemos g tables (e.visitCycle tables m path).classifier ∧
      Grows roots e (e.visitCycle tables m path) ∧
      ((e.visitCycle tables m path).errs = [] → Inert g tables m) := by
  obtain ⟨answer, kept⟩ := isInert_iff sound m
  rcases result : e.classifier.isInert tables m with ⟨inert, c⟩
  rw [result] at answer kept
  cases inert with
  | true =>
    simp only [Emitter.visitCycle, checkCycle, result, ↓reduceIte, Option.toList_none, List.append_nil]
    exact ⟨kept, ⟨id, fun _ _ _ h => h, id⟩, fun _ => answer.mp rfl⟩
  | false =>
    simp only [Emitter.visitCycle, checkCycle, result, Bool.false_eq_true, ↓reduceIte,
      Option.toList_some]
    refine ⟨kept, ⟨?_, fun _ _ _ h => h, id⟩, ?_⟩ <;> simp

end Offered

section Walked
variable {roots : List g.Msg} {e : Emitter g}

/-- The emitter has all that the walk from the message finds. -/
structure Covered (g : TypeGraph) (tables : PayloadTables) (seen : List String) (path : VisitPath g)
    (m : g.Msg) (e : Emitter g) : Prop where
  held : ∀ q node h, Live g tables seen m q node → Handles g tables h node →
    Holds Step.goName (path ++ q) ⟨h, path ++ q⟩ e.root
  inert : ∀ cut, Cut g tables seen m cut → Inert g tables cut

/-- What a walk does to the emitter. -/
structure Walked (roots : List g.Msg) (tables : PayloadTables) (e e' : Emitter g) (found : Prop) :
    Prop where
  sound : SoundMemos g tables e'.classifier
  grows : Grows roots e e'
  found : e'.errs = [] → found

theorem Covered.grows {seen : List String} {path : VisitPath g} {m : g.Msg} {e' : Emitter g}
    (h : Covered g tables seen path m e) (rooted : Rooted roots (path ++ [Step.message m]))
    (grows : Grows roots e e') : Covered g tables seen path m e' :=
  ⟨fun q node handler live handles =>
    grows.holds _ _ (live.rooted rooted) (h.held q node handler live handles), h.inert⟩

structure FieldCovered (g : TypeGraph) (tables : PayloadTables) (seen : List String) (path : VisitPath g)
    (m : g.Msg) (f : Field g.size) (e : Emitter g) : Prop where
  held : ∀ h, Handles g tables h (.field m f) →
    Holds Step.goName (path ++ segment m f) ⟨h, path ++ segment m f⟩ e.root
  target : OpenField g tables m f → ∀ t, f.kind = .message t →
    Covered g tables seen (path ++ segment m f) t e

theorem FieldCovered.grows {seen : List String} {path : VisitPath g} {m : g.Msg} {f : Field g.size}
    {e' : Emitter g} (h : FieldCovered g tables seen path m f e)
    (rooted : Rooted roots (path ++ segment m f)) (grows : Grows roots e e') :
    FieldCovered g tables seen path m f e' :=
  ⟨fun handler handles => grows.holds _ _ rooted (h.held handler handles),
    fun open_ t kind => (h.target open_ t kind).grows (rooted_target rooted kind) grows⟩

theorem Walked.cons {seen : List String} {path : VisitPath g} {m : g.Msg} {f : Field g.size}
    {rest : List (Field g.size)} {e' e'' : Emitter g} (rooted : Rooted roots (path ++ segment m f))
    (first : Walked roots tables e e' (FieldCovered g tables seen path m f e'))
    (others : Walked roots tables e' e'' (∀ f ∈ rest, FieldCovered g tables seen path m f e'')) :
    Walked roots tables e e'' (∀ f' ∈ f :: rest, FieldCovered g tables seen path m f' e'') := by
  refine ⟨others.sound, first.grows.trans others.grows, fun none f' member => ?_⟩
  rcases List.mem_cons.mp member with rfl | later
  · exact (first.found (others.grows.errs none)).grows rooted others.grows
  · exact others.found none f' later

section Field
variable {seen : List String} {m : g.Msg} {f : Field g.size} {path : VisitPath g} {action : Action}
variable {e' : Emitter g}

/- A field of another kind, or one where the walk turns back, has no message to go into. -/
theorem Offered.field_without
    (offered : Offered roots tables (.field m f) (path ++ segment m f) e (action, e'))
    (noTarget : e'.errs = [] → OpenField g tables m f → ∀ t, f.kind ≠ .message t) :
    Walked roots tables e e' (FieldCovered g tables seen path m f e') :=
  ⟨offered.sound, offered.grows, fun none =>
    ⟨offered.held, fun open_ t kind => absurd kind (noTarget none open_ t)⟩⟩

theorem Offered.field_entered
    (offered : Offered roots tables (.field m f) (path ++ segment m f) e (action, e'))
    (here : Rooted roots (path ++ segment m f)) {t : g.Msg} (kind : f.kind = .message t)
    {e'' : Emitter g}
    (inner : Walked roots tables e' e'' (Covered g tables seen (path ++ segment m f) t e'')) :
    Walked roots tables e e'' (FieldCovered g tables seen path m f e'') := by
  refine ⟨inner.sound, offered.grows.trans inner.grows, fun none => ⟨?_, ?_⟩⟩
  · intro h handles
    exact inner.grows.holds _ _ here (offered.held h handles)
  · intro _ t' kind'
    obtain rfl := Kind.message.inj (kind.symm.trans kind')
    exact inner.found none

end Field

theorem visitFields_walked (apart : NamesApart roots) {seen : List String} {m : g.Msg}
    {path : VisitPath g} {enter : VisitPath g → g.Msg → Emitter g → Emitter g}
    (entered : ∀ path t e, SoundMemos g tables e.classifier → Rooted roots (path ++ [Step.message t]) →
      Walked roots tables e (enter path t e) (Covered g tables seen path t (enter path t e)))
    (fields : List (Field g.size)) (rooted : ∀ f ∈ fields, Rooted roots (path ++ segment m f))
    (e : Emitter g) (sound : SoundMemos g tables e.classifier) :
    Walked roots tables e (visitFields tables getters enter m path fields e)
      (∀ f ∈ fields, FieldCovered g tables seen path m f
        (visitFields tables getters enter m path fields e)) := by
  induction fields generalizing e with
  | nil => exact ⟨sound, .refl roots e, by simp⟩
  | cons f rest ih =>
    have here := rooted f List.mem_cons_self
    have later := ih fun f' member => rooted f' (List.mem_cons_of_mem f member)
    have offered : Offered roots tables (.field m f) (path ++ segment m f) e
        (e.visit tables getters (.field m f) (path ++ segment m f)) := visit_offered apart here sound
    rcases visited : e.visit tables getters (.field m f) (path ++ segment m f) with ⟨action, e'⟩
    rw [visited] at offered
    cases action with
    | abort => exact absurd rfl offered.stays
    | prune =>
      have shut : e'.errs = [] → ¬OpenField g tables m f := by
        intro none open_
        cases offered.goes none open_
      simp only [visitFields, visited]
      exact .cons here (offered.field_without fun none open_ => absurd open_ (shut none))
        (later e' offered.sound)
    | descend =>
      cases kind : f.kind with
      | message t =>
        have inner := entered (path ++ segment m f) t e' offered.sound (rooted_target here kind)
        simp only [visitFields, visited, kind]
        exact .cons here (offered.field_entered here kind inner) (later _ inner.sound)
      | bytes | string | scalar =>
        simp only [visitFields, visited, kind]
        exact .cons here (offered.field_without fun _ _ t => by simp [kind]) (later e' offered.sound)

def allKeys (g : TypeGraph) : Finset String := Finset.univ.image g.seenKey

section Message
variable {seen : List String} {path : VisitPath g} {m : g.Msg}

theorem covered_of_seen (known : g.seenKey m ∈ seen) (inert : Inert g tables m) :
    Covered g tables seen path m e := by
  constructor
  · intro q node h live _
    cases live with
    | message new => exact absurd known new
    | field new _ _ => exact absurd known new
    | deeper new _ _ _ _ _ => exact absurd known new
  · intro cut cutAt
    cases cutAt with
    | here _ => exact inert
    | deeper new _ _ _ _ _ => exact absurd known new

/- Where the walk does not go into the message, nothing below it is on a live way. -/
theorem covered_of_shut (new : g.seenKey m ∉ seen) (shut : ¬OpenMessage g tables m)
    (held : ∀ h, Handles g tables h (.message m) →
      Holds Step.goName (path ++ [Step.message m]) ⟨h, path ++ [Step.message m]⟩ e.root) :
    Covered g tables seen path m e := by
  constructor
  · intro q node h live handles
    cases live with
    | message _ => exact held h handles
    | field _ open_ _ => exact absurd open_ shut
    | deeper _ open_ _ _ _ _ => exact absurd open_ shut
  · intro cut cutAt
    cases cutAt with
    | here again => exact absurd again new
    | deeper _ open_ _ _ _ _ => exact absurd open_ shut

theorem covered_of_fields (new : g.seenKey m ∉ seen)
    (held : ∀ h, Handles g tables h (.message m) →
      Holds Step.goName (path ++ [Step.message m]) ⟨h, path ++ [Step.message m]⟩ e.root)
    (fields : ∀ f ∈ g.fields m,
      FieldCovered g tables (g.seenKey m :: seen) (path ++ [Step.message m]) m f e) :
    Covered g tables seen path m e := by
  constructor
  · intro q node h live handles
    cases live with
    | message _ => exact held h handles
    | field _ _ member =>
      have found := (fields _ member).held h handles
      rwa [List.append_assoc] at found
    | deeper _ _ member openF kind live =>
      have found := ((fields _ member).target openF _ kind).held _ node h live handles
      simpa using found
  · intro cut cutAt
    cases cutAt with
    | here again => exact absurd again new
    | deeper _ _ member openF kind cutAt =>
      exact ((fields _ member).target openF _ kind).inert cut cutAt

end Message

theorem visit_walked (apart : NamesApart roots) (fuel : Nat) (seen : List String)
    (enough : room (allKeys g) seen < fuel) (path : VisitPath g) (m : g.Msg) (e : Emitter g)
    (sound : SoundMemos g tables e.classifier) (rooted : Rooted roots (path ++ [Step.message m])) :
    Walked roots tables e (visit tables getters fuel seen path m e)
      (Covered g tables seen path m (visit tables getters fuel seen path m e)) := by
  induction fuel generalizing seen path m e with
  | zero => omega
  | succ fuel ih =>
    by_cases known : g.seenKey m ∈ seen
    · obtain ⟨kept, grows, inert⟩ := visitCycle_offered roots m (path ++ [Step.message m]) sound
      simp only [visit, known, ↓reduceIte]
      exact ⟨kept, grows, fun none => covered_of_seen known (inert none)⟩
    · have offered : Offered roots tables (.message m) (path ++ [Step.message m]) e
          (e.visit tables getters (.message m) (path ++ [Step.message m])) := visit_offered apart rooted sound
      rcases visited : e.visit tables getters (.message m) (path ++ [Step.message m]) with ⟨action, e'⟩
      rw [visited] at offered
      have less : room (allKeys g) (g.seenKey m :: seen) < room (allKeys g) seen :=
        room_cons (Finset.mem_image_of_mem _ (Finset.mem_univ m)) known
      have turned (back : action ≠ .descend) :
          Walked roots tables e e' (Covered g tables seen path m e') :=
        ⟨offered.sound, offered.grows, fun none =>
          covered_of_shut known (fun open_ => back (offered.goes none open_)) offered.held⟩
      cases action with
      | prune | abort =>
        simp only [visit, known, ↓reduceIte, visited]
        exact turned (by simp)
      | descend =>
        have walked : Walked roots tables e' (visitFields tables getters
            (visit tables getters fuel (g.seenKey m :: seen)) m (path ++ [Step.message m]) (g.fields m) e') _ :=
          visitFields_walked apart (ih (g.seenKey m :: seen) (by omega)) (g.fields m)
            (fun f member => rooted_segment rooted member) e' offered.sound
        simp only [visit, known, ↓reduceIte, visited]
        refine ⟨walked.sound, offered.grows.trans walked.grows, fun none => ?_⟩
        apply covered_of_fields known
        · intro h handles
          exact walked.grows.holds _ _ rooted (offered.held h handles)
        · exact walked.found none

theorem visitRoot_walked (apart : NamesApart roots) {r : g.Msg} (member : r ∈ roots)
    (sound : SoundMemos g tables e.classifier) :
    Walked roots tables e (e.visitRoot tables getters r)
      (Covered g tables [] [] r (e.visitRoot tables getters r)) := by
  have enough : room (allKeys g) [] < g.size + 1 := by
    have fewer : (allKeys g).card ≤ g.size := by
      simpa [allKeys] using (Finset.card_image_le : (Finset.univ.image g.seenKey).card ≤ Finset.univ.card)
    simpa [room] using Nat.lt_succ_of_le fewer
  exact visit_walked apart _ [] enough [] r e sound ⟨r, member, [], rfl, .singleton _⟩

theorem visitRoots_walked (apart : NamesApart roots) (rs : List g.Msg) (among : rs ⊆ roots)
    (e : Emitter g) (sound : SoundMemos g tables e.classifier) :
    Walked roots tables e (rs.foldl (fun e m => e.visitRoot tables getters m) e)
      (∀ r ∈ rs, Covered g tables [] [] r (rs.foldl (fun e m => e.visitRoot tables getters m) e)) := by
  induction rs generalizing e with
  | nil => exact ⟨sound, .refl roots e, by simp⟩
  | cons r rest ih =>
    have member : r ∈ roots := among List.mem_cons_self
    have first : Walked roots tables e (e.visitRoot tables getters r) _ :=
      visitRoot_walked apart member sound
    have others := ih (fun r' later => among (List.mem_cons_of_mem r later)) _ first.sound
    rw [List.foldl_cons]
    refine ⟨others.sound, first.grows.trans others.grows, fun none r' listed => ?_⟩
    rcases List.mem_cons.mp listed with rfl | later
    · have rooted : Rooted roots ([] ++ [Step.message r']) := ⟨r', member, [], rfl, .singleton _⟩
      exact (first.found (others.grows.errs none)).grows rooted others.grows
    · exact others.found none r' later

end Walked

end PayloadVisitor
