import S2SProxy.WalkPlacement

/- The emitted visitor calls a handler for every part of a message that is due, apart from the
   search attributes that the options leave out. What the test for inertness does not look at is
   covered where no key comes twice on the way. -/
namespace PayloadVisitor
open MemoSearch PathTrie
variable {g : TypeGraph} {tables : PayloadTables} {getters : Getters} {opts : VisitOptions}

section Follow
variable {roots : List g.Msg} {text : Nat → String} {ctx : Context} {v x : Value} {visit : Visit g}
variable {tree child : Tree g}

theorem mem_followTypes (w : Option Value) {key : String} {step : Step g} :
    ∀ {forest : Forest g}, find key forest = some (step, child) →
      visit ∈ followStep tables opts text getters ctx w child step →
      visit ∈ followTypes tables opts text getters ctx w forest
  | .nil, found, _ => nomatch found
  | .cons other first node rest, found, made => by
    rw [followTypes_cons]
    by_cases same : other = key
    · simp only [find, same, ↓reduceIte, Option.some.injEq, Prod.mk.injEq] at found
      obtain ⟨rfl, rfl⟩ := found
      exact List.mem_append_left _ made
    · exact List.mem_append_right _ (mem_followTypes w (by simpa [find, same] using found) made)

theorem mem_follow (w : Option Value) {key : String} {step : Step g} {handlers : List (BoundHandler g)}
    {forest : Forest g} (found : find key forest = some (step, child))
    (made : visit ∈ followStep tables opts text getters ctx w child step) :
    visit ∈ follow tables opts text getters ctx w (.node handlers forest) :=
  List.mem_append_left _ (mem_followTypes w found made)

theorem wrapperName_eq (names : GoNames g) {path : VisitPath g} {m : g.Msg} {o : Oneof} {step : Step g}
    (grows : Grow roots (path ++ [Step.oneof m o]) step) : wrapperName step = step.goName := by
  have last : (path ++ [Step.oneof m o]).getLast? = some (.oneof m o) := by simp
  cases (grow_iff_next last step).mp grows with
  | member member inOneof =>
    exact (names.wrappers m _ member (by simp [inOneof])).trans (names.field member).symm

theorem followCases_find (names : GoNames g) (content : Value) {path : VisitPath g} {m : g.Msg}
    {o : Oneof} {member : String} {step : Step g} :
    ∀ {forest : Forest g}, PlacedUnder roots (path ++ [Step.oneof m o]) forest →
      find member forest = some (step, child) →
      followCases tables opts text getters ctx member content forest =
        follow tables opts text getters ctx (some content) child
  | .nil, _, found => nomatch found
  | .cons other first node rest, placed, found => by
    obtain ⟨⟨named, grows, -⟩, -, others⟩ := placed
    have wrapper : wrapperName first = other := (wrapperName_eq names grows).trans named.symm
    by_cases same : other = member
    · simp only [find, same, ↓reduceIte, Option.some.injEq, Prod.mk.injEq] at found
      simp only [followCases, wrapper, same, ↓reduceIte, getMember, found.2]
    · simp only [followCases, wrapper, same, ↓reduceIte]
      exact followCases_find names content others (by simpa [find, same] using found)

theorem follow_segment (names : GoNames g) {m : g.Msg} {f : Field g.size} {path more : VisitPath g}
    {b : BoundHandler g} (member : f ∈ g.fields m) (placed : PlacedAt roots path tree)
    (held : Holds Step.goName (segment m f ++ more) b tree) (content : x ∈ contents g v f) :
    ∃ child, Holds Step.goName more b child ∧ PlacedAt roots (path ++ segment m f) child ∧
      ∀ ctx, ∀ visit ∈ follow tables opts text getters ctx (some x) child,
        visit ∈ follow tables opts text getters ctx (some v) tree := by
  obtain ⟨handlers, forest⟩ := tree
  have named : f.fieldName = f.goField := names.field member
  unfold segment at held ⊢
  unfold contents at content
  cases inOneof : f.oneof with
  | none =>
    simp only [inOneof] at held content
    obtain ⟨child, found, below⟩ := held
    obtain ⟨-, -, placed⟩ := placedBelow_find placed.2 found
    refine ⟨child, below, placed, fun ctx visit made => mem_follow _ found ?_⟩
    by_cases single : f.shape = .singular
    · simp only [single, ↓reduceIte, Option.mem_toList] at content
      simpa [followStep, single, named, content] using made
    · simp only [single, ↓reduceIte] at content
      simp only [followStep, single, named, ↓reduceIte]
      exact List.mem_flatMap.mpr ⟨x, content, made⟩
  | some o =>
    have named' : o.fieldName = o.goField := names.oneof member inOneof
    simp only [inOneof] at held content
    obtain ⟨⟨inner, cases⟩, found, child, isMember, below⟩ := held
    obtain ⟨-, -, placedCases⟩ := placedBelow_find placed.2 found
    obtain ⟨-, -, placed⟩ := placedBelow_find placedCases.2 isMember
    refine ⟨child, below, by simpa using placed, fun ctx visit made => mem_follow _ found ?_⟩
    cases chosen : getOneof (some v) o.goField with
    | none => simp [chosen] at content
    | some held =>
      obtain ⟨which, it⟩ := held
      simp only [chosen] at content
      split at content
      · next same =>
        obtain rfl := List.mem_singleton.mp content
        have here : find which cases = some (.field m f, child) := by
          rw [same, ← named]
          exact isMember
        show visit ∈ followOneof tables opts text getters ctx (getOneof (some v) o.fieldName) _
        rw [named', chosen, followOneof, followCases_find names x placedCases.2 here]
        exact made
      · cases content

/- What is due is called where its path stands in the trie. -/
theorem Due.followed (names : GoNames g) {m : g.Msg} {h : Handler} {path : VisitPath g}
    (due : Due g tables m v h path x) {b : BoundHandler g} {before rest : VisitPath g} {call : Call}
    (starts : path = .message m :: rest) (placed : PlacedAt roots before tree)
    (held : Holds Step.goName rest b tree) (called : call ∈ invocation tables opts b (some x))
    (ctx : Context) :
    ∃ visit ∈ follow tables opts text getters ctx (some v) tree, visit.call = call := by
  have bound (ctx : Context) : ∃ visit ∈ invocationIn tables opts ctx b (some x), visit.call = call :=
    ⟨_, List.mem_map_of_mem called, rfl⟩
  induction due generalizing before rest tree ctx with
  | message _ =>
    obtain rfl : [] = rest := (List.cons.inj starts).2
    obtain ⟨handlers, forest⟩ := tree
    obtain ⟨visit, made, same⟩ := bound ctx
    exact ⟨visit, List.mem_append_right _ (List.mem_flatMap.mpr ⟨b, held, made⟩), same⟩
  | @field m v x h f openM member content handles =>
    obtain rfl : segment m f = rest := (List.cons.inj starts).2
    rw [← List.append_nil (segment m f)] at held
    obtain ⟨⟨handlers, forest⟩, below, -, followed⟩ := follow_segment names member placed held content
    obtain ⟨visit, made, same⟩ := bound ctx
    refine ⟨visit, followed ctx visit ?_, same⟩
    exact List.mem_append_right _ (List.mem_flatMap.mpr ⟨b, below, made⟩)
  | @deeper m t v x y h f path openM member content openF kind due ih =>
    obtain rfl : segment m f ++ path = rest := (List.cons.inj starts).2
    obtain ⟨⟨handlers, forest⟩, below, placed, followed⟩ := follow_segment names member placed held content
    obtain ⟨more, rfl⟩ := due.starts
    obtain ⟨child, found, deeper⟩ := below
    obtain ⟨-, -, placed⟩ := placedBelow_find placed.2 found
    obtain ⟨visit, made, same⟩ := ih rfl placed deeper called (narrow text getters t (some x) ctx) bound
    exact ⟨visit, followed ctx visit (mem_follow _ found made), same⟩

end Follow

section Built

theorem overlaps_none {seen names : List FullName} (none : overlaps seen names = []) :
    names.Nodup ∧ ∀ n ∈ names, n ∉ seen := by
  induction names generalizing seen with
  | nil => simp
  | cons name rest ih =>
    simp only [overlaps, List.append_eq_nil_iff] at none
    have new : name ∉ seen := by
      intro known
      simp [known] at none
    obtain ⟨distinct, others⟩ := ih none.2
    refine ⟨List.nodup_cons.mpr ⟨fun again => others name again List.mem_cons_self, distinct⟩, ?_⟩
    intro n member
    rcases List.mem_cons.mp member with rfl | later
    · exact new
    · exact fun known => others n later (List.mem_cons_of_mem _ known)

/- A field is in one table at most. -/
theorem separate_of_nodup (distinct : (tableNames tables).Nodup) : Separate g tables := by
  intro h m f handles
  have apart := (List.nodup_append.mp distinct).2.2
  have listed : g.fieldFullName m f ∈ tables.eventBlobs.keys ++ tables.opaques.keys ++ tables.helpers.keys := by
    cases h with
    | eventBlob =>
      have key : g.fieldFullName m f ∈ tables.eventBlobs.keys :=
        AList.lookup_isSome.mp (by simp [show tables.eventBlobs.lookup _ = some true from handles])
      simp [key]
    | opaqueField =>
      have key : g.fieldFullName m f ∈ tables.opaques.keys :=
        AList.lookup_isSome.mp (by simp [show tables.opaques.lookup _ = some true from handles])
      simp [key]
    | publicMessage => exact handles.elim
    | serverPayload => exact handles.elim
    | helper => exact handles.elim
  refine Bool.eq_false_iff.mpr fun ignored => ?_
  exact apart _ listed _ (AList.lookup_isSome.mp ignored) rfl

/-- What is known of an emitter that was built without an error. -/
structure Complete (g : TypeGraph) (tables : PayloadTables) (built : Built g) : Prop where
  separate : Separate g tables
  keyed : KeyedTree Step.goName built.emitter.root
  placed : PlacedAt (roots g tables) [] built.emitter.root
  covered : ∀ r ∈ roots g tables, Covered g tables [] [] r built.emitter

theorem newPayloadClassifier_ok {c : Classifier g}
    (ok : newPayloadClassifier g tables = .ok (getters, c)) :
    (tableNames tables).Nodup ∧ SoundMemos g tables c := by
  unfold newPayloadClassifier at ok
  rcases namespaceGetters g tables.namespaceIDs.entries with ⟨errs, found⟩
  simp only at ok
  split at ok
  · next none =>
    obtain ⟨rfl, rfl⟩ := Prod.mk.inj (Except.ok.inj ok)
    exact ⟨(overlaps_none (List.append_eq_nil_iff.mp none).1).1, freshClassifier_sound⟩
  · cases ok

theorem built_complete (apart : NamesApart (roots g tables)) {built : Built g}
    (ok : buildPayloads g tables = .ok built) : Complete g tables built := by
  obtain ⟨c, classified, same, none⟩ := buildPayloads_ok ok
  obtain ⟨distinct, sound⟩ := newPayloadClassifier_ok classified
  have walked : Walked (roots g tables) tables ⟨PathTrie.empty, [], c⟩
      (walkRoots g tables built.getters c) _ :=
    visitRoots_walked apart (roots g tables) (fun _ h => h) _ sound
  rw [same] at none
  refine ⟨separate_of_nodup distinct, ?_, built_placed apart ok, ?_⟩
  · rw [same]
    exact walked.grows.keyed trivial
  · rw [same]
    exact walked.found none

theorem generated_follows {roots : List g.Msg} {built : Built g}
    (keyed : KeyedTree Step.goName built.emitter.root) (placed : PlacedAt roots [] built.emitter.root)
    {r : g.Msg} {rest : VisitPath g} {b : BoundHandler g}
    (held : Holds Step.goName (.message r :: rest) b built.emitter.root) (text : Nat → String)
    (ctx : Context) (v : Value) :
    ∃ child, Holds Step.goName rest b child ∧ PlacedAt roots [.message r] child ∧
      visitAdminPayloads tables opts text ctx r v (generate built) =
        follow tables opts text built.getters (narrow text built.getters r (some v) ctx) (some v)
          child := by
  obtain ⟨getters, ⟨handlers, forest⟩, errs, c⟩ := built
  obtain ⟨child, found, below⟩ := held
  obtain ⟨-, -, placed⟩ := placedBelow_find placed.2 found
  refine ⟨child, below, placed, ?_⟩
  rw [generate, visitAdminPayloads_follows]
  exact followRoot_find getters ctx r v keyed found

end Built

/-- The test for inertness does not look at helpers, nor at fields of EventBlobs and Opaque that
    are not bytes, DataBlobs or Anys. -/
def Untested (g : TypeGraph) (h : Handler) (path : VisitPath g) : Prop :=
  h = .helper ∨ ∃ m f, path.getLast? = some (.field m f) ∧ isOpaqueKind g f = false

/-- Search attributes are left alone when the options say so. -/
def LeftReadable (opts : VisitOptions) (h : Handler) (path : VisitPath g) : Prop :=
  h = .serverPayload ∧ isSearchAttributes path = true ∧ opts.skipSearchAttributes = true

theorem invocation_calls {h : Handler} {path : VisitPath g} (visited : ¬LeftReadable opts h path)
    (w : Option Value) :
    ∃ call ∈ invocation tables opts ⟨h, path⟩ w, call.handler = h ∧ call.value = w := by
  cases h with
  | serverPayload =>
    have called : (isSearchAttributes path && opts.skipSearchAttributes) = false := by
      refine Bool.eq_false_iff.mpr fun both => visited ?_
      simp only [Bool.and_eq_true] at both
      exact ⟨rfl, both⟩
    simp [invocation, called]
  | publicMessage => simp [invocation]
  | eventBlob => simp [invocation]
  | opaqueField => simp [invocation]
  | helper => simp [invocation]

section Sample

theorem open_of_internal {m : g.Msg} (internal : g.isPublic m = false)
    (helpless : (tables.helpers.lookup (g.fullName m)).isSome = false) : OpenMessage g tables m := by
  refine ⟨internal, fun h handles => ?_⟩
  cases h with
  | publicMessage => cases internal.symm.trans handles.1
  | serverPayload =>
    have named : g.fullName m = payloadMessage := handles
    simp [TypeGraph.isPublic, named, payloadMessage, hasPublicAPIPrefix] at internal
  | helper => cases helpless.symm.trans handles
  | eventBlob => exact handles
  | opaqueField => exact handles

theorem open_of_unlisted {m : g.Msg} {f : Field g.size}
    (blob : tables.eventBlobs.lookup (g.fieldFullName m f) = none)
    (other : tables.opaques.lookup (g.fieldFullName m f) = none)
    (kept : isIgnored g tables m f = false) : OpenField g tables m f := by
  refine ⟨kept, fun h handles => ?_⟩
  cases h with
  | eventBlob => cases blob.symm.trans handles
  | opaqueField => cases other.symm.trans handles
  | publicMessage => exact handles
  | serverPayload => exact handles
  | helper => exact handles

/-- What is built from tables that are accepted. -/
def builtFrom (tables : PayloadTables) : Built g :=
  match buildPayloads g tables with
  | .ok built => built
  | .error _ => ⟨∅, PathTrie.empty, [], freshClassifier⟩

theorem builtFrom_ok (accepted : (buildPayloads g tables).isOk = true) :
    buildPayloads g tables = .ok (builtFrom tables) := by
  unfold builtFrom
  cases result : buildPayloads g tables with
  | ok built => rfl
  | error errs => cases (result ▸ accepted : (Except.error errs).isOk = true)

def samplePackage : FullName := ["temporal", "server", "api", "persistence", "v1"]

def nextField : Field 4 := ⟨"next", "next", "Next", none, .singular, .message 0⟩
def tagField : Field 4 := ⟨"tag", "tag", "Tag", some ⟨"kind", "Kind"⟩, .singular, .message 1⟩
def searchField : Field 4 :=
  ⟨"search_attributes", "searchAttributes", "SearchAttributes", none, .map, .message 3⟩

/-- A recursive message with a tag, which has a helper, and a request with search attributes. -/
def sampleMessages : List (Message 4) :=
  [⟨adminServicePackage, ["Node"], [nextField, tagField]⟩,
    ⟨samplePackage, ["Tag"], [⟨"name", "name", "Name", none, .singular, .string⟩]⟩,
    ⟨adminServicePackage, ["Request"], [searchField]⟩,
    ⟨["temporal", "api", "common", "v1"], ["Payload"],
      [⟨"data", "data", "Data", none, .singular, .bytes⟩]⟩]

def sampleGraph : TypeGraph where
  size := 4
  message := sampleMessages.get
  names := by decide

def sampleTables : PayloadTables :=
  ⟨∅, ∅, AList.singleton (samplePackage ++ ["Tag"]) ⟨"visitTag", []⟩, ∅, [], ∅⟩

def sampleNode : sampleGraph.Msg := (0 : Fin 4)
def sampleTag : sampleGraph.Msg := (1 : Fin 4)
def sampleRequest : sampleGraph.Msg := (2 : Fin 4)
def samplePayload : sampleGraph.Msg := (3 : Fin 4)

theorem sample_built : buildPayloads sampleGraph sampleTables = .ok (builtFrom sampleTables) :=
  builtFrom_ok (by decide +kernel)

theorem sample_idents : DistinctIdents (roots sampleGraph sampleTables) := by
  unfold DistinctIdents
  decide +kernel

theorem sample_names : GoNames sampleGraph := by
  constructor <;> decide +kernel

def holding (ptr : Nat) (field : String) (content : Value) : Value :=
  .message ptr (fun name => if name = field then [content] else []) fun _ => none

def emptyMessage (ptr : Nat) : Value := .message ptr (fun _ => []) fun _ => none

def taggedNode : Value :=
  .message 2 (fun _ => []) fun name => if name = "Kind" then some ("Tag", emptyMessage 3) else none
def outerNode : Value := holding 1 "Next" taggedNode
def searchRequest : Value := holding 4 "SearchAttributes" (emptyMessage 5)

theorem sample_open (m : sampleGraph.Msg) (internal : m = sampleNode ∨ m = sampleRequest) :
    OpenMessage sampleGraph sampleTables m := by
  rcases internal with rfl | rfl
  · exact open_of_internal (by decide) (by decide)
  · exact open_of_internal (by decide) (by decide)

theorem sample_deeper {m t : sampleGraph.Msg} {f : Field 4} {v x y : Value} {h : Handler}
    {path : VisitPath sampleGraph} (internal : m = sampleNode ∨ m = sampleRequest)
    (member : f ∈ sampleGraph.fields m) (content : x ∈ contents sampleGraph v f)
    (kind : f.kind = .message t) (due : Due sampleGraph sampleTables t x h path y) :
    Due sampleGraph sampleTables m v h (.message m :: (segment m f ++ path)) y :=
  .deeper (sample_open m internal) member content (open_of_unlisted rfl rfl rfl) kind due

def tagPath : VisitPath sampleGraph :=
  [.message sampleNode, .oneof sampleNode ⟨"kind", "Kind"⟩, .field sampleNode tagField,
    .message sampleTag]

def searchPath : VisitPath sampleGraph :=
  [.message sampleRequest, .field sampleRequest searchField, .message samplePayload]

theorem tag_due : Due sampleGraph sampleTables sampleNode taggedNode .helper tagPath (emptyMessage 3) :=
  sample_deeper (.inl rfl) (.tail _ (.head _)) (List.mem_singleton.mpr rfl) rfl
    (.message (show (sampleTables.helpers.lookup _).isSome = true by decide))

theorem inner_tag_due : Due sampleGraph sampleTables sampleNode outerNode .helper
    (.message sampleNode :: .field sampleNode nextField :: tagPath) (emptyMessage 3) :=
  sample_deeper (.inl rfl) (.head _) (List.mem_singleton.mpr rfl) rfl tag_due

theorem search_due : Due sampleGraph sampleTables sampleRequest searchRequest .serverPayload
    searchPath (emptyMessage 5) :=
  sample_deeper (.inr rfl) (.head _) (List.mem_singleton.mpr rfl) rfl
    (.message (show sampleGraph.fullName samplePayload = payloadMessage by decide))

def secondField : Field 2 := ⟨"FooBar", "FooBar", "FooBar_", none, .singular, .message 1⟩

/-- protoc-gen-go makes the names of the fields differ, and the walk computes FooBar for both. -/
def clashMessages : List (Message 2) :=
  [⟨adminServicePackage, ["Request"],
      [⟨"foo_bar", "fooBar", "FooBar", none, .singular, .message 1⟩, secondField]⟩,
    ⟨["temporal", "api", "common", "v1"], ["Payload"],
      [⟨"data", "data", "Data", none, .singular, .bytes⟩]⟩]

def clashGraph : TypeGraph where
  size := 2
  message := clashMessages.get
  names := by decide

def noTables : PayloadTables := ⟨∅, ∅, ∅, ∅, [], ∅⟩

def clashRequest : clashGraph.Msg := (0 : Fin 2)
def clashPayload : clashGraph.Msg := (1 : Fin 2)

def twoPayloads : Value :=
  .message 1 (fun name => if name = "FooBar" then [emptyMessage 2]
    else if name = "FooBar_" then [emptyMessage 3] else []) fun _ => none

def secondPath : VisitPath clashGraph :=
  [.message clashRequest, .field clashRequest secondField, .message clashPayload]

theorem second_due :
    Due clashGraph noTables clashRequest twoPayloads .serverPayload secondPath (emptyMessage 3) := by
  have entered : OpenMessage clashGraph noTables clashRequest := open_of_internal (by decide) (by decide)
  have payload : Due clashGraph noTables clashPayload (emptyMessage 3) .serverPayload
      [.message clashPayload] (emptyMessage 3) :=
    .message (show clashGraph.fullName clashPayload = payloadMessage by decide)
  exact .deeper entered (.tail _ (.head _)) (List.mem_singleton.mpr rfl) (open_of_unlisted rfl rfl rfl)
    rfl payload

def callsFor (tables : PayloadTables) (opts : VisitOptions) (m : g.Msg) (v : Value) : List Call :=
  (visitAdminPayloads tables opts (fun _ => "") none m v (generate (builtFrom tables))).map Visit.call

end Sample

theorem payload_visitor_covers (g : TypeGraph) (tables : PayloadTables)
    (idents : DistinctIdents (roots g tables)) (names : GoNames g) (built : Built g)
    (ok : buildPayloads g tables = .ok built) (opts : VisitOptions) (text : Nat → String)
    (ctx : Context) (r : g.Msg) (root : r ∈ roots g tables) (v x : Value) (h : Handler)
    (path : VisitPath g) (due : Due g tables r v h path x)
    (distinct : Untested g h path → (pathKeys path).Nodup) (visited : ¬LeftReadable opts h path) :
    ∃ visit ∈ visitAdminPayloads tables opts text ctx r v (generate built),
      visit.call.handler = h ∧ visit.call.value = some x := by
  have complete := built_complete ⟨idents, names⟩ ok
  obtain ⟨node, way, handles, last⟩ := due.way
  have live : Live g tables [] r path node := by
    rcases way.live_or_cut [] with live | ⟨cut, path', cutAt, rest⟩
    · exact live
    · have inert := (complete.covered r root).inert cut cutAt
      refine way.live [] (distinct ?_) (by simp)
      rcases rest.behind_inert complete.separate inert handles with helper | ⟨m, f, rfl, other⟩
      · exact .inl helper
      · exact .inr ⟨m, f, last, other⟩
  have held : Holds Step.goName path ⟨h, path⟩ built.emitter.root :=
    (complete.covered r root).held path node h live handles
  obtain ⟨rest, rfl⟩ := due.starts
  obtain ⟨child, below, placed, runs⟩ := generated_follows complete.keyed complete.placed held text ctx v
  obtain ⟨call, called, same⟩ := invocation_calls visited (some x)
  obtain ⟨visit, made, isCall⟩ := due.followed names rfl placed below called
    (narrow text built.getters r (some v) ctx)
  refine ⟨visit, ?_, ?_⟩
  · rw [runs]
    exact made
  · rw [isCall]
    exact same

/- The tag of a node, and the search attributes when they are not left out. -/
theorem payload_visitor_covers_sample :
    (∃ visit ∈ visitAdminPayloads sampleTables ⟨true⟩ (fun _ => "") none sampleNode taggedNode
        (generate (builtFrom sampleTables)),
      visit.call.handler = .helper ∧ visit.call.value = some (emptyMessage 3)) ∧
    (∃ visit ∈ visitAdminPayloads sampleTables ⟨false⟩ (fun _ => "") none sampleRequest searchRequest
        (generate (builtFrom sampleTables)),
      visit.call.handler = .serverPayload ∧ visit.call.value = some (emptyMessage 5)) := by
  constructor
  · refine payload_visitor_covers sampleGraph sampleTables sample_idents sample_names _ sample_built
      ⟨true⟩ _ none sampleNode (by decide) taggedNode (emptyMessage 3) .helper tagPath tag_due ?_ ?_
    · exact fun _ => by decide +kernel
    · exact fun left => nomatch left.1
  · refine payload_visitor_covers sampleGraph sampleTables sample_idents sample_names _ sample_built
      ⟨false⟩ _ none sampleRequest (by decide) searchRequest (emptyMessage 5) .serverPayload searchPath
      search_due ?_ ?_
    · exact fun _ => by decide +kernel
    · exact fun left => nomatch left.2.2

/- The inner node is where the recursion was cut as inert, the search attributes are left readable,
   and of two fields of one computed name the getter of the first is called for both. -/
theorem due_parts_not_visited :
    (DistinctIdents (roots sampleGraph sampleTables) ∧ GoNames sampleGraph ∧
      buildPayloads sampleGraph sampleTables = .ok (builtFrom sampleTables)) ∧
    (sampleNode ∈ roots sampleGraph sampleTables ∧
      Due sampleGraph sampleTables sampleNode outerNode .helper
        (.message sampleNode :: .field sampleNode nextField :: tagPath) (emptyMessage 3) ∧
      callsFor sampleTables ⟨false⟩ sampleNode outerNode = []) ∧
    (sampleRequest ∈ roots sampleGraph sampleTables ∧
      Due sampleGraph sampleTables sampleRequest searchRequest .serverPayload searchPath (emptyMessage 5) ∧
      callsFor sampleTables ⟨true⟩ sampleRequest searchRequest = []) ∧
    DistinctIdents (roots clashGraph noTables) ∧
    buildPayloads clashGraph noTables = .ok (builtFrom noTables) ∧
    clashRequest ∈ roots clashGraph noTables ∧
    Due clashGraph noTables clashRequest twoPayloads .serverPayload secondPath (emptyMessage 3) ∧
    (callsFor noTables ⟨false⟩ clashRequest twoPayloads).map (fun call => call.value.map Value.ptr) =
      [some 2, some 2] := by
  have noTag : (callsFor sampleTables ⟨false⟩ sampleNode outerNode).isEmpty = true := by decide +kernel
  have noPayload : (callsFor sampleTables ⟨true⟩ sampleRequest searchRequest).isEmpty = true := by
    decide +kernel
  have idents : DistinctIdents (roots clashGraph noTables) := by
    unfold DistinctIdents
    decide +kernel
  refine ⟨⟨sample_idents, sample_names, sample_built⟩, ⟨by decide, inner_tag_due, ?_⟩,
    ⟨by decide, search_due, ?_⟩, idents, builtFrom_ok (by decide +kernel), by decide, second_due,
    by decide +kernel⟩
  · exact List.isEmpty_iff.mp noTag
  · exact List.isEmpty_iff.mp noPayload

end PayloadVisitor
