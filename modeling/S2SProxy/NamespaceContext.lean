import S2SProxy.PayloadCoverage

/- The context in which the emitted visitor calls a handler. A call is made for a part of the message
   that the path of the handler leads to, with just the messages of that path around it, and the
   context has been narrowed by each of them that names a namespace ID. -/
namespace PayloadVisitor
open MemoSearch PathTrie
variable {g : TypeGraph} {tables : PayloadTables} {getters : Getters} {opts : VisitOptions}

section Enclosing

/-- The values of a field, as the getter gives them: a message that is not set is nil. -/
def readings (x : Option Value) (f : Field g.size) : List (Option Value) :=
  if f.shape = .singular then [(getField x f.goField).head?] else (getField x f.goField).map some

variable (g) (tables)

/-- A part of a message, with the messages it is in, the nearest first. A message is in itself. -/
structure Place where
  value : Option Value
  enclosing : List (g.Msg × Option Value)

variable {g}

/-- The parts that a path leads to, one for each way through lists and maps; of a oneof only the
    member that is set. -/
def placesAlong : VisitPath g → Option Value → List (g.Msg × Option Value) → List (Place g)
  | [], x, enclosing => [⟨x, enclosing⟩]
  | .message t :: rest, x, enclosing => placesAlong rest x ((t, x) :: enclosing)
  | .field _ f :: rest, x, enclosing => (readings x f).flatMap fun y => placesAlong rest y enclosing
  | .oneof _ o :: .field _ f :: rest, x, enclosing =>
    match getOneof x o.goField with
    | none => []
    | some (member, y) => if member = f.goField then placesAlong rest (some y) enclosing else []
  | .oneof _ _ :: _, _, _ => []

def places (r : g.Msg) (v : Value) (path : VisitPath g) : List (Place g) :=
  if path.head? = some (.message r) then placesAlong path (some v) [] else []

variable (g)

/-- The field that names the namespace ID of a message: its entry of NamespaceIDs, or a string field
    namespace_id of its own. -/
def namespaceIDField (m : g.Msg) : Option (List String) :=
  match tables.namespaceIDs.lookup (g.fullName m) with
  | some path => some path
  | none =>
    match (g.fields m).find? fun f => f.name = "namespace_id" with
    | none => none
    | some f => if f.kind = .string ∧ f.shape = .singular then some ["namespace_id"] else none

/-- The value of the field at a path of field names. -/
def fieldAt : g.Msg → List String → Option Value → Option Value
  | _, [], x => x
  | m, part :: rest, x =>
    match (g.fields m).find? fun f => f.name = part with
    | none => none
    | some f =>
      match f.kind with
      | .message t => fieldAt t rest (getField x f.goField).head?
      | .bytes | .string | .scalar => (getField x f.goField).head?

def namespaceIDOf (text : Nat → String) (m : g.Msg) (x : Option Value) : Option String :=
  (namespaceIDField g tables m).map fun path => readString text (fieldAt g m path x)

/-- The namespace ID of the nearest of the messages that names one. -/
def nearestID (text : Nat → String) (enclosing : List (g.Msg × Option Value)) : Option String :=
  enclosing.findSome? fun message => namespaceIDOf g tables text message.1 message.2

/-- The Go code of a message with a field namespace_id has the getter GetNamespaceId for it. -/
def NamespaceGetter : Prop :=
  ∀ m, ∀ f ∈ g.fields m, f.name = "namespace_id" → f.goField = "NamespaceId"

end Enclosing

section Getters

theorem getterField_get (name : String) : getterField ("Get" ++ name) = name := by
  simp [getterField, String.toList_append]

/- A path that is accepted ends in a string field, and goes through singular messages to it. -/
theorem getterChain_cons {name : FullName} {m : g.Msg} {part : String} {rest chain : List String}
    (ok : getterChain g name m (part :: rest) = .ok chain) :
    ∃ f, (g.fields m).find? (fun f => f.name = part) = some f ∧
      ((f.kind = .string ∧ rest = [] ∧ chain = ["Get" ++ f.fieldName]) ∨
        ∃ t tail, f.kind = .message t ∧ getterChain g name t rest = .ok tail ∧
          chain = ("Get" ++ f.fieldName) :: tail) := by
  rw [getterChain] at ok
  split at ok
  · cases ok
  · next f found =>
    refine ⟨f, found, ?_⟩
    split at ok
    · split at ok
      · next kind => exact .inl ⟨kind, rfl, (Except.ok.inj ok).symm⟩
      · cases ok
      · next others _ _ t _ kind =>
        cases below : getterChain g name t others with
        | error err => simp [below, Except.map] at ok
        | ok tail =>
          rw [below] at ok
          exact .inr ⟨t, tail, kind, below, (Except.ok.inj ok).symm⟩
      · cases ok
    · cases ok

theorem getterChain_reads (names : GoNames g) {name : FullName} {m : g.Msg} {path chain : List String}
    (ok : getterChain g name m path = .ok chain) (x : Option Value) :
    readGetters x chain = fieldAt g m path x := by
  induction path generalizing m chain x with
  | nil =>
    obtain rfl := Except.ok.inj ok
    rfl
  | cons part rest ih =>
    obtain ⟨f, found, last | deeper⟩ := getterChain_cons ok
    · have named := names.field (List.mem_of_find?_eq_some found)
      obtain ⟨kind, -, rfl⟩ := last
      simp only [fieldAt, found, kind, readGetters, getterField_get, named]
    · have named := names.field (List.mem_of_find?_eq_some found)
      obtain ⟨t, tail, kind, below, rfl⟩ := deeper
      simp only [fieldAt, found, kind, readGetters, getterField_get, named]
      exact ih below _

theorem namespaceGetters_lookup {entries : List (Sigma fun _ : FullName => List String)}
    (accepted : (namespaceGetters g entries).1 = []) (name : FullName) :
    (entries.dlookup name = none → (namespaceGetters g entries).2.lookup name = none) ∧
      ∀ path, entries.dlookup name = some path → ∃ chain, namespaceIDGetter g name path = .ok chain ∧
        (namespaceGetters g entries).2.lookup name = some chain := by
  induction entries with
  | nil => exact ⟨fun _ => rfl, fun _ found => nomatch found⟩
  | cons entry rest ih =>
    obtain ⟨key, path⟩ := entry
    rcases others : namespaceGetters g rest with ⟨errs, getters⟩
    rw [others] at ih
    cases result : namespaceIDGetter g key path with
    | error err => simp [namespaceGetters, others, result] at accepted
    | ok chain =>
      simp only [namespaceGetters, others, result] at accepted ⊢
      by_cases same : name = key
      · subst same
        rw [List.dlookup_cons_eq, AList.lookup_insert]
        refine ⟨fun missing => (nomatch missing), fun path' found => ⟨chain, ?_, rfl⟩⟩
        rw [← Option.some.inj found]
        exact result
      · rw [List.dlookup_cons_ne _ _ same, AList.lookup_insert_ne same]
        exact ih accepted

theorem find_fullName {m m' : g.Msg} (found : g.find (g.fullName m) = some m') : m' = m := by
  have same := List.find?_some found
  exact g.names (of_decide_eq_true same)

theorem buildPayloads_getters {built : Built g} (ok : buildPayloads g tables = .ok built) :
    built.getters = (namespaceGetters g tables.namespaceIDs.entries).2 ∧
      (namespaceGetters g tables.namespaceIDs.entries).1 = [] := by
  obtain ⟨c, classified, _, _⟩ := buildPayloads_ok ok
  unfold newPayloadClassifier at classified
  simp only at classified
  split at classified
  · next clean =>
    exact ⟨(Prod.mk.inj (Except.ok.inj classified)).1.symm, (List.append_eq_nil_iff.mp clean).2⟩
  · cases classified

/-- The block that is emitted for a message reads the ID that its type names. -/
def ReadsNamed (g : TypeGraph) (tables : PayloadTables) (getters : Getters) (text : Nat → String) : Prop :=
  ∀ (m : g.Msg) x ctx, narrow text getters m x ctx = (namespaceIDOf g tables text m x).or ctx

theorem built_readsNamed (names : GoNames g) (getter : NamespaceGetter g) {built : Built g}
    (ok : buildPayloads g tables = .ok built) (text : Nat → String) :
    ReadsNamed g tables built.getters text := by
  intro m x ctx
  obtain ⟨same, accepted⟩ := buildPayloads_getters ok
  obtain ⟨unlisted, listed⟩ := namespaceGetters_lookup accepted (g.fullName m)
  rw [← same] at unlisted listed
  unfold narrow namespaceScope namespaceIDOf namespaceIDField
  cases entry : tables.namespaceIDs.lookup (g.fullName m) with
  | some path =>
    obtain ⟨chain, chained, found⟩ := listed path entry
    unfold namespaceIDGetter at chained
    split at chained
    · cases chained
    · next m' known =>
      rw [find_fullName known] at chained
      rw [found]
      simp only [getterChain_reads names chained x, Option.map_some, Option.some_or]
  | none =>
    rw [unlisted entry]
    cases own : (g.fields m).find? fun f => f.name = "namespace_id" with
    | none => simp only [Option.map_none, Option.none_or]
    | some f =>
      by_cases fits : f.kind = .string ∧ f.shape = .singular
      · have isNamed : f.name = "namespace_id" := by simpa using List.find?_some own
        have named : f.goField = "NamespaceId" := getter m f (List.mem_of_find?_eq_some own) isNamed
        have reads : getterField "GetNamespaceId" = "NamespaceId" := getterField_get "NamespaceId"
        simp only [fits, and_self, ↓reduceIte, Option.map_some, Option.some_or, fieldAt, own, readGetters,
          reads, named]
      · simp only [fits, ↓reduceIte, Option.map_none, Option.none_or]

end Getters

section Calls
variable {roots : List g.Msg} {text : Nat → String} {ctx : Context} {b : BoundHandler g}

def callsOf (b : BoundHandler g) (visits : List (Visit g)) : List (Visit g) :=
  visits.filter fun visit => visit.handler = b

/-- A handler that is bound n times makes its calls for a place, in the context of the namespace ID
    nearest to it. -/
def callsAt (tables : PayloadTables) (opts : VisitOptions) (text : Nat → String) (ctx : Context) (n : Nat)
    (b : BoundHandler g) (place : Place g) : List (Visit g) :=
  (List.replicate n
    (invocationIn tables opts ((nearestID g tables text place.enclosing).or ctx) b place.value)).flatten

theorem callsOf_append (first second : List (Visit g)) :
    callsOf b (first ++ second) = callsOf b first ++ callsOf b second :=
  List.filter_append ..

theorem callsOf_none {visits : List (Visit g)} (others : ∀ visit ∈ visits, visit.handler ≠ b) :
    callsOf b visits = [] :=
  List.filter_eq_nil_iff.mpr fun visit member => by simpa using others visit member

theorem callsOf_invocationIn (ctx : Context) (h : BoundHandler g) (x : Option Value) :
    callsOf b (invocationIn tables opts ctx h x) =
      if h = b then invocationIn tables opts ctx b x else [] := by
  by_cases same : h = b
  · subst same
    simp [callsOf, invocationIn, List.filter_map, Function.comp_def]
  · simp [callsOf, invocationIn, List.filter_map, Function.comp_def, same]

theorem callsOf_handlers (ctx : Context) (x : Option Value) (handlers : List (BoundHandler g)) :
    callsOf b (handlers.flatMap fun h => invocationIn tables opts ctx h x) =
      (List.replicate (handlers.count b) (invocationIn tables opts ctx b x)).flatten := by
  induction handlers with
  | nil => rfl
  | cons h rest ih =>
    rw [List.flatMap_cons, callsOf_append, ih, callsOf_invocationIn]
    by_cases same : h = b
    · simp [same, List.replicate_succ]
    · simp [same]

def followChosen (tables : PayloadTables) (opts : VisitOptions) (text : Nat → String) (getters : Getters)
    (ctx : Context) (x : Option Value) (o : Oneof) (forest : Forest g) : List (Visit g) :=
  match getOneof x o.fieldName with
  | none => []
  | some (member, content) => followCases tables opts text getters ctx member content forest

theorem followStep_oneof (ctx : Context) (x : Option Value) (handlers : List (BoundHandler g))
    (children : Forest g) (m : g.Msg) (o : Oneof) :
    followStep tables opts text getters ctx x (.node handlers children) (.oneof m o) =
      followChosen tables opts text getters ctx x o children := by
  rw [followStep, followChosen]
  cases getOneof x o.fieldName <;> rfl

mutual
theorem handler_of_follow (ctx : Context) (x : Option Value) {visit : Visit g} :
    ∀ tree : Tree g, visit ∈ follow tables opts text getters ctx x tree →
      visit.handler ∈ handlersIn tree
  | .node handlers children, made => by
    rw [follow] at made
    rw [handlersIn]
    rcases List.mem_append.mp made with deeper | here
    · exact List.mem_append_right _ (handler_of_followTypes ctx x children deeper)
    · obtain ⟨h, member, called⟩ := List.mem_flatMap.mp here
      obtain ⟨call, -, rfl⟩ := List.mem_map.mp called
      exact List.mem_append_left _ member
theorem handler_of_followTypes (ctx : Context) (x : Option Value) {visit : Visit g} :
    ∀ forest : Forest g, visit ∈ followTypes tables opts text getters ctx x forest →
      visit.handler ∈ handlersBelow forest
  | .nil, made => by simp [followTypes] at made
  | .cons key step (.node handlers children) rest, made => by
    rw [followTypes_cons] at made
    rw [handlersBelow]
    rcases List.mem_append.mp made with here | later
    · refine List.mem_append_left _ ?_
      cases step with
      | field m f =>
        simp only [followStep] at here
        split at here
        · exact handler_of_follow ctx _ (.node handlers children) here
        · obtain ⟨item, -, inside⟩ := List.mem_flatMap.mp here
          exact handler_of_follow ctx _ (.node handlers children) inside
      | oneof m o =>
        rw [followStep_oneof, followChosen] at here
        split at here
        · cases here
        · rw [handlersIn]
          exact List.mem_append_right _ (handler_of_followCases ctx _ _ children here)
      | message t => exact handler_of_follow _ x (.node handlers children) here
    · exact List.mem_append_right _ (handler_of_followTypes ctx x rest later)
theorem handler_of_followCases (ctx : Context) (member : String) (content : Value) {visit : Visit g} :
    ∀ forest : Forest g, visit ∈ followCases tables opts text getters ctx member content forest →
      visit.handler ∈ handlersBelow forest
  | .nil, made => by simp [followCases] at made
  | .cons key _ child rest, made => by
    rw [followCases] at made
    rw [handlersBelow]
    split at made
    · exact List.mem_append_left _ (handler_of_follow ctx _ child made)
    · exact List.mem_append_right _ (handler_of_followCases ctx member content rest made)
end

theorem handler_of_followStep {x : Option Value} {step : Step g} {child : Tree g} {visit : Visit g}
    (made : visit ∈ followStep tables opts text getters ctx x child step) :
    visit.handler ∈ handlersIn child := by
  have listed : visit ∈ followTypes tables opts text getters ctx x (.cons "" step child .nil) := by
    rw [followTypes_cons]
    exact List.mem_append_left _ made
  simpa [handlersBelow] using handler_of_followTypes ctx x _ listed

theorem handler_of_followChosen {x : Option Value} {o : Oneof} {forest : Forest g} {visit : Visit g}
    (made : visit ∈ followChosen tables opts text getters ctx x o forest) :
    visit.handler ∈ handlersBelow forest := by
  unfold followChosen at made
  split at made
  · cases made
  · exact handler_of_followCases ctx _ _ forest made

theorem nearestID_cons (reads : ReadsNamed g tables getters text) (t : g.Msg) (x : Option Value)
    (enclosing : List (g.Msg × Option Value)) (ctx : Context) :
    narrow text getters t x ((nearestID g tables text enclosing).or ctx) =
      (nearestID g tables text ((t, x) :: enclosing)).or ctx := by
  simp only [reads t, nearestID, List.findSome?_cons]
  cases namespaceIDOf g tables text t x <;> rfl

/-- The calls of a handler that is bound n times, for every value they are made on, are those for
    the places that the rest of its path leads to. -/
def ExactBelow (tables : PayloadTables) (b : BoundHandler g) (more : VisitPath g) (n : Nat)
    (calls : VisitOptions → (Nat → String) → Context → Option Value → List (Visit g)) : Prop :=
  ∀ opts text ctx x enclosing,
    callsOf b (calls opts text ((nearestID g tables text enclosing).or ctx) x) =
      (placesAlong more x enclosing).flatMap (callsAt tables opts text ctx n b)

theorem callsAt_zero (ps : List (Place g)) : ps.flatMap (callsAt tables opts text ctx 0 b) = [] := by
  simp [callsAt]

theorem callsOf_flatMap {α : Type} (items : List α) (calls : α → List (Visit g)) :
    callsOf b (items.flatMap calls) = items.flatMap fun item => callsOf b (calls item) :=
  List.filter_flatMap ..

theorem placesAlong_unset (m : g.Msg) {o : Oneof} {step : Step g} (rest : VisitPath g)
    {x : Option Value} (enclosing : List (g.Msg × Option Value)) {held : String × Value}
    (chosen : getOneof x o.goField = some held) (unset : held.1 ≠ step.goField) :
    placesAlong (.oneof m o :: step :: rest) x enclosing = [] := by
  cases step with
  | field m' f =>
    have other : held.1 ≠ f.goField := unset
    simp [placesAlong, chosen, other]
  | message t => rfl
  | oneof m' o' => rfl

/- A step of the trie goes by the name of the Go code. -/
theorem grow_named (names : GoNames g) {path : VisitPath g} {step : Step g} (grows : Grow roots path step) :
    step.goName = step.goField := by
  unfold Grow at grows
  split at grows
  · obtain ⟨r, -, rfl⟩ := grows
    rfl
  · cases grows with
    | oneof member inOneof => exact names.oneof member inOneof
    | plain member _ => exact names.field member
    | member member _ => exact names.field member
    | target _ => rfl

theorem followStep_exact {more : VisitPath g} {n : Nat} {step : Step g} {child : Tree g}
    (reads : ∀ text, ReadsNamed g tables getters text) (named : step.goName = step.goField)
    (entered : ∀ m o, step ≠ .oneof m o)
    (inner : ExactBelow tables b more n fun opts text ctx x => follow tables opts text getters ctx x child) :
    ExactBelow tables b (step :: more) n
      fun opts text ctx x => followStep tables opts text getters ctx x child step := by
  intro opts text ctx x enclosing
  cases step with
  | field m f =>
    have named : f.fieldName = f.goField := named
    by_cases single : f.shape = .singular
    · simp only [followStep, placesAlong, readings, named, single, ↓reduceIte, List.flatMap_cons,
        List.flatMap_nil, List.append_nil]
      exact inner opts text ctx _ enclosing
    · have items := fun item => inner opts text ctx (some item) enclosing
      simp only [followStep, placesAlong, readings, named, single, ↓reduceIte, callsOf_flatMap, items,
        List.flatMap_map, List.flatMap_assoc]
  | oneof m o => exact absurd rfl (entered m o)
  | message t =>
    simp only [followStep, placesAlong, nearestID_cons (reads text)]
    exact inner opts text ctx x ((t, x) :: enclosing)

section Chosen
variable {m : g.Msg} {o : Oneof} {key : String} {other : Step g} {child : Tree g} {siblings : Forest g}
variable {rest : VisitPath g} {n : Nat}

/- A handler that is not below the oneof has no calls there. -/
theorem followChosen_absent {forest : Forest g} (absent : b ∉ handlersBelow forest) (m : g.Msg)
    (o : Oneof) (more : VisitPath g) : ExactBelow tables b (.oneof m o :: more) 0
      fun opts text ctx x => followChosen tables opts text getters ctx x o forest := by
  intro opts text ctx x enclosing
  rw [callsAt_zero]
  refine callsOf_none fun visit made same => ?_
  exact absent (same ▸ handler_of_followChosen made)

theorem followChosen_member {f : Field g.size} (oneofNamed : o.fieldName = o.goField)
    (wrapper : wrapperName other = key) (named : key = f.goField)
    (beside : b ∉ handlersBelow siblings)
    (inner : ExactBelow tables b rest n fun opts text ctx x => follow tables opts text getters ctx x child) :
    ExactBelow tables b (.oneof m o :: .field m f :: rest) n fun opts text ctx x =>
      followChosen tables opts text getters ctx x o (.cons key other child siblings) := by
  intro opts text ctx x enclosing
  beta_reduce
  rw [followChosen, oneofNamed]
  cases chosen : getOneof x o.goField with
  | none => simp [placesAlong, chosen, callsOf]
  | some held =>
    simp only [placesAlong, chosen, followCases, wrapper, getMember]
    by_cases hit : key = held.1
    · have isField : held.1 = f.goField := hit.symm.trans named
      simp only [hit, isField, ↓reduceIte]
      exact inner opts text ctx (some held.2) enclosing
    · have notField : held.1 ≠ f.goField := fun isField => hit (named.trans isField.symm)
      simp only [hit, notField, ↓reduceIte, List.flatMap_nil]
      refine callsOf_none fun visit made same => ?_
      exact beside (same ▸ handler_of_followCases _ held.1 held.2 siblings made)

theorem followChosen_sibling {step : Step g} (oneofNamed : o.fieldName = o.goField)
    (wrapper : wrapperName other = key) (missed : key ≠ step.goField)
    (outside : b ∉ handlersIn child)
    (later : ExactBelow tables b (.oneof m o :: step :: rest) n fun opts text ctx x =>
      followChosen tables opts text getters ctx x o siblings) :
    ExactBelow tables b (.oneof m o :: step :: rest) n fun opts text ctx x =>
      followChosen tables opts text getters ctx x o (.cons key other child siblings) := by
  intro opts text ctx x enclosing
  have there := later opts text ctx x enclosing
  beta_reduce at there ⊢
  rw [followChosen, oneofNamed] at there ⊢
  cases chosen : getOneof x o.goField with
  | none =>
    simp only [chosen] at there ⊢
    exact there
  | some held =>
    simp only [chosen, followCases, wrapper] at there ⊢
    by_cases hit : key = held.1
    · have unset := placesAlong_unset m rest enclosing chosen fun set => missed (hit.trans set)
      rw [unset, List.flatMap_nil, if_pos hit]
      refine callsOf_none fun visit made isIt => ?_
      exact outside (isIt ▸ handler_of_follow _ _ child made)
    · simp only [hit, ↓reduceIte]
      exact there

end Chosen

mutual
theorem follow_exact (names : GoNames g) (reads : ∀ text, ReadsNamed g tables getters text)
    {path : VisitPath g} :
    ∀ (tree : Tree g) (more : VisitPath g), PlacedAt roots path tree → b.path = path ++ more →
      ∃ n, ExactBelow tables b more n fun opts text ctx x => follow tables opts text getters ctx x tree
  | .node handlers children, [], placed, ends => by
    refine ⟨handlers.count b, fun opts text ctx x enclosing => ?_⟩
    have deeper : callsOf b (followTypes tables opts text getters
        ((nearestID g tables text enclosing).or ctx) x children) = [] := by
      refine callsOf_none fun visit made same => ?_
      obtain ⟨step, rest, longer, -, -⟩ := placedBelow_path placed.2 (handler_of_followTypes _ x children made)
      simp [same, ends] at longer
    beta_reduce
    rw [follow, callsOf_append, deeper, callsOf_handlers, List.nil_append]
    simp [placesAlong, callsAt]
  | .node handlers children, step :: rest, placed, ends => by
    obtain ⟨n, below⟩ := followTypes_exact names reads children step rest placed.2 ends
    refine ⟨n, fun opts text ctx x enclosing => ?_⟩
    have here : callsOf b (handlers.flatMap fun h => invocationIn tables opts
        ((nearestID g tables text enclosing).or ctx) h x) = [] := by
      refine callsOf_none fun visit made same => ?_
      obtain ⟨h, member, called⟩ := List.mem_flatMap.mp made
      obtain ⟨call, -, rfl⟩ := List.mem_map.mp called
      have shorter := placed.1 h member
      rw [show h = b from same, ends] at shorter
      simp at shorter
    beta_reduce
    rw [follow, callsOf_append, here, List.append_nil]
    exact below opts text ctx x enclosing
theorem followTypes_exact (names : GoNames g) (reads : ∀ text, ReadsNamed g tables getters text)
    {path : VisitPath g} :
    ∀ (forest : Forest g) (step : Step g) (rest : VisitPath g), PlacedUnder roots path forest →
      b.path = path ++ step :: rest → ∃ n, ExactBelow tables b (step :: rest) n
        fun opts text ctx x => followTypes tables opts text getters ctx x forest
  | .nil, step, rest, _, _ => by
    refine ⟨0, fun opts text ctx x enclosing => ?_⟩
    beta_reduce
    rw [callsAt_zero, followTypes]
    rfl
  | .cons key other (.node handlers children) siblings, step, rest, placed, ends => by
    obtain ⟨⟨named, grows, below⟩, unique, others⟩ := placed
    by_cases same : other = step
    · subst same
      have longer : b.path = path ++ [other] ++ rest := by simpa using ends
      have beside (opts : VisitOptions) (text : Nat → String) (ctx : Context) (x : Option Value) :
          callsOf b (followTypes tables opts text getters ctx x siblings) = [] := by
        refine callsOf_none fun visit made same => ?_
        exact path_beside others ends (named ▸ unique) (same ▸ handler_of_followTypes ctx x siblings made)
      have goNamed := grow_named names grows
      have node : ∃ n, ExactBelow tables b (other :: rest) n fun opts text ctx x =>
          followStep tables opts text getters ctx x (.node handlers children) other := by
        cases other with
        | oneof m o =>
          simp only [followStep_oneof]
          exact followChosen_exact names reads children rest goNamed below.2 longer
        | field m f =>
          obtain ⟨n, inner⟩ := follow_exact names reads (.node handlers children) rest below longer
          exact ⟨n, followStep_exact reads goNamed (by simp) inner⟩
        | message t =>
          obtain ⟨n, inner⟩ := follow_exact names reads (.node handlers children) rest below longer
          exact ⟨n, followStep_exact reads goNamed (by simp) inner⟩
      obtain ⟨n, exactly⟩ := node
      refine ⟨n, fun opts text ctx x enclosing => ?_⟩
      beta_reduce
      rw [followTypes_cons, callsOf_append, beside, List.append_nil]
      exact exactly opts text ctx x enclosing
    · obtain ⟨n, exactly⟩ := followTypes_exact names reads siblings step rest others ends
      refine ⟨n, fun opts text ctx x enclosing => ?_⟩
      have elsewhere : callsOf b (followStep tables opts text getters
          ((nearestID g tables text enclosing).or ctx) x (.node handlers children) other) = [] := by
        refine callsOf_none fun visit made isIt => ?_
        exact path_elsewhere below ends same (isIt ▸ handler_of_followStep made)
      beta_reduce
      rw [followTypes_cons, callsOf_append, elsewhere, List.nil_append]
      exact exactly opts text ctx x enclosing
theorem followChosen_exact (names : GoNames g) (reads : ∀ text, ReadsNamed g tables getters text)
    {path : VisitPath g} {m : g.Msg} {o : Oneof} :
    ∀ (forest : Forest g) (more : VisitPath g), o.fieldName = o.goField →
      PlacedUnder roots (path ++ [Step.oneof m o]) forest →
      b.path = path ++ [Step.oneof m o] ++ more → ∃ n, ExactBelow tables b (.oneof m o :: more) n
        fun opts text ctx x => followChosen tables opts text getters ctx x o forest
  | forest, [], _, placed, ends => by
    refine ⟨0, followChosen_absent (fun member => ?_) m o []⟩
    obtain ⟨step, rest, longer, -, -⟩ := placedBelow_path placed member
    simp [ends] at longer
  | .nil, step :: rest, _, _, _ => ⟨0, followChosen_absent (by simp [handlersBelow]) m o _⟩
  | .cons key other child siblings, step :: rest, oneofNamed, placed, ends => by
    by_cases inside : b ∈ handlersBelow (.cons key other child siblings)
    · -- the path of a handler of the trie goes on by a member of the oneof
      obtain ⟨step', rest', ends', ⟨member, -⟩, -⟩ := placedBelow_path placed inside
      obtain ⟨rfl, rfl⟩ := List.cons.inj (List.append_cancel_left (ends.symm.trans ends'))
      have goNamed := grow_named names member
      obtain ⟨⟨named, grows, below⟩, unique, others⟩ := placed
      have wrapper : wrapperName other = key := (wrapperName_eq names grows).trans named.symm
      by_cases same : other = step
      · subst same
        obtain ⟨n, inner⟩ := follow_exact names reads child rest below (by simpa using ends)
        have last : (path ++ [Step.oneof m o]).getLast? = some (.oneof m o) := by simp
        have beside := path_beside others ends (named ▸ unique)
        cases (grow_iff_next last other).mp grows with
        | member _ _ =>
          exact ⟨n, followChosen_member oneofNamed wrapper (named.trans goNamed) beside inner⟩
      · have outside : b ∉ handlersIn child := path_elsewhere below ends same
        have missed : key ≠ step.goField := by
          intro clash
          rw [handlersBelow] at inside
          rcases List.mem_append.mp inside with here | later
          · exact outside here
          · exact path_beside others ends ((clash.trans goNamed.symm) ▸ unique) later
        obtain ⟨n, exactly⟩ := followChosen_exact names reads siblings (step :: rest) oneofNamed others ends
        exact ⟨n, followChosen_sibling oneofNamed wrapper missed outside exactly⟩
    · exact ⟨0, followChosen_absent inside m o _⟩
end

theorem followRoot_exact (names : GoNames g) (reads : ∀ text, ReadsNamed g tables getters text) (r : g.Msg) :
    ∀ forest : Forest g, PlacedUnder roots [] forest → ∃ n, ∀ opts text ctx v,
      callsOf b (followRoot tables opts text getters ctx r v forest) =
        (places r v b.path).flatMap (callsAt tables opts text ctx n b)
  | .nil, _ => by
    refine ⟨0, fun opts text ctx v => ?_⟩
    rw [callsAt_zero]
    rfl
  | .cons key step child rest, placed => by
    obtain ⟨⟨-, -, below⟩, -, others⟩ := placed
    by_cases same : step = .message r
    · subst same
      by_cases starts : ∃ more, b.path = .message r :: more
      · obtain ⟨more, path⟩ := starts
        obtain ⟨n, inner⟩ := follow_exact names reads child more below path
        refine ⟨n, fun opts text ctx v => ?_⟩
        have outermost := nearestID_cons (reads text) r (some v) [] ctx
        rw [nearestID, List.findSome?_nil, Option.none_or] at outermost
        simp only [followRoot, ↓reduceIte, outermost, places, path, List.head?_cons, placesAlong]
        exact inner opts text ctx (some v) [(r, some v)]
      · refine ⟨0, fun opts text ctx v => ?_⟩
        rw [callsAt_zero]
        refine callsOf_none fun visit made isIt => starts ?_
        simp only [followRoot, ↓reduceIte] at made
        obtain ⟨more, path, -⟩ := placed_path below (isIt ▸ handler_of_follow _ (some v) child made)
        exact ⟨more, path⟩
    · obtain ⟨n, exactly⟩ := followRoot_exact names reads r rest others
      refine ⟨n, fun opts text ctx v => ?_⟩
      simp only [followRoot, same, ↓reduceIte]
      exact exactly opts text ctx v

theorem followRoot_rooted (r : g.Msg) (v : Value) {visit : Visit g} :
    ∀ forest : Forest g, PlacedUnder roots [] forest →
      visit ∈ followRoot tables opts text getters ctx r v forest → Rooted [r] visit.handler.path
  | .nil, _, made => nomatch made
  | .cons key step child rest, placed, made => by
    obtain ⟨⟨-, -, below⟩, -, others⟩ := placed
    by_cases same : step = .message r
    · subst same
      simp only [followRoot, ↓reduceIte] at made
      obtain ⟨more, path, grown⟩ := placed_path below (handler_of_follow _ (some v) child made)
      rw [path]
      exact ⟨r, List.mem_singleton_self r, more, rfl, (grown_iff_chain rfl).mp grown⟩
    · simp only [followRoot, same, ↓reduceIte] at made
      exact followRoot_rooted r v rest others made

end Calls

section Sample

def payloadField : Field 7 := ⟨"p", "p", "P", none, .singular, .message 4⟩
def itemsField : Field 7 := ⟨"items", "items", "Items", none, .list, .message 6⟩
def idField : Field 7 := ⟨"ns_id", "nsId", "NsId", none, .singular, .string⟩

def scopedMessages : List (Message 7) :=
  [⟨adminServicePackage, ["Request"], [⟨"part", "part", "Part", none, .singular, .message 1⟩, payloadField]⟩,
    ⟨["temporal", "server", "api", "token", "v1"], ["Part"], [idField, payloadField]⟩,
    ⟨samplePackage, ["Request"], [⟨"part", "part", "Part", none, .singular, .message 3⟩, payloadField]⟩,
    ⟨samplePackage, ["Part"], [idField, payloadField]⟩,
    ⟨["temporal", "api", "common", "v1"], ["Payload"],
      [⟨"data", "data", "Data", none, .singular, .bytes⟩]⟩,
    ⟨adminServicePackage, ["Batch"], [itemsField, payloadField]⟩,
    ⟨samplePackage, ["Item"],
      [⟨"namespace_id", "namespaceId", "NamespaceId", none, .singular, .string⟩, payloadField]⟩]

def scopedGraph : TypeGraph where
  size := 7
  message := scopedMessages.get
  names := by decide

def listedIDs : AList fun _ : FullName => List String :=
  AList.singleton ["temporal", "server", "api", "token", "v1", "Part"] ["ns_id"]

def distinctTables : PayloadTables := ⟨∅, ∅, ∅, ∅, [], listedIDs⟩

/-- The second request is walked from as well, but not into its part. -/
def sharedTables : PayloadTables :=
  ⟨∅, ∅, ∅, AList.singleton (samplePackage ++ ["Request", "part"]) "", [samplePackage ++ ["Request"]],
    listedIDs⟩

def secondRequest : scopedGraph.Msg := (2 : Fin 7)
def batch : scopedGraph.Msg := (5 : Fin 7)

def identified (ptr : Nat) (field : String) (id payload : Nat) : Value :=
  .message ptr (fun name => if name = field then [.data id]
    else if name = "P" then [emptyMessage payload] else []) fun _ => none

def sampleText (ptr : Nat) : String := if ptr = 10 then "first" else "second"

def sampleBatch : Value :=
  .message 1 (fun name =>
    if name = "Items" then [identified 2 "NamespaceId" 10 3, identified 4 "NamespaceId" 11 5]
    else if name = "P" then [emptyMessage 6] else []) fun _ => none

def sampleParted : Value := holding 1 "Part" (identified 2 "NsId" 10 3)

theorem scoped_names : GoNames scopedGraph := by
  constructor <;> decide +kernel

theorem scoped_getter : NamespaceGetter scopedGraph := by
  unfold NamespaceGetter
  decide +kernel

def withoutIDs : List scopedGraph.Msg := [(2 : Fin 7), (3 : Fin 7), (4 : Fin 7)]

theorem withoutIDs_unnamed : ∀ m ∈ withoutIDs, namespaceIDField scopedGraph sharedTables m = none := by
  decide +kernel

theorem withoutIDs_closed :
    ∀ m ∈ withoutIDs, ∀ f ∈ scopedGraph.fields m, ∀ t, f.kind = .message t → t ∈ withoutIDs := by
  decide +kernel

/-- The step stays in what the second request is made of. -/
def Within : Step scopedGraph → Prop
  | .message m | .oneof m _ => m ∈ withoutIDs
  | .field _ f => ∀ t, f.kind = .message t → t ∈ withoutIDs

theorem within_next {step next : Step scopedGraph} (within : Within step) (follows : Next step next) :
    Within next := by
  cases follows with
  | oneof _ _ => exact within
  | plain member _ => exact withoutIDs_closed _ within _ member
  | member member _ => exact withoutIDs_closed _ within _ member
  | target kind => exact within _ kind

theorem placesAlong_within (more : VisitPath scopedGraph) (x : Option Value)
    (enclosing : List (scopedGraph.Msg × Option Value)) {last : Step scopedGraph} (within : Within last)
    (chain : (last :: more).IsChain Next) (known : ∀ message ∈ enclosing, message.1 ∈ withoutIDs) :
    ∀ place ∈ placesAlong more x enclosing, ∀ message ∈ place.enclosing, message.1 ∈ withoutIDs := by
  fun_induction placesAlong more x enclosing generalizing last with
  | case1 x enclosing =>
    intro place only
    rw [List.mem_singleton.mp only]
    exact known
  | case2 t rest x enclosing ih =>
    obtain ⟨next, chain⟩ := List.isChain_cons_cons.mp chain
    have here := within_next within next
    refine ih here chain fun message among => ?_
    rcases List.mem_cons.mp among with rfl | outer
    · exact here
    · exact known message outer
  | case3 m f rest x enclosing ih =>
    obtain ⟨next, chain⟩ := List.isChain_cons_cons.mp chain
    intro place among
    obtain ⟨y, _, inside⟩ := List.mem_flatMap.mp among
    exact ih y (within_next within next) chain known place inside
  | case4 => simp
  | case5 m name m' f rest x enclosing y chosen ih =>
    obtain ⟨toOneof, chain⟩ := List.isChain_cons_cons.mp chain
    obtain ⟨toField, chain⟩ := List.isChain_cons_cons.mp chain
    exact ih (within_next (within_next within toOneof) toField) chain known
  | case6 => simp
  | case7 => simp

theorem places_unnamed {v : Value} {path : VisitPath scopedGraph} (rooted : Rooted [secondRequest] path) :
    ∀ place ∈ places secondRequest v path,
      nearestID scopedGraph sharedTables sampleText place.enclosing = none := by
  obtain ⟨r, member, rest, rfl, chain⟩ := rooted
  obtain rfl := List.mem_singleton.mp member
  have first : Within (.message secondRequest) := show secondRequest ∈ withoutIDs by decide
  have only : ∀ message ∈ [(secondRequest, some v)], message.1 ∈ withoutIDs := by
    intro message among
    rw [List.mem_singleton.mp among]
    exact first
  intro place among
  refine List.findSome?_eq_none_iff.mpr fun message around => ?_
  have unnamed := placesAlong_within rest (some v) _ first chain only place
    (by simpa [places, placesAlong] using among) message around
  rw [namespaceIDOf, withoutIDs_unnamed _ unnamed, Option.map_none]

def sampleVisits (tables : PayloadTables) (m : scopedGraph.Msg) (v : Value) : List (Visit scopedGraph) :=
  visitAdminPayloads tables ⟨false⟩ sampleText (some "caller") m v (generate (builtFrom tables))

def summary (visits : List (Visit scopedGraph)) : List (Handler × Option Nat × Option Context) :=
  visits.map fun visit => (visit.handler.handler, visit.call.value.map Value.ptr, visit.ctx)

end Sample

/-- The calls of the emitted visitor are for parts that their handlers' paths lead to, through the
    types from the root. For each handler they are, in order, those for the parts along its path, each
    in the context of the nearest message around it that names a namespace ID. -/
theorem visits_in_nearest_namespace (g : TypeGraph) (tables : PayloadTables)
    (idents : DistinctIdents (roots g tables)) (names : GoNames g) (getter : NamespaceGetter g)
    (built : Built g) (ok : buildPayloads g tables = .ok built) (r : g.Msg) :
    (∀ opts text ctx v, ∀ visit ∈ visitAdminPayloads tables opts text ctx r v (generate built),
      Rooted [r] visit.handler.path) ∧
    ∀ b : BoundHandler g, ∃ n, ∀ opts text ctx v,
      callsOf b (visitAdminPayloads tables opts text ctx r v (generate built)) =
        (places r v b.path).flatMap (callsAt tables opts text ctx n b) := by
  have placed := built_placed ⟨idents, names⟩ ok
  have reads := built_readsNamed names getter ok
  obtain ⟨getters, ⟨handlers, forest⟩, errs, c⟩ := built
  have follows (opts : VisitOptions) (text : Nat → String) (ctx : Context) (v : Value) :
      visitAdminPayloads tables opts text ctx r v (emitRoots getters forest ⟨[], []⟩) =
        followRoot tables opts text getters ctx r v forest :=
    visitAdminPayloads_follows getters ctx r v forest _
  constructor
  · intro opts text ctx v visit made
    rw [generate, follows] at made
    exact followRoot_rooted r v forest placed.2 made
  · intro b
    obtain ⟨n, exactly⟩ := followRoot_exact names reads r forest placed.2
    refine ⟨n, fun opts text ctx v => ?_⟩
    rw [generate, follows]
    exact exactly opts text ctx v

def itemPayload : BoundHandler scopedGraph where
  handler := .serverPayload
  path := [.message batch, .field batch itemsField, .message (6 : Fin 7),
    .field (6 : Fin 7) payloadField, .message (4 : Fin 7)]

/- Each item's payload is visited in the namespace of the item. -/
theorem items_in_own_namespaces :
    summary (callsOf itemPayload (sampleVisits distinctTables batch sampleBatch)) =
      [(.serverPayload, some 3, some (some "first")), (.serverPayload, some 5, some (some "second"))] ∧
    ∃ n, callsOf itemPayload (sampleVisits distinctTables batch sampleBatch) =
      (places batch sampleBatch itemPayload.path).flatMap
        (callsAt distinctTables ⟨false⟩ sampleText (some "caller") n itemPayload) := by
  have idents : DistinctIdents (roots scopedGraph distinctTables) := by
    unfold DistinctIdents
    decide +kernel
  obtain ⟨n, exactly⟩ := (visits_in_nearest_namespace scopedGraph distinctTables idents scoped_names
    scoped_getter (builtFrom distinctTables) (builtFrom_ok (by decide +kernel)) batch).2 itemPayload
  exact ⟨by decide +kernel, n, exactly ⟨false⟩ sampleText (some "caller") sampleBatch⟩

/- Both requests are one node of the trie, so the part of the second one is visited as if it were of
   the type that is listed. None of its messages names a namespace ID. -/
theorem shared_name_takes_other_namespace :
    buildPayloads scopedGraph sharedTables = .ok (builtFrom sharedTables) ∧
    GoNames scopedGraph ∧ NamespaceGetter scopedGraph ∧ secondRequest ∈ roots scopedGraph sharedTables ∧
    (∃ visit ∈ sampleVisits sharedTables secondRequest sampleParted,
      visit.handler.handler.scoped = true ∧ visit.ctx = some (some "first")) ∧
    ∀ path, Rooted [secondRequest] path → ∀ place ∈ places secondRequest sampleParted path,
      (nearestID scopedGraph sharedTables sampleText place.enclosing).or (some "caller") = some "caller" := by
  have listed : (.serverPayload, some 3, some (some "first")) ∈
      summary (sampleVisits sharedTables secondRequest sampleParted) := by decide +kernel
  obtain ⟨visit, made, same⟩ := List.mem_map.mp listed
  obtain ⟨handler, rest⟩ := Prod.mk.inj same
  obtain ⟨-, given⟩ := Prod.mk.inj rest
  refine ⟨builtFrom_ok (by decide +kernel), scoped_names, scoped_getter, by decide +kernel,
    ⟨visit, made, ?_, given⟩, ?_⟩
  · rw [handler]
    rfl
  · intro path rooted place among
    rw [places_unnamed rooted place among]
    rfl

end PayloadVisitor
