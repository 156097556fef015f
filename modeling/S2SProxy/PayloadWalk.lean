import S2SProxy.Lib.PathTrie
import S2SProxy.PayloadTables

/- The walk over the types. Visit goes down from a root message and offers every message and
   field to the emitter, which asks its handlers, remembers in a trie where they matched, and
   collects the errors of the check. A message whose key is already on the way is offered as a
   cycle and not entered. Tables whose walk has no error give an emitter. -/
namespace PayloadVisitor
open MemoSearch

inductive Step (g : TypeGraph) where
  | message (m : g.Msg)
  | oneof (m : g.Msg) (o : Oneof)
  | field (m : g.Msg) (f : Field g.size)
  deriving DecidableEq

variable {g : TypeGraph}

def Step.goName : Step g → String
  | .message m => g.goIdent m
  | .oneof _ o => o.fieldName
  | .field _ f => f.fieldName

def Step.name : Step g → String
  | .message m => (g.message m).nesting.getLastD ""
  | .oneof _ o => o.name
  | .field _ f => f.name

def Step.goField : Step g → String
  | .message m => g.goIdent m
  | .oneof _ o => o.goField
  | .field _ f => f.goField

abbrev VisitPath (g : TypeGraph) := List (Step g)

inductive Handler where
  | publicMessage
  | serverPayload
  | eventBlob
  | opaqueField
  | helper
  deriving DecidableEq

/-- In the order in which buildPayloads adds them. -/
def handlers : List Handler := [.publicMessage, .serverPayload, .eventBlob, .opaqueField, .helper]

def Handler.scoped : Handler → Bool
  | .opaqueField => false
  | .publicMessage | .serverPayload | .eventBlob | .helper => true

structure BoundHandler (g : TypeGraph) where
  handler : Handler
  path : VisitPath g
  deriving DecidableEq

inductive Action where
  | descend
  | prune
  | abort
  deriving DecidableEq

inductive BuildError where
  | moreThanOneTable (name : FullName)
  | namespaceIDUnknown (name : FullName)
  | namespaceIDNotSingular (name : FullName) (part : String) (parent : FullName)
  | namespaceIDNotString (name field : FullName)
  | namespaceIDNotMessage (name field : FullName)
  | decodeTarget (name : FullName)
  | unhandledRecursion (name : FullName) (path : List String)
  | unclassifiedField (name : FullName) (path : List String)
  | neverMatched (name : FullName)
  | helperTypeUnknown (name : FullName)
  | notHandled (field : FullName) (helper : String)
  | staleHandle (field name : FullName)
  deriving DecidableEq

section Classify
variable (g) (tables : PayloadTables)

/-- The rest of namespaceIDGetter, at the message that the path has come to. -/
def getterChain (name : FullName) : g.Msg → List String → Except BuildError (List String)
  | _, [] => .ok []
  | m, part :: rest =>
    match (g.fields m).find? fun f => f.name = part with
    | none => .error (.namespaceIDNotSingular name part (g.fullName m))
    | some f =>
      if f.shape = .singular then
        match rest, f.kind with
        | [], .string => .ok ["Get" ++ f.fieldName]
        | [], _ => .error (.namespaceIDNotString name (g.fieldFullName m f))
        | rest, .message t => (getterChain name t rest).map (("Get" ++ f.fieldName) :: ·)
        | _, _ => .error (.namespaceIDNotMessage name (g.fieldFullName m f))
      else .error (.namespaceIDNotSingular name part (g.fullName m))

def namespaceIDGetter (name : FullName) (path : List String) : Except BuildError (List String) :=
  match g.find name with
  | none => .error (.namespaceIDUnknown name)
  | some m => getterChain g name m path

abbrev Getters := AList fun _ : FullName => List String

def tableNames : List FullName :=
  tables.eventBlobs.keys ++ tables.opaques.keys ++ tables.helpers.keys ++ tables.ignored.keys

def overlaps : List FullName → List FullName → List BuildError
  | _, [] => []
  | seen, name :: rest =>
    (if name ∈ seen then [.moreThanOneTable name] else []) ++ overlaps (name :: seen) rest

def namespaceGetters : List (Sigma fun _ : FullName => List String) → List BuildError × Getters
  | [] => ([], ∅)
  | entry :: rest =>
    let (errs, getters) := namespaceGetters rest
    match namespaceIDGetter g entry.1 entry.2 with
    | .error err => (err :: errs, getters)
    | .ok getter => (errs, getters.insert entry.1 getter)

def newPayloadClassifier : Except (List BuildError) (Getters × Classifier g) :=
  let (errs, getters) := namespaceGetters g tables.namespaceIDs.entries
  match overlaps [] (tableNames tables) ++ errs with
  | [] => .ok (getters, freshClassifier)
  | errs => .error errs

variable {g}

def matchField (table : AList fun _ : FullName => Bool) (m : g.Msg) (f : Field g.size)
    (c : Classifier g) : Bool × Classifier g :=
  if table.lookup (g.fieldFullName m f) = some true then (true, c.use (g.fieldFullName m f))
  else (false, c)

/-- Handler.Include of a node that is not a cycle. -/
def includes (c : Classifier g) : Handler → Step g → Bool × Classifier g
  | .publicMessage, .message m =>
    if g.isPublic m ∧ g.fullName m ≠ payloadMessage then c.canReachPayload m else (false, c)
  | .serverPayload, .message m => (g.fullName m = payloadMessage, c)
  | .eventBlob, .field m f => matchField tables.eventBlobs m f c
  | .opaqueField, .field m f => matchField tables.opaques m f c
  | .helper, .message m =>
    if (tables.helpers.lookup (g.fullName m)).isSome then (true, c.use (g.fullName m)) else (false, c)
  | _, _ => (false, c)

def pathString (path : VisitPath g) : List String := path.map Step.goName

structure Checked (g : TypeGraph) where
  action : Action
  err : Option BuildError
  classifier : Classifier g

def checkCycle (m : g.Msg) (path : VisitPath g) (c : Classifier g) : Checked g :=
  let (inert, c) := c.isInert tables m
  if inert then ⟨.prune, none, c⟩
  else ⟨.prune, some (.unhandledRecursion (g.fullName m) (pathString path)), c⟩

/-- A message that NamespaceIDs names is marked as used. -/
def useGetter (getters : Getters) (c : Classifier g) : Step g → Classifier g
  | .message m => if (getters.lookup (g.fullName m)).isSome then c.use (g.fullName m) else c
  | .oneof _ _ | .field _ _ => c

def check (getters : Getters) (step : Step g) (path : VisitPath g) (matched : Bool)
    (c : Classifier g) : Checked g :=
  let c := useGetter getters c step
  if matched then ⟨.descend, none, c⟩
  else
    match step with
    | .message m => if g.isPublic m then ⟨.prune, none, c⟩ else ⟨.descend, none, c⟩
    | .oneof _ _ => ⟨.descend, none, c⟩
    | .field m f =>
      if isIgnored g tables m f then ⟨.prune, none, c.use (g.fieldFullName m f)⟩
      else if isOpaqueKind g f then
        ⟨.prune, some (.unclassifiedField (g.fieldFullName m f) (pathString path)), c⟩
      else ⟨.descend, none, c⟩

end Classify

abbrev Tree (g : TypeGraph) := PathTrie.Tree String (Step g) (BoundHandler g)

structure Emitter (g : TypeGraph) where
  root : Tree g
  errs : List BuildError
  classifier : Classifier g

section Walk
variable (tables : PayloadTables) (getters : Getters)

/-- The loop over the handlers: whether one matched. -/
def offerHandlers (step : Step g) (path : VisitPath g) : List Handler → Emitter g → Bool × Emitter g
  | [], e => (false, e)
  | h :: rest, e =>
    let (matched, c) := includes tables e.classifier h step
    let e := { e with classifier := c }
    let e := if matched then { e with root := PathTrie.insert Step.goName path ⟨h, path⟩ e.root } else e
    let (others, e) := offerHandlers step path rest e
    (matched || others, e)

/-- Emitter.visit. All handlers prune. -/
def Emitter.visit (e : Emitter g) (step : Step g) (path : VisitPath g) : Action × Emitter g :=
  let (matched, e) := offerHandlers tables step path handlers e
  let checked := check tables getters step path matched e.classifier
  let e := { e with classifier := checked.classifier }
  match checked.err with
  | some err => (.prune, { e with errs := e.errs ++ [err] })
  | none =>
    match checked.action with
    | .descend => (if matched then .prune else .descend, e)
    | action => (action, e)

def Emitter.visitCycle (e : Emitter g) (m : g.Msg) (path : VisitPath g) : Emitter g :=
  let checked := checkCycle tables m path e.classifier
  { e with classifier := checked.classifier, errs := e.errs ++ checked.err.toList }

/-- The steps from a message to one of its fields. -/
def segment (m : g.Msg) (f : Field g.size) : VisitPath g :=
  match f.oneof with
  | none => [.field m f]
  | some o => [.oneof m o, .field m f]

def visitFields (enter : VisitPath g → g.Msg → Emitter g → Emitter g) (m : g.Msg)
    (path : VisitPath g) : List (Field g.size) → Emitter g → Emitter g
  | [], e => e
  | f :: rest, e =>
    match e.visit tables getters (.field m f) (path ++ segment m f) with
    | (.abort, e) => e
    | (.prune, e) => visitFields enter m path rest e
    | (.descend, e) =>
      match f.kind with
      | .message t => visitFields enter m path rest (enter (path ++ segment m f) t e)
      | .bytes | .string | .scalar => visitFields enter m path rest e

/-- The fuel bounds the messages on a path. -/
def visit : Nat → List String → VisitPath g → g.Msg → Emitter g → Emitter g
  | 0, _, _, _, e => e
  | fuel + 1, seen, path, m, e =>
    let path := path ++ [.message m]
    if g.seenKey m ∈ seen then e.visitCycle tables m path
    else
      match e.visit tables getters (.message m) path with
      | (.descend, e) => visitFields tables getters (visit fuel (g.seenKey m :: seen)) m path (g.fields m) e
      | (_, e) => e

/-- A path has at most one message for each key, and one more that is a cycle. -/
def Emitter.visitRoot (e : Emitter g) (m : g.Msg) : Emitter g :=
  PayloadVisitor.visit tables getters (g.size + 1) [] [] m e

end Walk

section Names

def members (m : g.Msg) : List (Step g) := (g.fields m).flatMap (segment m)

variable (g)

/-- The Go code of the messages has the names that the walk computes for fields, oneofs and the
    wrappers of oneof members, and the names of one message differ. -/
structure GoNames : Prop where
  computed : ∀ m : g.Msg, ∀ step ∈ members m, step.goName = step.goField
  wrappers : ∀ m, ∀ f ∈ g.fields m, f.oneof ≠ none → snakeToPascalCase f.name = f.goField
  distinct : ∀ m : g.Msg, ∀ step ∈ members m, ∀ other ∈ members m,
    step.goName = other.goName → step = other

variable {g}

theorem field_mem_members {m : g.Msg} {f : Field g.size} (member : f ∈ g.fields m) :
    .field m f ∈ members m := by
  refine List.mem_flatMap.mpr ⟨f, member, ?_⟩
  unfold segment
  cases f.oneof <;> simp

theorem oneof_mem_members {m : g.Msg} {f : Field g.size} {o : Oneof} (member : f ∈ g.fields m)
    (inOneof : f.oneof = some o) : .oneof m o ∈ members m := by
  refine List.mem_flatMap.mpr ⟨f, member, ?_⟩
  simp [segment, inOneof]

theorem GoNames.field (names : GoNames g) {m : g.Msg} {f : Field g.size} (member : f ∈ g.fields m) :
    f.fieldName = f.goField :=
  names.computed m (.field m f) (field_mem_members member)

theorem GoNames.oneof (names : GoNames g) {m : g.Msg} {f : Field g.size} {o : Oneof}
    (member : f ∈ g.fields m) (inOneof : f.oneof = some o) : o.fieldName = o.goField :=
  names.computed m (.oneof m o) (oneof_mem_members member inOneof)

end Names

section Build
variable (g) (tables : PayloadTables)

def adminMessages : List g.Msg :=
  (List.finRange g.size).filter fun m => (g.message m).pkg = adminServicePackage

def roots : List g.Msg := adminMessages g ++ tables.decodeTargets.filterMap g.find

def decodeErrors : List BuildError :=
  (tables.decodeTargets.filter fun name => (g.find name).isNone).map .decodeTarget

variable {g}

def unused (c : Classifier g) : List BuildError :=
  ((tables.eventBlobs.keys ++ tables.opaques.keys ++ tables.helpers.keys ++ tables.ignored.keys ++
    tables.namespaceIDs.keys).filter fun name => name ∉ c.used).map .neverMatched

/-- The state of the loop of checkHelpers for one helper. -/
structure HelperCheck (g : TypeGraph) where
  handled : AList fun _ : FullName => Bool
  queue : List g.Msg
  seen : List FullName
  errs : List BuildError
  classifier : Classifier g

def checkHelperField (helper : String) (m : g.Msg) (s : HelperCheck g) (f : Field g.size) :
    HelperCheck g :=
  let name := g.fieldFullName m f
  match s.handled.lookup name with
  | some _ =>
    let s := { s with handled := s.handled.insert name true }
    if isOpaqueKind g f then s
    else
      match f.kind with
      | .message t =>
        if g.fullName t ∈ s.seen then s
        else { s with seen := g.fullName t :: s.seen, queue := s.queue ++ [t] }
      | .bytes | .string | .scalar => s
  | none =>
    let (inert, c) := s.classifier.isInertField tables m f
    { s with classifier := c, errs := if inert then s.errs else s.errs ++ [.notHandled name helper] }

/-- A message is queued once. -/
def checkQueue (helper : String) : Nat → HelperCheck g → HelperCheck g
  | 0, s => s
  | fuel + 1, s =>
    match s.queue with
    | [] => s
    | m :: queue =>
      checkQueue helper fuel ((g.fields m).foldl (checkHelperField tables helper m) { s with queue := queue })

def checkHelper (name : FullName) (helper : PayloadHelper) (c : Classifier g) :
    List BuildError × Classifier g :=
  match g.find name with
  | none => ([.helperTypeUnknown name], c)
  | some m =>
    let handled := helper.handles.foldl (fun handled f => handled.insert f false) ∅
    let s := checkQueue tables helper.name (g.size + 1) ⟨handled, [m], [name], [], c⟩
    let stale := s.handled.entries.filter fun entry => !entry.2
    (s.errs ++ stale.map fun entry => .staleHandle entry.1 name, s.classifier)

def checkHelpers : List (Sigma fun _ : FullName => PayloadHelper) → Classifier g → List BuildError
  | [], _ => []
  | entry :: rest, c =>
    let (errs, c) := checkHelper tables entry.1 entry.2 c
    errs ++ checkHelpers rest c

variable (g)

structure Built (g : TypeGraph) where
  getters : Getters
  emitter : Emitter g

def walkRoots (getters : Getters) (c : Classifier g) : Emitter g :=
  (roots g tables).foldl (fun e m => e.visitRoot tables getters m) ⟨PathTrie.empty, [], c⟩

def buildPayloads : Except (List BuildError) (Built g) :=
  match newPayloadClassifier g tables with
  | .error errs => .error errs
  | .ok (getters, c) =>
    let e := walkRoots g tables getters c
    match decodeErrors g tables ++ e.errs ++ unused tables e.classifier ++
        checkHelpers tables tables.helpers.entries e.classifier with
    | [] => .ok ⟨getters, e⟩
    | errs => .error errs

end Build

end PayloadVisitor
