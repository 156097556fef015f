import S2SProxy.PayloadWalk

/- The code that Generate writes for a trie of matched paths, as statements with the variables
   that the emitter chooses for them, and what the code does when it is run on a message. What it
   does is to follow the trie through the message: the variables do not get in the way. -/
namespace PayloadVisitor
variable {g : TypeGraph}

/-- A Go message or the data of a scalar field, known by its pointer. The getters give the values of
    fields, by the names of the Go code, at most one for a field that is not repeated; a oneof holds
    the wrapper of one member. -/
inductive Value where
  | data (ptr : Nat)
  | message (ptr : Nat) (fields : String → List Value) (oneofs : String → Option (String × Value))

def Value.ptr : Value → Nat
  | .data ptr => ptr
  | .message ptr _ _ => ptr

/-- The getters of a nil message give nothing. -/
def getField : Option Value → String → List Value
  | some (.message _ fields _), name => fields name
  | _, _ => []

def getOneof : Option Value → String → Option (String × Value)
  | some (.message _ _ oneofs), name => oneofs name
  | _, _ => none

def getMember (member : String) (content : Value) (field : String) : Option Value :=
  if field = member then some content else none

inductive Var where
  | root
  | named (base : String) (index : Nat)
  deriving DecidableEq

/-- inScopeVars and blockFrees. -/
structure Vars where
  inScope : List Var
  blockFrees : List (List Var)

def freshIndex (inScope : List Var) (base : String) : Nat → Nat → Nat
  | 0, i => i
  | fuel + 1, i => if .named base i ∈ inScope then freshIndex inScope base fuel (i + 1) else i

/-- The first number that is not taken is among one more than there are variables. -/
def Vars.newVar (vars : Vars) (base : String) : Var :=
  .named base (freshIndex vars.inScope base vars.inScope.length 1)

def Vars.makeVar (vars : Vars) (base : String) : Vars :=
  { vars with inScope := vars.newVar base :: vars.inScope }

def Vars.freeAll (vars : Vars) (names : List Var) : Vars :=
  { vars with inScope := vars.inScope.filter (· ∉ names) }

def Vars.openBlock (vars : Vars) : Vars := { vars with blockFrees := [] :: vars.blockFrees }

def Vars.closeBlock (vars : Vars) : Vars :=
  { vars.freeAll (vars.blockFrees.headD []) with blockFrees := vars.blockFrees.tail }

def Vars.releaseWithBlock (vars : Vars) (v : Var) : Vars :=
  match vars.blockFrees with
  | [] => vars
  | block :: outer => { vars with blockFrees := (v :: block) :: outer }

mutual
inductive Stmt (g : TypeGraph) where
  | forRange (var parent : Var) (getter : String) (body : Block g)
  | define (var parent : Var) (getter : String)
  | typeSwitch (parent : Var) (getter : String) (cases : Cases g)
  /-- A block that opens with ctx := withNamespaceID(ctx, parent.Getters()). -/
  | scope (parent : Var) (getters : List String) (body : Block g)
  | invoke (handler : BoundHandler g) (var : Var)
inductive Block (g : TypeGraph) where
  | nil
  | cons (first : Stmt g) (rest : Block g)
inductive Cases (g : TypeGraph) where
  | nil
  | cons (wrapper member : String) (var : Var) (body : Block g) (rest : Cases g)
end

def Block.append : Block g → Block g → Block g
  | .nil, more => more
  | .cons first rest, more => .cons first (rest.append more)

abbrev Forest (g : TypeGraph) := PathTrie.Forest String (Step g) (BoundHandler g)

mutual
def hasScoped : Tree g → Bool
  | .node handlers children => (handlers.any fun h => h.handler.scoped) || forestHasScoped children
def forestHasScoped : Forest g → Bool
  | .nil => false
  | .cons _ _ child rest => hasScoped child || forestHasScoped rest
end

/-- The getters that read the namespace ID of a message. -/
def namespaceScope (getters : Getters) (m : g.Msg) : Option (List String) :=
  match getters.lookup (g.fullName m) with
  | some getter => some getter
  | none =>
    match (g.fields m).find? fun f => f.name = "namespace_id" with
    | none => none
    | some f => if f.kind = .string ∧ f.shape = .singular then some ["GetNamespaceId"] else none

def emitScoped (getters : Getters) (v : Var) (m : g.Msg) (node : Tree g)
    (emitNode : Vars → Block g × Vars) (vars : Vars) : Block g × Vars :=
  match hasScoped node, namespaceScope getters m with
  | true, some getter =>
    let (body, vars) := emitNode vars.openBlock
    (.cons (.scope v getter body) .nil, vars.closeBlock)
  | _, _ => emitNode vars

def invocations (v : Var) : List (BoundHandler g) → Block g
  | [] => .nil
  | h :: rest => .cons (.invoke h v) (invocations v rest)

def rangeBase : Shape → String
  | .map => "val"
  | .list | .singular => "item"

/-- getOneofWrapperType, after the name of the message. -/
def wrapperName (step : Step g) : String := snakeToPascalCase step.name

mutual
/-- Emitter.emit. The variables of loops are freed when it returns. -/
def emit (getters : Getters) (parent : Var) : Tree g → Vars → Block g × Vars
  | .node handlers children, vars =>
    let (code, deferred, vars) := emitTypes getters parent children vars
    (code.append (invocations parent handlers), vars.freeAll deferred)
def emitTypes (getters : Getters) (parent : Var) : Forest g → Vars → Block g × List Var × Vars
  | .nil, vars => (.nil, [], vars)
  | .cons _ (.field _ f) child rest, vars =>
    if f.shape = .singular then
      let v := vars.newVar "y"
      let (code, vars) := emit getters v child ((vars.makeVar "y").releaseWithBlock v)
      let (more, deferred, vars) := emitTypes getters parent rest vars
      (.cons (.define v parent f.fieldName) (code.append more), deferred, vars)
    else
      let base := rangeBase f.shape
      let v := vars.newVar base
      let (body, vars) := emit getters v child (vars.makeVar base).openBlock
      let (more, deferred, vars) := emitTypes getters parent rest vars.closeBlock
      (.cons (.forRange v parent f.fieldName body) more, v :: deferred, vars)
  | .cons _ (.oneof _ o) child rest, vars =>
    let (cases, vars) := emitOneOfCases getters child vars
    let (more, deferred, vars) := emitTypes getters parent rest vars
    (.cons (.typeSwitch parent o.fieldName cases) more, deferred, vars)
  | .cons _ (.message m) child rest, vars =>
    let (code, vars) := emitScoped getters parent m child (emit getters parent child) vars
    let (more, deferred, vars) := emitTypes getters parent rest vars
    (code.append more, deferred, vars)
def emitOneOfCases (getters : Getters) : Tree g → Vars → Cases g × Vars
  | .node _ children, vars => emitCases getters children vars
def emitCases (getters : Getters) : Forest g → Vars → Cases g × Vars
  | .nil, vars => (.nil, vars)
  | .cons key step child rest, vars =>
    let v := vars.newVar "x"
    let (body, vars) := emit getters v child (vars.makeVar "x").openBlock
    let (cases, vars) := emitCases getters rest (vars.closeBlock.freeAll [v])
    (.cons (wrapperName step) key v body cases, vars)
end

def emitRoots (getters : Getters) : Forest g → Vars → List (Step g × Block g)
  | .nil, _ => []
  | .cons _ step child rest, vars =>
    match step with
    | .message m =>
      let (body, vars) := emitScoped getters .root m child (emit getters .root child) vars.openBlock
      (step, body) :: emitRoots getters rest vars.closeBlock
    | .oneof _ _ | .field _ _ => emitRoots getters rest vars

def generate (built : Built g) : List (Step g × Block g) :=
  match built.emitter.root with
  | .node _ children => emitRoots built.getters children ⟨[], []⟩

structure Call where
  handler : Handler
  function : String
  /-- The path that visitOpaque and the helpers are told. -/
  path : List String
  value : Option Value

structure VisitOptions where
  skipSearchAttributes : Bool

def isSearchAttributes (path : VisitPath g) : Bool :=
  match path.reverse with
  | _ :: .field _ f :: _ => f.name = "search_attributes"
  | _ => false

def helperName (tables : PayloadTables) (path : VisitPath g) : String :=
  match path.getLast? with
  | some (.message m) =>
    match tables.helpers.lookup (g.fullName m) with
    | some helper => helper.name
    | none => ""
  | _ => ""

/-- What the snippet of a handler calls. -/
def invocation (tables : PayloadTables) (opts : VisitOptions) (h : BoundHandler g) (v : Option Value) :
    List Call :=
  match h.handler with
  | .publicMessage => [⟨h.handler, "visitMessage", [], v⟩]
  | .serverPayload =>
    if isSearchAttributes h.path && opts.skipSearchAttributes then []
    else [⟨h.handler, "visitPayloadInPlace", [], v⟩]
  | .eventBlob => [⟨h.handler, "visitEventBlob", [], v⟩]
  | .opaqueField => [⟨h.handler, "visitOpaque", pathString h.path, v⟩]
  | .helper => [⟨h.handler, helperName tables h.path, pathString h.path, v⟩]

abbrev Env := Var → Option Value

/-- What a context carries: the namespace ID that was put on it, if one was. -/
abbrev Context := Option String

/-- A call that a handler makes, with the context if it takes one. -/
structure Visit (g : TypeGraph) where
  handler : BoundHandler g
  call : Call
  ctx : Option Context

def invocationIn (tables : PayloadTables) (opts : VisitOptions) (ctx : Context) (h : BoundHandler g)
    (v : Option Value) : List (Visit g) :=
  (invocation tables opts h v).map fun call => ⟨h, call, if h.handler.scoped then some ctx else none⟩

/-- The field that a getter is for. -/
def getterField (getter : String) : String := String.ofList (getter.toList.drop 3)

def readGetters (v : Option Value) : List String → Option Value
  | [] => v
  | getter :: rest => readGetters (getField v (getterField getter)).head? rest

def readString (text : Nat → String) : Option Value → String
  | some (.data ptr) => text ptr
  | _ => ""

mutual
/-- The variables after a statement and its calls, when every call succeeds; text has the strings of
    the message. -/
def execStmt (tables : PayloadTables) (opts : VisitOptions) (text : Nat → String) (ctx : Context) :
    Stmt g → Env → Env × List (Visit g)
  | .forRange var parent getter body, env =>
    (env, (getField (env parent) getter).flatMap fun item =>
      (execBlock tables opts text ctx body (Function.update env var (some item))).2)
  | .define var parent getter, env =>
    (Function.update env var (getField (env parent) getter).head?, [])
  | .typeSwitch parent getter cases, env =>
    match getOneof (env parent) getter with
    | none => (env, [])
    | some (member, content) => (env, execCases tables opts text ctx member content cases env)
  | .scope parent getters body, env =>
    -- withNamespaceID shadows ctx to the end of the block
    (env, (execBlock tables opts text (some (readString text (readGetters (env parent) getters)))
      body env).2)
  | .invoke handler var, env => (env, invocationIn tables opts ctx handler (env var))
def execBlock (tables : PayloadTables) (opts : VisitOptions) (text : Nat → String) (ctx : Context) :
    Block g → Env → Env × List (Visit g)
  | .nil, env => (env, [])
  | .cons first rest, env =>
    let (env, calls) := execStmt tables opts text ctx first env
    let (env, more) := execBlock tables opts text ctx rest env
    (env, calls ++ more)
def execCases (tables : PayloadTables) (opts : VisitOptions) (text : Nat → String) (ctx : Context)
    (member : String) (content : Value) : Cases g → Env → List (Visit g)
  | .nil, _ => []
  | .cons wrapper field var body rest, env =>
    if wrapper = member then
      (execBlock tables opts text ctx body (Function.update env var (getMember member content field))).2
    else execCases tables opts text ctx member content rest env
end

/-- The switch over the type of the message. -/
def visitAdminPayloads (tables : PayloadTables) (opts : VisitOptions) (text : Nat → String)
    (ctx : Context) (m : g.Msg) (v : Value) : List (Step g × Block g) → List (Visit g)
  | [] => []
  | (step, body) :: rest =>
    if step = .message m then
      (execBlock tables opts text ctx body (Function.update (fun _ => none) .root (some v))).2
    else visitAdminPayloads tables opts text ctx m v rest

end PayloadVisitor
