import S2SProxy.PayloadEmitter

/- The emitted code follows the trie. A variable is new when it is declared and is not declared
   again while it is in scope, so what a statement finds in its parent variable is what was put
   there. A block for the namespace ID of a message is left out where no handler below would be
   given the context. -/
namespace PayloadVisitor
variable {g : TypeGraph} {vars vars' vars'' : Vars} {v parent x : Var}

section Variables

theorem freshIndex_taken (inScope : List Var) (base : String) (fuel i : Nat) :
    (∀ j, i ≤ j → j < freshIndex inScope base fuel i → .named base j ∈ inScope) ∧
      (.named base (freshIndex inScope base fuel i) ∈ inScope →
        freshIndex inScope base fuel i = i + fuel) := by
  induction fuel generalizing i with
  | zero =>
    refine ⟨fun j le lt => ?_, fun _ => rfl⟩
    simp only [freshIndex] at lt
    omega
  | succ fuel ih =>
    by_cases taken : .named base i ∈ inScope
    · obtain ⟨before, last⟩ := ih (i + 1)
      simp only [freshIndex, taken, ↓reduceIte]
      refine ⟨fun j le lt => ?_, fun member => by have := last member; omega⟩
      rcases Nat.eq_or_lt_of_le le with rfl | later
      · exact taken
      · exact before j later lt
    · simp only [freshIndex, taken, ↓reduceIte]
      exact ⟨fun j le lt => by omega, fun member => member.elim⟩

/- If the chosen number were taken, so would be one more than there are variables. -/
theorem newVar_fresh (vars : Vars) (base : String) : vars.newVar base ∉ vars.inScope := by
  intro member
  obtain ⟨before, last⟩ := freshIndex_taken vars.inScope base vars.inScope.length 1
  have past := last member
  have all : (List.range (vars.inScope.length + 1)).map (fun j => Var.named base (j + 1)) ⊆
      vars.inScope := by
    intro w among
    obtain ⟨j, below, rfl⟩ := List.mem_map.mp among
    rw [List.mem_range] at below
    rcases Nat.eq_or_lt_of_le (Nat.lt_succ_iff.mp below) with same | less
    · rw [same, Nat.add_comm, ← past]
      exact member
    · exact before (j + 1) (by omega) (by omega)
  have distinct : ((List.range (vars.inScope.length + 1)).map fun j => Var.named base (j + 1)).Nodup :=
    List.nodup_range.map fun i j same => by simpa using same
  have shorter := (List.subperm_of_subset distinct all).length_le
  simp at shorter

/-- The code that is written between the two finds the variables of the first unchanged in the
    second, and lets go at the end of the block only of new ones. -/
structure Extends (vars vars' : Vars) : Prop where
  kept : vars.inScope ⊆ vars'.inScope
  outer : vars'.blockFrees.tail = vars.blockFrees.tail
  freed : ∀ w ∈ vars'.blockFrees.headD [], w ∈ vars.blockFrees.headD [] ∨ w ∉ vars.inScope

theorem Extends.refl (vars : Vars) : Extends vars vars := ⟨fun _ h => h, rfl, fun _ h => .inl h⟩

theorem Extends.trans (first : Extends vars vars') (second : Extends vars' vars'') :
    Extends vars vars'' := by
  refine ⟨List.Subset.trans first.kept second.kept, second.outer.trans first.outer, ?_⟩
  intro w member
  rcases second.freed w member with earlier | new
  · exact first.freed w earlier
  · exact .inr fun old => new (first.kept old)

theorem extends_makeVar (vars : Vars) (base : String) : Extends vars (vars.makeVar base) :=
  ⟨fun _ h => List.mem_cons_of_mem _ h, rfl, fun _ h => .inl h⟩

theorem extends_defined (vars : Vars) (base : String) :
    Extends vars ((vars.makeVar base).releaseWithBlock (vars.newVar base)) := by
  have fresh := newVar_fresh vars base
  unfold Vars.releaseWithBlock
  split
  · exact extends_makeVar vars base
  · next block outer open_ =>
    have before : vars.blockFrees = block :: outer := open_
    refine ⟨fun _ h => List.mem_cons_of_mem _ h, by simp [before], fun w member => ?_⟩
    rcases List.mem_cons.mp member with rfl | earlier
    · exact .inr fresh
    · exact .inl (by simpa [before] using earlier)

theorem newVar_defined (vars : Vars) (base : String) :
    vars.newVar base ∈ ((vars.makeVar base).releaseWithBlock (vars.newVar base)).inScope := by
  unfold Vars.releaseWithBlock
  split <;> exact List.mem_cons_self

theorem Extends.free (h : Extends vars vars') {names : List Var} (new : ∀ w ∈ names, w ∉ vars.inScope) :
    Extends vars (vars'.freeAll names) := by
  refine ⟨fun w member => ?_, h.outer, h.freed⟩
  refine List.mem_filter.mpr ⟨h.kept member, ?_⟩
  simpa using fun freed => new w freed member

theorem Extends.block (h : Extends vars.openBlock vars') : Extends vars vars'.closeBlock := by
  have outer : vars'.blockFrees.tail = vars.blockFrees := h.outer
  refine ⟨fun w member => ?_, by simp [Vars.closeBlock, outer], fun w member => ?_⟩
  · refine List.mem_filter.mpr ⟨h.kept member, ?_⟩
    have new : w ∉ vars'.blockFrees.headD [] := by
      intro freed
      rcases h.freed w freed with none | new
      · cases none
      · exact new member
    simpa using new
  · exact .inl (by simpa [Vars.closeBlock, outer] using member)

def Usable (vars : Vars) (x : Var) : Prop := x = .root ∨ x ∈ vars.inScope

theorem Usable.mono (h : Usable vars x) (more : Extends vars vars') : Usable vars' x :=
  h.imp_right fun member => more.kept member

theorem usable_ne_newVar (h : Usable vars x) (base : String) : x ≠ vars.newVar base := by
  rintro rfl
  rcases h with same | member
  · cases same
  · exact newVar_fresh vars base member

end Variables

section Following
variable (tables : PayloadTables) (opts : VisitOptions)

def narrow (text : Nat → String) (getters : Getters) (m : g.Msg) (v : Option Value) (ctx : Context) :
    Context :=
  match namespaceScope getters m with
  | some getter => some (readString text (readGetters v getter))
  | none => ctx

variable (text : Nat → String) (getters : Getters)

mutual
/-- The calls made when the trie is followed through a value in a context. -/
def follow (ctx : Context) (v : Option Value) : Tree g → List (Visit g)
  | .node handlers children =>
    followTypes ctx v children ++ handlers.flatMap fun h => invocationIn tables opts ctx h v
def followTypes (ctx : Context) (v : Option Value) : Forest g → List (Visit g)
  | .nil => []
  | .cons _ (.field _ f) child rest =>
    (if f.shape = .singular then follow ctx (getField v f.fieldName).head? child
      else (getField v f.fieldName).flatMap fun item => follow ctx (some item) child) ++
        followTypes ctx v rest
  | .cons _ (.oneof _ o) child rest =>
    followOneof ctx (getOneof v o.fieldName) child ++ followTypes ctx v rest
  | .cons _ (.message m) child rest =>
    follow (narrow text getters m v ctx) v child ++ followTypes ctx v rest
def followOneof (ctx : Context) : Option (String × Value) → Tree g → List (Visit g)
  | none, _ => []
  | some (member, content), .node _ children => followCases ctx member content children
def followCases (ctx : Context) (member : String) (content : Value) : Forest g → List (Visit g)
  | .nil => []
  | .cons key step child rest =>
    if wrapperName step = member then follow ctx (getMember member content key) child
    else followCases ctx member content rest
end

def followStep (ctx : Context) (v : Option Value) (child : Tree g) : Step g → List (Visit g)
  | .field _ f =>
    if f.shape = .singular then follow tables opts text getters ctx (getField v f.fieldName).head? child
    else (getField v f.fieldName).flatMap fun item =>
      follow tables opts text getters ctx (some item) child
  | .oneof _ o => followOneof tables opts text getters ctx (getOneof v o.fieldName) child
  | .message m => follow tables opts text getters (narrow text getters m v ctx) v child

theorem followTypes_cons (ctx : Context) (v : Option Value) (key : String) (step : Step g)
    (child : Tree g) (rest : Forest g) :
    followTypes tables opts text getters ctx v (.cons key step child rest) =
      followStep tables opts text getters ctx v child step ++
        followTypes tables opts text getters ctx v rest := by
  cases step <;> rfl

theorem invocationIn_unscoped (ctx ctx' : Context) {h : BoundHandler g} (unscoped : h.handler.scoped = false)
    (v : Option Value) : invocationIn tables opts ctx h v = invocationIn tables opts ctx' h v := by
  simp [invocationIn, unscoped]

mutual
theorem follow_unscoped (ctx ctx' : Context) (v : Option Value) :
    ∀ tree : Tree g, hasScoped tree = false →
      follow tables opts text getters ctx v tree = follow tables opts text getters ctx' v tree
  | .node handlers children, unscoped => by
    simp only [hasScoped, Bool.or_eq_false_iff, List.any_eq_false, Bool.not_eq_true] at unscoped
    have here : (handlers.flatMap fun h => invocationIn tables opts ctx h v) =
        handlers.flatMap fun h => invocationIn tables opts ctx' h v :=
      List.flatMap_congr fun h member => invocationIn_unscoped tables opts ctx ctx' (unscoped.1 h member) v
    rw [follow, follow, here, followTypes_unscoped ctx ctx' v children unscoped.2]
theorem followTypes_unscoped (ctx ctx' : Context) (v : Option Value) :
    ∀ forest : Forest g, forestHasScoped forest = false →
      followTypes tables opts text getters ctx v forest =
        followTypes tables opts text getters ctx' v forest
  | .nil, _ => by simp only [followTypes]
  | .cons _ (.field _ f) child rest, unscoped => by
    simp only [forestHasScoped, Bool.or_eq_false_iff] at unscoped
    have inner := fun item => follow_unscoped ctx ctx' item child unscoped.1
    simp only [followTypes, inner, followTypes_unscoped ctx ctx' v rest unscoped.2]
  | .cons _ (.oneof _ o) (.node _ children) rest, unscoped => by
    simp only [forestHasScoped, hasScoped, Bool.or_eq_false_iff] at unscoped
    have inner := fun member content =>
      followCases_unscoped ctx ctx' member content children unscoped.1.2
    rw [followTypes, followTypes, followTypes_unscoped ctx ctx' v rest unscoped.2]
    cases getOneof v o.fieldName with
    | none => rfl
    | some held => simp only [followOneof, inner]
  | .cons _ (.message m) child rest, unscoped => by
    simp only [forestHasScoped, Bool.or_eq_false_iff] at unscoped
    rw [followTypes, followTypes, followTypes_unscoped ctx ctx' v rest unscoped.2,
      follow_unscoped _ (narrow text getters m v ctx') v child unscoped.1]
theorem followCases_unscoped (ctx ctx' : Context) (member : String) (content : Value) :
    ∀ forest : Forest g, forestHasScoped forest = false →
      followCases tables opts text getters ctx member content forest =
        followCases tables opts text getters ctx' member content forest
  | .nil, _ => by simp only [followCases]
  | .cons key _ child rest, unscoped => by
    simp only [forestHasScoped, Bool.or_eq_false_iff] at unscoped
    rw [followCases, followCases, follow_unscoped ctx ctx' _ child unscoped.1,
      followCases_unscoped ctx ctx' member content rest unscoped.2]
end

/-- The code is written between the two and makes the calls that its parent's value asks for. -/
structure Emitted (vars vars' : Vars) (parent : Var) (code : Block g)
    (calls : Context → Option Value → List (Visit g)) : Prop where
  extended : Extends vars vars'
  runs : ∀ ctx env, (execBlock tables opts text ctx code env).2 = calls ctx (env parent)
  keeps : ∀ ctx env x, Usable vars x → (execBlock tables opts text ctx code env).1 x = env x

variable {tables opts text} {code more : Block g} {calls calls' : Context → Option Value → List (Visit g)}

theorem exec_append (ctx : Context) (code more : Block g) (env : Env) :
    execBlock tables opts text ctx (code.append more) env =
      ((execBlock tables opts text ctx more (execBlock tables opts text ctx code env).1).1,
        (execBlock tables opts text ctx code env).2 ++
          (execBlock tables opts text ctx more (execBlock tables opts text ctx code env).1).2) := by
  match code with
  | .nil => simp [Block.append, execBlock]
  | .cons first rest => simp [Block.append, execBlock, exec_append ctx rest more]

theorem emitted_nil (vars : Vars) (parent : Var) :
    Emitted tables opts text vars vars parent (.nil : Block g) fun _ _ => [] :=
  ⟨.refl vars, fun _ _ => rfl, fun _ _ _ _ => rfl⟩

theorem Emitted.append (usable : Usable vars parent)
    (first : Emitted tables opts text vars vars' parent code calls)
    (second : Emitted tables opts text vars' vars'' parent more calls') :
    Emitted tables opts text vars vars'' parent (code.append more)
      fun ctx v => calls ctx v ++ calls' ctx v := by
  refine ⟨first.extended.trans second.extended, fun ctx env => ?_, fun ctx env x here => ?_⟩
  · rw [exec_append, first.runs, second.runs, first.keeps ctx env parent usable]
  · rw [exec_append]
    exact (second.keeps ctx _ x (here.mono first.extended)).trans (first.keeps ctx env x here)

theorem Emitted.stmt {stmt : Stmt g} (extended : Extends vars vars')
    (runs : ∀ ctx env, execStmt tables opts text ctx stmt env = (env, calls ctx (env parent)))
    (second : Emitted tables opts text vars' vars'' parent more calls') :
    Emitted tables opts text vars vars'' parent (.cons stmt more)
      fun ctx v => calls ctx v ++ calls' ctx v := by
  refine ⟨extended.trans second.extended, fun ctx env => ?_, fun ctx env x here => ?_⟩
  · simp only [execBlock, runs, second.runs]
  · simp only [execBlock, runs]
    exact second.keeps ctx _ x (here.mono extended)

theorem Emitted.defined {base name : String} (usable : Usable vars parent)
    (inner : Emitted tables opts text ((vars.makeVar base).releaseWithBlock (vars.newVar base)) vars'
      (vars.newVar base) code calls)
    (second : Emitted tables opts text vars' vars'' parent more calls') :
    Emitted tables opts text vars vars'' parent
      (.cons (.define (vars.newVar base) parent name) (code.append more))
      fun ctx v => calls ctx (getField v name).head? ++ calls' ctx v := by
  have extended := extends_defined vars base
  have kept (ctx : Context) (env : Env) (x : Var) (here : Usable vars x) :
      (execBlock tables opts text ctx code (Function.update env (vars.newVar base)
        (getField (env parent) name).head?)).1 x = env x := by
    rw [inner.keeps ctx _ x (here.mono extended), Function.update_of_ne (usable_ne_newVar here base)]
  refine ⟨(extended.trans inner.extended).trans second.extended, fun ctx env => ?_,
    fun ctx env x here => ?_⟩
  · simp only [execBlock, execStmt, exec_append, inner.runs, second.runs, Function.update_self,
      kept ctx env parent usable, List.nil_append]
  · simp only [execBlock, execStmt, exec_append]
    exact (second.keeps ctx _ x ((here.mono extended).mono inner.extended)).trans (kept ctx env x here)

theorem Emitted.free (h : Emitted tables opts text vars vars' parent code calls) {names : List Var}
    (new : ∀ w ∈ names, w ∉ vars.inScope) :
    Emitted tables opts text vars (vars'.freeAll names) parent code calls :=
  ⟨h.extended.free new, h.runs, h.keeps⟩

theorem invocations_emitted (vars : Vars) (parent : Var) (handlers : List (BoundHandler g)) :
    Emitted tables opts text vars vars parent (invocations parent handlers)
      fun ctx v => handlers.flatMap fun h => invocationIn tables opts ctx h v := by
  induction handlers with
  | nil => exact emitted_nil vars parent
  | cons h rest ih =>
    refine ⟨.refl vars, fun ctx env => ?_, fun ctx env x here => ?_⟩
    · simp only [invocations, execBlock, execStmt, ih.runs, List.flatMap_cons]
    · simp only [invocations, execBlock, execStmt]
      exact ih.keeps ctx env x here

theorem body_runs {base : String} {body : Block g}
    (h : Emitted tables opts text (vars.makeVar base).openBlock vars' (vars.newVar base) body calls)
    (ctx : Context) (env : Env) (item : Option Value) :
    (execBlock tables opts text ctx body (Function.update env (vars.newVar base) item)).2 =
      calls ctx item := by
  rw [h.runs, Function.update_self]

theorem body_extends {base : String} {body : Block g}
    (h : Emitted tables opts text (vars.makeVar base).openBlock vars' (vars.newVar base) body calls) :
    Extends vars vars'.closeBlock :=
  (extends_makeVar vars base).trans h.extended.block

/- The block that narrows the context is there when a call would see it. -/
theorem Emitted.scoped (m : g.Msg) (node : Tree g) {emitNode : Vars → Block g × Vars}
    (usable : Usable vars parent)
    (unscoped : hasScoped node = false → ∀ ctx ctx' v, calls ctx v = calls ctx' v)
    (h : ∀ vars, Usable vars parent →
      Emitted tables opts text vars (emitNode vars).2 parent (emitNode vars).1 calls) :
    Emitted tables opts text vars (emitScoped getters parent m node emitNode vars).2 parent
      (emitScoped getters parent m node emitNode vars).1
      fun ctx v => calls (narrow text getters m v ctx) v := by
  have plain := h vars usable
  unfold emitScoped narrow
  cases names : namespaceScope getters m with
  | none => cases hasScoped node <;> exact plain
  | some getter =>
    cases anyScoped : hasScoped node with
    | false =>
      refine ⟨plain.extended, fun ctx env => ?_, plain.keeps⟩
      rw [unscoped anyScoped _ ctx]
      exact plain.runs ctx env
    | true =>
      have inner := h vars.openBlock usable
      refine ⟨inner.extended.block, fun ctx env => ?_, fun ctx env x here => ?_⟩
      · simp [execBlock, execStmt, inner.runs]
      · simp [execBlock, execStmt]

mutual
theorem emit_follows (parent : Var) :
    ∀ (tree : Tree g) (vars : Vars), Usable vars parent →
      Emitted tables opts text vars (emit getters parent tree vars).2 parent
        (emit getters parent tree vars).1 fun ctx v => follow tables opts text getters ctx v tree
  | .node handlers children, vars, usable => by
    obtain ⟨types, deferred⟩ := emitTypes_follows parent children vars usable
    have code := types.append usable (invocations_emitted _ parent handlers)
    simpa only [emit, follow] using code.free deferred
theorem emitTypes_follows (parent : Var) :
    ∀ (forest : Forest g) (vars : Vars), Usable vars parent →
      Emitted tables opts text vars (emitTypes getters parent forest vars).2.2 parent
        (emitTypes getters parent forest vars).1
        (fun ctx v => followTypes tables opts text getters ctx v forest) ∧
      ∀ w ∈ (emitTypes getters parent forest vars).2.1, w ∉ vars.inScope
  | .nil, vars, _ => ⟨by simpa only [emitTypes, followTypes] using emitted_nil vars parent,
      by simp [emitTypes]⟩
  | .cons _ (.field _ f) child rest, vars, usable => by
    by_cases single : f.shape = .singular
    · have own : Usable ((vars.makeVar "y").releaseWithBlock (vars.newVar "y")) (vars.newVar "y") :=
        .inr (newVar_defined vars "y")
      have inner := emit_follows (vars.newVar "y") child _ own
      have extended := (extends_defined vars "y").trans inner.extended
      obtain ⟨others, deferred⟩ := emitTypes_follows parent rest _ (usable.mono extended)
      simp only [emitTypes, followTypes, single, ↓reduceIte]
      exact ⟨inner.defined usable others, fun w member old => deferred w member (extended.kept old)⟩
    · have own : Usable (vars.makeVar (rangeBase f.shape)).openBlock (vars.newVar (rangeBase f.shape)) :=
        .inr List.mem_cons_self
      have inner := emit_follows (vars.newVar (rangeBase f.shape)) child _ own
      have extended := body_extends inner
      obtain ⟨others, deferred⟩ := emitTypes_follows parent rest _ (usable.mono extended)
      simp only [emitTypes, followTypes, single, ↓reduceIte]
      refine ⟨others.stmt extended fun ctx env => ?_, fun w member old => ?_⟩
      · simp only [execStmt, body_runs inner]
      · rcases List.mem_cons.mp member with rfl | later
        · exact newVar_fresh vars _ old
        · exact deferred w later (extended.kept old)
  | .cons _ (.oneof _ o) (.node _ children) rest, vars, usable => by
    obtain ⟨extended, runs⟩ := emitCases_follows children vars
    obtain ⟨others, deferred⟩ := emitTypes_follows parent rest _ (usable.mono extended)
    simp only [emitTypes, emitOneOfCases, followTypes]
    refine ⟨others.stmt extended fun ctx env => ?_,
      fun w member old => deferred w member (extended.kept old)⟩
    rw [execStmt]
    cases getOneof (env parent) o.fieldName with
    | none => rfl
    | some held => simp only [runs, followOneof]
  | .cons _ (.message m) child rest, vars, usable => by
    have node := Emitted.scoped getters m child usable
      (fun unscoped ctx ctx' v => follow_unscoped tables opts text getters ctx ctx' v child unscoped)
      (emit_follows parent child)
    obtain ⟨others, deferred⟩ := emitTypes_follows parent rest _ (usable.mono node.extended)
    simp only [emitTypes, followTypes]
    exact ⟨node.append usable others, fun w member old => deferred w member (node.extended.kept old)⟩
theorem emitCases_follows :
    ∀ (forest : Forest g) (vars : Vars),
      Extends vars (emitCases getters forest vars).2 ∧
      ∀ ctx env member content,
        execCases tables opts text ctx member content (emitCases getters forest vars).1 env =
          followCases tables opts text getters ctx member content forest
  | .nil, vars => ⟨.refl vars, fun _ _ _ _ => by simp only [emitCases, execCases, followCases]⟩
  | .cons _ _ child rest, vars => by
    have own : Usable (vars.makeVar "x").openBlock (vars.newVar "x") := .inr List.mem_cons_self
    have inner := emit_follows (vars.newVar "x") child _ own
    have freed : ∀ w ∈ [vars.newVar "x"], w ∉ vars.inScope := by
      intro w member
      rw [List.mem_singleton.mp member]
      exact newVar_fresh vars "x"
    have extended := (body_extends inner).free freed
    obtain ⟨others, runs⟩ := emitCases_follows rest _
    refine ⟨extended.trans others, fun ctx env member content => ?_⟩
    simp only [emitCases, execCases, followCases, runs, body_runs inner]
end

def followRoot (tables : PayloadTables) (opts : VisitOptions) (text : Nat → String) (getters : Getters)
    (ctx : Context) (m : g.Msg) (v : Value) : Forest g → List (Visit g)
  | .nil => []
  | .cons _ step child rest =>
    if step = .message m then
      follow tables opts text getters (narrow text getters m (some v) ctx) (some v) child
    else followRoot tables opts text getters ctx m v rest

theorem visitAdminPayloads_follows (ctx : Context) (m : g.Msg) (v : Value) :
    ∀ (forest : Forest g) (vars : Vars),
      visitAdminPayloads tables opts text ctx m v (emitRoots getters forest vars) =
        followRoot tables opts text getters ctx m v forest
  | .nil, _ => rfl
  | .cons key step first rest, vars => by
    by_cases same : step = .message m
    · subst same
      have code : Emitted tables opts text vars.openBlock _ .root _ _ :=
        Emitted.scoped getters m first (.inl rfl)
          (fun unscoped ctx ctx' v => follow_unscoped tables opts text getters ctx ctx' v first unscoped)
          (emit_follows getters .root first)
      simp [emitRoots, visitAdminPayloads, followRoot, code.runs]
    · cases step with
      | message other =>
        simp only [emitRoots, visitAdminPayloads, followRoot, same, ↓reduceIte]
        exact visitAdminPayloads_follows ctx m v rest _
      | oneof _ _ =>
        simp only [emitRoots, followRoot, reduceCtorEq, ↓reduceIte]
        exact visitAdminPayloads_follows ctx m v rest _
      | field _ _ =>
        simp only [emitRoots, followRoot, reduceCtorEq, ↓reduceIte]
        exact visitAdminPayloads_follows ctx m v rest _

theorem followRoot_find (ctx : Context) (m : g.Msg) (v : Value) :
    ∀ {forest : Forest g} {child : Tree g}, PathTrie.Keyed Step.goName forest →
      PathTrie.find (g.goIdent m) forest = some (.message m, child) →
      followRoot tables opts text getters ctx m v forest =
        follow tables opts text getters (narrow text getters m (some v) ctx) (some v) child
  | .nil, _, _, found => nomatch found
  | .cons key step first rest, child, keyed, found => by
    obtain ⟨named, keyed⟩ := keyed
    by_cases same : step = .message m
    · subst same
      have here : key = g.goIdent m := named
      simp only [PathTrie.find, here, ↓reduceIte, Option.some.injEq, Prod.mk.injEq, true_and] at found
      simp [followRoot, found]
    · have later : PathTrie.find (g.goIdent m) rest = some (.message m, child) := by
        by_cases here : key = g.goIdent m
        · simp only [PathTrie.find, here, ↓reduceIte, Option.some.injEq, Prod.mk.injEq] at found
          exact absurd found.1 same
        · simpa [PathTrie.find, here] using found
      simp only [followRoot, same, ↓reduceIte]
      exact followRoot_find ctx m v keyed later

end Following

end PayloadVisitor
