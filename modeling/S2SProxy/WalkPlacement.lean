import S2SProxy.WalkCoverage

/- Where the walk puts the handlers. A handler is inserted at the path at which it matched. If no two
   root messages have one Go name, steps from one node differ in their names, and the handlers of the
   trie stand at the ends of their own paths. -/
namespace PayloadVisitor
open MemoSearch PathTrie
variable {g : TypeGraph} {tables : PayloadTables} {getters : Getters}

section Kept
variable {roots : List g.Msg} {P : Tree g → Prop} {e : Emitter g} {path : VisitPath g}

/-- Inserting a handler at a path of the types keeps what is known of the trie. -/
def InsertKeeps (roots : List g.Msg) (P : Tree g → Prop) : Prop :=
  ∀ path h t, Rooted roots path → P t → P (PathTrie.insert Step.goName path ⟨h, path⟩ t)

theorem offerHandlers_keeps (keeps : InsertKeeps roots P) (step : Step g) (rooted : Rooted roots path)
    (hs : List Handler) (e : Emitter g) (known : P e.root) :
    P (offerHandlers tables step path hs e).2.root := by
  induction hs generalizing e with
  | nil => exact known
  | cons h rest ih =>
    rcases included : includes tables e.classifier h step with ⟨matched, c⟩
    simp only [offerHandlers, included]
    cases matched with
    | false => exact ih _ known
    | true => exact ih _ (keeps path h e.root rooted known)

theorem emitterVisit_keeps (keeps : InsertKeeps roots P) (step : Step g) (rooted : Rooted roots path)
    (known : P e.root) : P (e.visit tables getters step path).2.root := by
  have offered : P (offerHandlers tables step path handlers e).2.root :=
    offerHandlers_keeps keeps step rooted handlers e known
  rcases result : offerHandlers tables step path handlers e with ⟨matched, e'⟩
  rw [result] at offered
  simp only [Emitter.visit, result]
  split
  · exact offered
  · split <;> exact offered

theorem visitFields_keeps (keeps : InsertKeeps roots P) {m : g.Msg}
    {enter : VisitPath g → g.Msg → Emitter g → Emitter g}
    (entered : ∀ path t e, Rooted roots (path ++ [Step.message t]) → P e.root → P (enter path t e).root)
    (fields : List (Field g.size)) (rooted : ∀ f ∈ fields, Rooted roots (path ++ segment m f))
    (e : Emitter g) (known : P e.root) :
    P (visitFields tables getters enter m path fields e).root := by
  induction fields generalizing e with
  | nil => exact known
  | cons f rest ih =>
    have here := rooted f List.mem_cons_self
    have later := ih fun f' member => rooted f' (List.mem_cons_of_mem f member)
    have offered : P (e.visit tables getters (.field m f) (path ++ segment m f)).2.root :=
      emitterVisit_keeps keeps (.field m f) here known
    rcases visited : e.visit tables getters (.field m f) (path ++ segment m f) with ⟨action, e'⟩
    rw [visited] at offered
    cases action with
    | abort =>
      simp only [visitFields, visited]
      exact offered
    | prune =>
      simp only [visitFields, visited]
      exact later e' offered
    | descend =>
      simp only [visitFields, visited]
      split
      · next t kind => exact later _ (entered _ t e' (rooted_target here kind) offered)
      all_goals exact later e' offered

theorem visit_keeps (keeps : InsertKeeps roots P) (fuel : Nat) (seen : List String)
    (path : VisitPath g) (m : g.Msg) (e : Emitter g) (rooted : Rooted roots (path ++ [Step.message m]))
    (known : P e.root) : P (visit tables getters fuel seen path m e).root := by
  induction fuel generalizing seen path m e with
  | zero => exact known
  | succ fuel ih =>
    by_cases again : g.seenKey m ∈ seen
    · simp only [visit, again, ↓reduceIte]
      exact known
    · have offered : P (e.visit tables getters (.message m) (path ++ [Step.message m])).2.root :=
        emitterVisit_keeps keeps (.message m) rooted known
      rcases visited : e.visit tables getters (.message m) (path ++ [Step.message m]) with ⟨action, e'⟩
      rw [visited] at offered
      simp only [visit, again, ↓reduceIte, visited]
      cases action with
      | descend =>
        exact visitFields_keeps keeps (ih (g.seenKey m :: seen)) (g.fields m)
          (fun f member => rooted_segment rooted member) e' offered
      | prune => exact offered
      | abort => exact offered

end Kept

theorem walkRoots_keeps {P : Tree g → Prop} (keeps : InsertKeeps (roots g tables) P) (known : P PathTrie.empty)
    (c : Classifier g) : P (walkRoots g tables getters c).root := by
  have walked (rs : List g.Msg) (among : rs ⊆ roots g tables) (e : Emitter g) (known : P e.root) :
      P (rs.foldl (fun e m => e.visitRoot tables getters m) e).root := by
    induction rs generalizing e with
    | nil => exact known
    | cons r rest ih =>
      have rooted : Rooted (roots g tables) ([] ++ [Step.message r]) :=
        ⟨r, among List.mem_cons_self, [], rfl, .singleton _⟩
      exact ih (fun r' later => among (List.mem_cons_of_mem r later)) _
        (visit_keeps keeps _ [] [] r e rooted known)
  exact walked (roots g tables) (fun _ h => h) _ known

section Placement

/-- The steps by which a path of the types can go on. -/
def Grow (roots : List g.Msg) (path : VisitPath g) (step : Step g) : Prop :=
  match path.getLast? with
  | none => ∃ r ∈ roots, step = .message r
  | some last => Next last step

variable {roots : List g.Msg}

theorem grow_iff_next {path : VisitPath g} {last : Step g} (ends : path.getLast? = some last)
    (step : Step g) : Grow roots path step ↔ Next last step := by
  simp only [Grow, ends]

theorem grow_distinct (apart : NamesApart roots) (path : VisitPath g) (q q' : Step g)
    (first : Grow roots path q) (second : Grow roots path q') (same : q.goName = q'.goName) : q = q' := by
  unfold Grow at first second
  cases ends : path.getLast? with
  | none =>
    rw [ends] at first second
    obtain ⟨r, member, rfl⟩ := first
    obtain ⟨r', member', rfl⟩ := second
    rw [apart.idents r member r' member' same]
  | some last =>
    rw [ends] at first second
    exact next_distinct apart.members last q q' first second same

theorem grown_iff_chain {path more : VisitPath g} {last : Step g} (ends : path.getLast? = some last) :
    Grown (Grow roots) path more ↔ (last :: more).IsChain Next := by
  induction more generalizing path last with
  | nil => exact iff_of_true trivial (.singleton last)
  | cons step rest ih =>
    have further : (path ++ [step]).getLast? = some step := by simp
    rw [Grown, grow_iff_next ends, ih further, List.isChain_cons_cons]

theorem Rooted.grown {path : VisitPath g} (rooted : Rooted roots path) : Grown (Grow roots) [] path := by
  obtain ⟨r, member, rest, rfl, chain⟩ := rooted
  exact ⟨⟨r, member, rfl⟩, (grown_iff_chain rfl).mpr chain⟩

abbrev PlacedAt (roots : List g.Msg) : VisitPath g → Tree g → Prop :=
  Placed Step.goName (Grow roots) BoundHandler.path

abbrev PlacedUnder (roots : List g.Msg) : VisitPath g → Forest g → Prop :=
  PlacedBelow Step.goName (Grow roots) BoundHandler.path

end Placement

theorem buildPayloads_ok {built : Built g} (ok : buildPayloads g tables = .ok built) :
    ∃ c, newPayloadClassifier g tables = .ok (built.getters, c) ∧
      built.emitter = walkRoots g tables built.getters c ∧ built.emitter.errs = [] := by
  unfold buildPayloads at ok
  split at ok
  · cases ok
  · next found c classified =>
    simp only at ok
    split at ok
    · next none =>
      obtain rfl := Except.ok.inj ok
      simp only [List.append_eq_nil_iff] at none
      exact ⟨c, classified, rfl, none.1.1.2⟩
    · cases ok

theorem built_placed (apart : NamesApart (roots g tables)) {built : Built g}
    (ok : buildPayloads g tables = .ok built) :
    PlacedAt (roots g tables) [] built.emitter.root := by
  obtain ⟨c, _, same, _⟩ := buildPayloads_ok ok
  rw [same]
  refine walkRoots_keeps (fun path h t rooted placed => ?_) (placed_empty []) c
  exact placed_insert (grow_distinct apart) placed rooted.grown rfl

end PayloadVisitor
