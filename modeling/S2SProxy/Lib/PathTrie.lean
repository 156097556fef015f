import Mathlib

/- A trie of paths. The nodes below a node are told apart by the names of the steps to them,
   and a node remembers the step by which it was last entered. Two steps of one name therefore
   share a node; where the steps that can follow a step differ in their names, they do not. -/
namespace PathTrie
variable {κ τ η : Type} [DecidableEq κ]

mutual
inductive Tree (κ τ η : Type) where
  | node (handlers : List η) (children : Forest κ τ η)
inductive Forest (κ τ η : Type) where
  | nil
  | cons (key : κ) (step : τ) (child : Tree κ τ η) (rest : Forest κ τ η)
end

def empty : Tree κ τ η := .node [] .nil

def upsert (key : κ) (step : τ) (f : Tree κ τ η → Tree κ τ η) : Forest κ τ η → Forest κ τ η
  | .nil => .cons key step (f empty) .nil
  | .cons other old child rest =>
    if other = key then .cons key step (f child) rest else .cons other old child (upsert key step f rest)

def insert (name : τ → κ) : List τ → η → Tree κ τ η → Tree κ τ η
  | [], h, .node handlers children => .node (handlers ++ [h]) children
  | p :: rest, h, .node handlers children =>
    .node handlers (upsert (name p) p (insert name rest h) children)

def find (key : κ) : Forest κ τ η → Option (τ × Tree κ τ η)
  | .nil => none
  | .cons other step child rest => if other = key then some (step, child) else find key rest

/-- The handler stands at the end of the path, whose steps are those remembered. -/
def Holds (name : τ → κ) : List τ → η → Tree κ τ η → Prop
  | [], h, .node handlers _ => h ∈ handlers
  | p :: rest, h, .node _ children =>
    ∃ child, find (name p) children = some (p, child) ∧ Holds name rest h child

/-- The nodes of a forest stand under the names of their steps. -/
def Keyed (name : τ → κ) : Forest κ τ η → Prop
  | .nil => True
  | .cons key step _ rest => key = name step ∧ Keyed name rest

def KeyedTree (name : τ → κ) : Tree κ τ η → Prop
  | .node _ children => Keyed name children

/-- As long as two paths go by the same names they are the same. -/
def Coherent (name : τ → κ) : List τ → List τ → Prop
  | p :: ps, q :: qs => name p = name q → p = q ∧ Coherent name ps qs
  | _, _ => True

mutual
def handlersIn : Tree κ τ η → List η
  | .node handlers children => handlers ++ handlersBelow children
def handlersBelow : Forest κ τ η → List η
  | .nil => []
  | .cons _ _ child rest => handlersIn child ++ handlersBelow rest
end

mutual
/-- The handlers stand at the ends of their own paths, which lead through the remembered steps. No
    two nodes of a forest have one name. -/
def Placed (name : τ → κ) (grow : List τ → τ → Prop) (own : η → List τ) (path : List τ) :
    Tree κ τ η → Prop
  | .node handlers children => (∀ h ∈ handlers, own h = path) ∧ PlacedBelow name grow own path children
def PlacedBelow (name : τ → κ) (grow : List τ → τ → Prop) (own : η → List τ) (path : List τ) :
    Forest κ τ η → Prop
  | .nil => True
  | .cons key step child rest =>
    (key = name step ∧ grow path step ∧ Placed name grow own (path ++ [step]) child) ∧
      find key rest = none ∧ PlacedBelow name grow own path rest
end

def Grown (grow : List τ → τ → Prop) (path : List τ) : List τ → Prop
  | [] => True
  | step :: rest => grow path step ∧ Grown grow (path ++ [step]) rest

variable {name : τ → κ}

theorem find_upsert_same (key : κ) (step : τ) (f : Tree κ τ η → Tree κ τ η) :
    ∀ children : Forest κ τ η, find key (upsert key step f children) =
      some (step, f (((find key children).map Prod.snd).getD empty))
  | .nil => by simp [upsert, find]
  | .cons other old child rest => by
    by_cases same : other = key
    · simp [upsert, find, same]
    · simp [upsert, find, same, find_upsert_same key step f rest]

theorem find_upsert_ne {key other : κ} (differ : other ≠ key) (step : τ)
    (f : Tree κ τ η → Tree κ τ η) :
    ∀ children : Forest κ τ η, find other (upsert key step f children) = find other children
  | .nil => by simp [upsert, find, Ne.symm differ]
  | .cons first old child rest => by
    by_cases same : first = key
    · have : key ≠ other := Ne.symm differ
      simp [upsert, find, same, this]
    · simp [upsert, find, same, find_upsert_ne differ step f rest]

theorem keyed_upsert (step : τ) (f : Tree κ τ η → Tree κ τ η) :
    ∀ {children : Forest κ τ η}, Keyed name children → Keyed name (upsert (name step) step f children)
  | .nil, _ => ⟨rfl, trivial⟩
  | .cons other old child rest, keyed => by
    by_cases same : other = name step
    · simp only [upsert, same, ↓reduceIte]
      exact ⟨rfl, keyed.2⟩
    · simp only [upsert, same, ↓reduceIte]
      exact ⟨keyed.1, keyed_upsert step f keyed.2⟩

theorem keyed_insert (path : List τ) (h : η) {t : Tree κ τ η} (keyed : KeyedTree name t) :
    KeyedTree name (insert name path h t) := by
  obtain ⟨handlers, children⟩ := t
  cases path with
  | nil => exact keyed
  | cons p rest => exact keyed_upsert p _ keyed

theorem holds_insert (path : List τ) (h : η) (t : Tree κ τ η) : Holds name path h (insert name path h t) := by
  induction path generalizing t with
  | nil =>
    obtain ⟨handlers, children⟩ := t
    simp [insert, Holds]
  | cons p rest ih =>
    obtain ⟨handlers, children⟩ := t
    exact ⟨_, find_upsert_same _ _ _ children, ih _⟩

theorem holds_insert_other {path other : List τ} {h h' : η} {t : Tree κ τ η}
    (coherent : Coherent name path other) (held : Holds name path h t) :
    Holds name path h (insert name other h' t) := by
  induction path generalizing other t with
  | nil =>
    obtain ⟨handlers, children⟩ := t
    have member : h ∈ handlers := held
    cases other with
    | nil => simp [insert, Holds, member]
    | cons q qs => exact member
  | cons p rest ih =>
    obtain ⟨handlers, children⟩ := t
    obtain ⟨child, found, below⟩ := held
    cases other with
    | nil => exact ⟨child, found, below⟩
    | cons q qs =>
      by_cases same : name p = name q
      · obtain ⟨rfl, deeper⟩ := coherent same
        refine ⟨_, find_upsert_same _ _ _ children, ?_⟩
        rw [found]
        exact ih deeper below
      · exact ⟨child, (find_upsert_ne same _ _ children).trans found, below⟩

section Placing
variable {grow : List τ → τ → Prop} {own : η → List τ}

theorem placed_empty (path : List τ) : Placed name grow own path (empty : Tree κ τ η) :=
  ⟨fun _ none => (nomatch none), trivial⟩

/- The node that is changed is the one of the same step, not only of the same name. -/
theorem placedBelow_upsert {path : List τ} {step : τ} {f : Tree κ τ η → Tree κ τ η}
    (distinct : ∀ other, grow path other → name other = name step → other = step)
    (grows : grow path step)
    (kept : ∀ child, Placed name grow own (path ++ [step]) child →
      Placed name grow own (path ++ [step]) (f child)) :
    ∀ {children : Forest κ τ η}, PlacedBelow name grow own path children →
      PlacedBelow name grow own path (upsert (name step) step f children)
  | .nil, _ => ⟨⟨rfl, grows, kept empty (placed_empty _)⟩, rfl, trivial⟩
  | .cons key old child rest, placed => by
    obtain ⟨⟨named, grew, below⟩, unique, others⟩ := placed
    by_cases same : key = name step
    · obtain rfl := distinct old grew (named.symm.trans same)
      simp only [upsert, same, ↓reduceIte]
      exact ⟨⟨rfl, grows, kept child below⟩, same ▸ unique, others⟩
    · simp only [upsert, same, ↓reduceIte]
      refine ⟨⟨named, grew, below⟩, ?_, placedBelow_upsert distinct grows kept others⟩
      rw [find_upsert_ne same]
      exact unique

theorem placedBelow_find {path : List τ} {key : κ} {step : τ} {child : Tree κ τ η} :
    ∀ {children : Forest κ τ η}, PlacedBelow name grow own path children →
      find key children = some (step, child) →
      key = name step ∧ grow path step ∧ Placed name grow own (path ++ [step]) child
  | .nil, _, found => by simp [find] at found
  | .cons other old first rest, placed, found => by
    obtain ⟨here, -, others⟩ := placed
    by_cases same : other = key
    · simp only [find, same, ↓reduceIte, Option.some.injEq, Prod.mk.injEq] at found
      obtain ⟨rfl, rfl⟩ := found
      exact same ▸ here
    · exact placedBelow_find others (by simpa [find, same] using found)

theorem placed_insert (distinct : ∀ path q q', grow path q → grow path q' → name q = name q' → q = q')
    {path more : List τ} {h : η} {t : Tree κ τ η} (placed : Placed name grow own path t)
    (grown : Grown grow path more) (ends : own h = path ++ more) :
    Placed name grow own path (insert name more h t) := by
  induction more generalizing path t with
  | nil =>
    obtain ⟨handlers, children⟩ := t
    obtain ⟨here, below⟩ := placed
    refine ⟨fun h' member => ?_, below⟩
    rcases List.mem_append.mp member with old | new
    · exact here h' old
    · rw [List.mem_singleton.mp new, ends, List.append_nil]
  | cons step rest ih =>
    obtain ⟨handlers, children⟩ := t
    obtain ⟨here, below⟩ := placed
    obtain ⟨grows, further⟩ := grown
    refine ⟨here, placedBelow_upsert ?_ grows ?_ below⟩
    · exact fun other grew same => distinct path other step grew grows same
    · exact fun child placed => ih placed further (by rw [ends, List.append_assoc, List.singleton_append])

mutual
theorem placed_path {path : List τ} {h : η} :
    ∀ {t : Tree κ τ η}, Placed name grow own path t → h ∈ handlersIn t →
      ∃ more, own h = path ++ more ∧ Grown grow path more
  | .node handlers children, placed, member => by
    obtain ⟨here, below⟩ := placed
    rw [handlersIn] at member
    rcases List.mem_append.mp member with own | deeper
    · exact ⟨[], by rw [here h own, List.append_nil], trivial⟩
    · obtain ⟨step, more, ends, grown, -⟩ := placedBelow_path below deeper
      exact ⟨step :: more, ends, grown⟩
theorem placedBelow_path {path : List τ} {h : η} :
    ∀ {children : Forest κ τ η}, PlacedBelow name grow own path children → h ∈ handlersBelow children →
      ∃ step more, own h = path ++ step :: more ∧ Grown grow path (step :: more) ∧
        find (name step) children ≠ none
  | .nil, _, member => by simp [handlersBelow] at member
  | .cons key step child rest, placed, member => by
    obtain ⟨⟨named, grows, below⟩, -, others⟩ := placed
    rw [handlersBelow] at member
    rcases List.mem_append.mp member with inside | later
    · obtain ⟨more, ends, grown⟩ := placed_path below inside
      refine ⟨step, more, by rw [ends, List.append_assoc, List.singleton_append], ⟨grows, grown⟩, ?_⟩
      simp [find, named]
    · obtain ⟨other, more, ends, grown, found⟩ := placedBelow_path others later
      refine ⟨other, more, ends, grown, ?_⟩
      by_cases same : key = name other
      · simp [find, same]
      · simpa [find, same] using found
end

/- Below a node of another step there is no handler with the path, and neither is there one beside
   the node of its step. -/
theorem path_elsewhere {path more : List τ} {step other : τ} {h : η} {child : Tree κ τ η}
    (placed : Placed name grow own (path ++ [other]) child) (ends : own h = path ++ step :: more)
    (differ : other ≠ step) : h ∉ handlersIn child := by
  intro member
  obtain ⟨rest, same, -⟩ := placed_path placed member
  rw [ends, List.append_assoc, List.append_cancel_left_eq] at same
  exact differ (List.cons.inj same).1.symm

theorem path_beside {path more : List τ} {step : τ} {h : η} {rest : Forest κ τ η}
    (placed : PlacedBelow name grow own path rest) (ends : own h = path ++ step :: more)
    (unique : find (name step) rest = none) : h ∉ handlersBelow rest := by
  intro member
  obtain ⟨other, _, same, -, found⟩ := placedBelow_path placed member
  rw [ends, List.append_cancel_left_eq] at same
  obtain rfl := (List.cons.inj same).1
  exact found unique

end Placing

omit [DecidableEq κ] in
/- Where the steps that can follow a step differ in their names, two paths that begin with one
   step are coherent. -/
theorem coherent_of_chain {next : τ → τ → Prop}
    (distinct : ∀ p q q', next p q → next p q' → name q = name q' → q = q')
    {p : τ} {ps qs : List τ} (first : (p :: ps).IsChain next) (second : (p :: qs).IsChain next) :
    Coherent name ps qs := by
  induction ps generalizing p qs with
  | nil => cases qs <;> trivial
  | cons a rest ih =>
    cases qs with
    | nil => trivial
    | cons b others =>
      intro same
      obtain ⟨toA, first⟩ := List.isChain_cons_cons.mp first
      obtain ⟨toB, second⟩ := List.isChain_cons_cons.mp second
      obtain rfl := distinct p a b toA toB same
      exact ⟨rfl, ih first second⟩

end PathTrie
