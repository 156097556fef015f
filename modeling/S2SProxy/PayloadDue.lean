import S2SProxy.EmittedCode

/- The parts of a message that are due for a handler, and the ways through the types that lead to
   them. A way can come to a message whose key is already on it. Behind a message that is inert
   nothing is due but what the test for inertness does not look at. -/
namespace PayloadVisitor
open MemoSearch PathTrie
variable {g : TypeGraph} {tables : PayloadTables} {getters : Getters}

section Due
variable (g) (tables)

def Handles : Handler → Step g → Prop
  | .publicMessage, .message m => g.isPublic m = true ∧ g.fullName m ≠ payloadMessage ∧ CanHold g m
  | .serverPayload, .message m => g.fullName m = payloadMessage
  | .eventBlob, .field m f => tables.eventBlobs.lookup (g.fieldFullName m f) = some true
  | .opaqueField, .field m f => tables.opaques.lookup (g.fieldFullName m f) = some true
  | .helper, .message m => (tables.helpers.lookup (g.fullName m)).isSome = true
  | _, _ => False

/-- A message that is gone into: it is not handled, and not a public message. -/
structure OpenMessage (m : g.Msg) : Prop where
  internal : g.isPublic m = false
  unhandled : ∀ h, ¬Handles g tables h (.message m)

structure OpenField (m : g.Msg) (f : Field g.size) : Prop where
  kept : isIgnored g tables m f = false
  unhandled : ∀ h, ¬Handles g tables h (.field m f)

def contents (v : Value) (f : Field g.size) : List Value :=
  match f.oneof with
  | some o =>
    match getOneof (some v) o.goField with
    | some (member, content) => if member = f.goField then [content] else []
    | none => []
  | none =>
    if f.shape = .singular then (getField (some v) f.goField).head?.toList
    else getField (some v) f.goField

/-- The part x of a message v of type m, at the path, is due for the handler. Nothing is due
    below an ignored field, below what is handled, or below a public message. -/
inductive Due : g.Msg → Value → Handler → VisitPath g → Value → Prop where
  | message {m : g.Msg} {v : Value} {h : Handler} :
      Handles g tables h (.message m) → Due m v h [.message m] v
  | field {m : g.Msg} {v x : Value} {h : Handler} {f : Field g.size} :
      OpenMessage g tables m → f ∈ g.fields m → x ∈ contents g v f → Handles g tables h (.field m f) →
      Due m v h (.message m :: segment m f) x
  | deeper {m t : g.Msg} {v x y : Value} {h : Handler} {f : Field g.size} {path : VisitPath g} :
      OpenMessage g tables m → f ∈ g.fields m → x ∈ contents g v f → OpenField g tables m f →
      f.kind = .message t → Due t x h path y → Due m v h (.message m :: (segment m f ++ path)) y

inductive Way : g.Msg → VisitPath g → Step g → Prop where
  | message (m : g.Msg) : Way m [.message m] (.message m)
  | field {m : g.Msg} {f : Field g.size} :
      OpenMessage g tables m → f ∈ g.fields m → Way m (.message m :: segment m f) (.field m f)
  | deeper {m t : g.Msg} {f : Field g.size} {path : VisitPath g} {node : Step g} :
      OpenMessage g tables m → f ∈ g.fields m → OpenField g tables m f → f.kind = .message t →
      Way t path node → Way m (.message m :: (segment m f ++ path)) node

/-- A way on which no key comes twice, nor any of those seen. -/
inductive Live : List String → g.Msg → VisitPath g → Step g → Prop where
  | message {seen : List String} {m : g.Msg} : g.seenKey m ∉ seen →
      Live seen m [.message m] (.message m)
  | field {seen : List String} {m : g.Msg} {f : Field g.size} : g.seenKey m ∉ seen →
      OpenMessage g tables m → f ∈ g.fields m → Live seen m (.message m :: segment m f) (.field m f)
  | deeper {seen : List String} {m t : g.Msg} {f : Field g.size} {path : VisitPath g} {node : Step g} :
      g.seenKey m ∉ seen → OpenMessage g tables m → f ∈ g.fields m → OpenField g tables m f →
      f.kind = .message t → Live (g.seenKey m :: seen) t path node →
      Live seen m (.message m :: (segment m f ++ path)) node

/-- A message at which the walk stops, since its key is already on the way. -/
inductive Cut : List String → g.Msg → g.Msg → Prop where
  | here {seen : List String} {m : g.Msg} : g.seenKey m ∈ seen → Cut seen m m
  | deeper {seen : List String} {m t cut : g.Msg} {f : Field g.size} : g.seenKey m ∉ seen →
      OpenMessage g tables m → f ∈ g.fields m → OpenField g tables m f → f.kind = .message t →
      Cut (g.seenKey m :: seen) t cut → Cut seen m cut

end Due

section Ways
variable {m : g.Msg} {v x : Value} {h : Handler} {path : VisitPath g} {node : Step g}

theorem Due.way (due : Due g tables m v h path x) :
    ∃ node, Way g tables m path node ∧ Handles g tables h node ∧ path.getLast? = some node := by
  induction due with
  | message handles => exact ⟨_, .message _, handles, rfl⟩
  | @field m v x h f openM member _ handles =>
    refine ⟨_, .field openM member, handles, ?_⟩
    unfold segment
    cases f.oneof <;> rfl
  | deeper openM member _ openF kind _ ih =>
    obtain ⟨node, way, handles, last⟩ := ih
    refine ⟨node, .deeper openM member openF kind way, handles, ?_⟩
    rw [List.getLast?_cons, List.getLast?_append, last]
    rfl

theorem Due.starts (due : Due g tables m v h path x) : ∃ rest, path = .message m :: rest := by
  cases due with
  | message _ => exact ⟨_, rfl⟩
  | field _ _ _ _ => exact ⟨_, rfl⟩
  | deeper _ _ _ _ _ _ => exact ⟨_, rfl⟩

theorem Way.live_or_cut (way : Way g tables m path node) (seen : List String) :
    Live g tables seen m path node ∨
      ∃ cut path', Cut g tables seen m cut ∧ Way g tables cut path' node := by
  induction way generalizing seen with
  | message m =>
    by_cases known : g.seenKey m ∈ seen
    · exact .inr ⟨m, _, .here known, .message m⟩
    · exact .inl (.message known)
  | @field m f openM member =>
    by_cases known : g.seenKey m ∈ seen
    · exact .inr ⟨m, _, .here known, .field openM member⟩
    · exact .inl (.field known openM member)
  | @deeper m t f path node openM member openF kind way ih =>
    by_cases known : g.seenKey m ∈ seen
    · exact .inr ⟨m, _, .here known, .deeper openM member openF kind way⟩
    · rcases ih (g.seenKey m :: seen) with live | ⟨cut, path', cutAt, rest⟩
      · exact .inl (.deeper known openM member openF kind live)
      · exact .inr ⟨cut, path', .deeper known openM member openF kind cutAt, rest⟩

def pathKeys (path : VisitPath g) : List String :=
  path.filterMap fun
    | .message m => some (g.seenKey m)
    | .oneof _ _ | .field _ _ => none

theorem pathKeys_segment (m : g.Msg) (f : Field g.size) : pathKeys (segment m f) = [] := by
  unfold segment
  cases f.oneof <;> rfl

theorem Way.live (way : Way g tables m path node) (seen : List String)
    (distinct : (pathKeys path).Nodup) (new : ∀ k ∈ pathKeys path, k ∉ seen) :
    Live g tables seen m path node := by
  induction way generalizing seen with
  | message m => exact .message (new _ (by simp [pathKeys]))
  | field openM member => exact .field (new _ (by simp [pathKeys])) openM member
  | @deeper m t f path node openM member openF kind way ih =>
    have keys : pathKeys (.message m :: (segment m f ++ path)) = g.seenKey m :: pathKeys path := by
      have none := pathKeys_segment m f
      simp only [pathKeys] at none ⊢
      simp [none]
    rw [keys] at distinct new
    refine .deeper (new _ List.mem_cons_self) openM member openF kind
      (ih _ (List.nodup_cons.mp distinct).2 fun k member known => ?_)
    rcases List.mem_cons.mp known with rfl | earlier
    · exact (List.nodup_cons.mp distinct).1 member
    · exact new k (List.mem_cons_of_mem _ member) earlier

/-- No field is in Ignored and in EventBlobs or Opaque. -/
def Separate (g : TypeGraph) (tables : PayloadTables) : Prop :=
  ∀ h (m : g.Msg) (f : Field g.size), Handles g tables h (.field m f) → isIgnored g tables m f = false

/- Behind an inert message only helpers are due, and listed fields of another kind. -/
theorem Way.behind_inert (separate : Separate g tables) (way : Way g tables m path node)
    (inert : Inert g tables m) (handles : Handles g tables h node) :
    h = .helper ∨ ∃ m f, node = .field m f ∧ isOpaqueKind g f = false := by
  induction way with
  | message m =>
    cases h with
    | helper => exact .inl rfl
    | publicMessage => exact absurd handles.2.2 inert.holds_nothing
    | serverPayload => exact absurd (.here (.inl handles)) inert.holds_nothing
    | eventBlob => exact handles.elim
    | opaqueField => exact handles.elim
  | @field m f openM member =>
    refine .inr ⟨m, f, rfl, ?_⟩
    by_contra data
    have ignored := inert.ignored openM.internal member (Bool.eq_true_of_not_eq_false data)
    cases ignored.symm.trans (separate h m f handles)
  | @deeper m t f path node openM member openF kind way ih =>
    have visible : isOpaqueKind g f = false := by
      by_contra data
      have ignored := inert.ignored openM.internal member (Bool.eq_true_of_not_eq_false data)
      cases ignored.symm.trans openF.kept
    exact ih (inert.child openM.internal member visible kind) handles

end Ways

end PayloadVisitor
