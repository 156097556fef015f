import S2SProxy.Lib.MemoSearch

/- The protobuf types that the payload generator walks, the payloadTables, and what
   payloadClassifier knows of a message: whether it can hold a payload and whether it is inert.
   A message is its number in the graph; its full name tells it from the others. -/
namespace PayloadVisitor
open MemoSearch

/-- protoreflect.FullName, by its parts. -/
abbrev FullName := List String

inductive Kind (n : Nat) where
  | message (target : Fin n)
  | bytes
  | string
  | scalar
  deriving DecidableEq

inductive Shape where
  | singular
  | list
  | map
  deriving DecidableEq

/-- protobuf names are of ASCII letters, digits and underscores. -/
def camelToPascalCase (s : String) : String :=
  match s.toList with
  | [] => s
  | first :: rest => String.ofList (first.toUpper :: rest)

def pascalTail : List Char → List Char
  | [] => []
  | '_' :: next :: rest => next.toUpper :: pascalTail rest
  | c :: rest => c :: pascalTail rest

def snakeToPascalCase (s : String) : String :=
  match s.toList with
  | [] => s
  | first :: rest => String.ofList (first.toUpper :: pascalTail rest)

/- What protoc-gen-go calls a field or a oneof in the Go code of its message, goField, need not be
   the name that the walk computes for it. -/
structure Oneof where
  name : String
  goField : String
  deriving DecidableEq

/-- A field descriptor; the kind of a map is that of its values. -/
structure Field (n : Nat) where
  name : String
  jsonName : String
  goField : String
  oneof : Option Oneof
  shape : Shape
  kind : Kind n
  deriving DecidableEq

def Oneof.fieldName (o : Oneof) : String := snakeToPascalCase o.name

def Field.fieldName {n : Nat} (f : Field n) : String := camelToPascalCase f.jsonName

structure Message (n : Nat) where
  pkg : FullName
  /-- The name relative to the package, outermost message first. -/
  nesting : List String
  fields : List (Field n)

def Message.fullName {n : Nat} (m : Message n) : FullName := m.pkg ++ m.nesting

def Message.goIdent {n : Nat} (m : Message n) : String := "_".intercalate m.nesting

/-- obj.Parent().Name(): the enclosing message, or the file, which goes by the end of its package. -/
def Message.parentName {n : Nat} (m : Message n) : String :=
  match m.nesting.reverse with
  | _ :: outer :: _ => outer
  | _ => m.pkg.getLast?.getD ""

def Message.seenKey {n : Nat} (m : Message n) : String := m.parentName ++ "." ++ m.goIdent

/-- Registered messages have different names. -/
structure TypeGraph where
  size : Nat
  message : Fin size → Message size
  names : Function.Injective fun m => (message m).fullName

def adminServicePackage : FullName := ["temporal", "server", "api", "adminservice", "v1"]
def payloadMessage : FullName := ["temporal", "api", "common", "v1", "Payload"]
def dataBlobMessage : FullName := ["temporal", "api", "common", "v1", "DataBlob"]
def anyMessage : FullName := ["google", "protobuf", "Any"]

/-- The prefix is "temporal.api.". -/
def hasPublicAPIPrefix : FullName → Bool
  | "temporal" :: "api" :: _ :: _ => true
  | _ => false

structure PayloadHelper where
  name : String
  handles : List FullName

structure PayloadTables where
  eventBlobs : AList fun _ : FullName => Bool
  opaques : AList fun _ : FullName => Bool
  helpers : AList fun _ : FullName => PayloadHelper
  ignored : AList fun _ : FullName => String
  decodeTargets : List FullName
  /-- The dotted paths, by their parts. -/
  namespaceIDs : AList fun _ : FullName => List String

variable (g : TypeGraph)

abbrev TypeGraph.Msg := Fin g.size

def TypeGraph.fields (m : g.Msg) : List (Field g.size) := (g.message m).fields
def TypeGraph.fullName (m : g.Msg) : FullName := (g.message m).fullName
def TypeGraph.goIdent (m : g.Msg) : String := (g.message m).goIdent
def TypeGraph.seenKey (m : g.Msg) : String := (g.message m).seenKey
def TypeGraph.isPublic (m : g.Msg) : Bool := hasPublicAPIPrefix (g.fullName m)
def TypeGraph.fieldFullName (m : g.Msg) (f : Field g.size) : FullName := g.fullName m ++ [f.name]

def TypeGraph.find (name : FullName) : Option g.Msg :=
  (List.finRange g.size).find? fun m => g.fullName m = name

def isOpaqueKind (f : Field g.size) : Bool :=
  match f.kind with
  | .bytes => true
  | .message t => g.fullName t = dataBlobMessage || g.fullName t = anyMessage
  | .string | .scalar => false

def payloadVerdict (m : g.Msg) : Option Bool :=
  if g.fullName m = payloadMessage ∨ g.fullName m = anyMessage then some true else none

def payloadEdges (m : g.Msg) : List (Edge g.Msg) :=
  (g.fields m).map fun f =>
    match f.kind with
    | .message t => .into t
    | .bytes | .string | .scalar => .skip

def reachProblem : Problem g.Msg Unit where
  verdict m outer := (payloadVerdict g m, outer)
  edges := payloadEdges g

abbrev ReachMemo := Searched g.Msg Unit

def canReachPayload (m : g.Msg) (reach : ReachMemo g) : Bool × ReachMemo g :=
  let (answer, reach) := search (reachProblem g) (g.size + 1) [] m reach
  (answer.found, reach)

variable (tables : PayloadTables)

def isIgnored (m : g.Msg) (f : Field g.size) : Bool :=
  (tables.ignored.lookup (g.fieldFullName m f)).isSome

def dataEdges (m : g.Msg) : List (Edge g.Msg) :=
  (g.fields m).map fun f =>
    if isOpaqueKind g f then if isIgnored g tables m f then .skip else .hit
    else
      match f.kind with
      | .message t => .into t
      | .bytes | .string | .scalar => .skip

/-- payloadClassifier.inert, as a search for what is not inert. -/
def inertProblem : Problem g.Msg (ReachMemo g) where
  verdict m reach :=
    let (ok, reach) := canReachPayload g m reach
    (if ok then some true else if g.isPublic m then some false else none, reach)
  edges := dataEdges g tables

structure Classifier where
  used : List FullName
  /-- c.inertMemo, with c.reach as its state. -/
  memos : Searched g.Msg (ReachMemo g)

variable {g}

def Classifier.use (c : Classifier g) (name : FullName) : Classifier g := { c with used := name :: c.used }

def Classifier.canReachPayload (c : Classifier g) (m : g.Msg) : Bool × Classifier g :=
  let (ok, reach) := PayloadVisitor.canReachPayload g m c.memos.outer
  (ok, { c with memos := { c.memos with outer := reach } })

def Classifier.isInert (c : Classifier g) (m : g.Msg) : Bool × Classifier g :=
  let (answer, memos) := search (inertProblem g tables) (g.size + 1) [] m c.memos
  (!answer.found, { c with memos := memos })

def Classifier.isInertField (c : Classifier g) (m : g.Msg) (f : Field g.size) : Bool × Classifier g :=
  if isOpaqueKind g f then (isIgnored g tables m f, c)
  else
    match f.kind with
    | .message t => c.isInert tables t
    | .bytes | .string | .scalar => (true, c)

variable (g)

/-- A message of the type can hold a payload; an Any counts. -/
inductive CanHold : g.Msg → Prop where
  | here {m : g.Msg} : g.fullName m = payloadMessage ∨ g.fullName m = anyMessage → CanHold m
  | field {m t : g.Msg} {f : Field g.size} : f ∈ g.fields m → f.kind = .message t → CanHold t →
      CanHold m

theorem mem_payloadEdges {m t : g.Msg} :
    .into t ∈ payloadEdges g m ↔ ∃ f ∈ g.fields m, f.kind = .message t := by
  simp only [payloadEdges, List.mem_map]
  refine exists_congr fun f => and_congr_right fun _ => ?_
  cases f.kind <;> simp

theorem no_payload_hit (m : g.Msg) : .hit ∉ payloadEdges g m := by
  simp only [payloadEdges, List.mem_map, not_exists, not_and]
  intro f _
  cases f.kind <;> simp

theorem found_iff_canHold (m : g.Msg) :
    Found (payloadVerdict g) (payloadEdges g) m ↔ CanHold g m := by
  constructor
  · intro found
    obtain ⟨k, found⟩ := found
    induction found with
    | @verdict m yes =>
      unfold payloadVerdict at yes
      split at yes
      · next named => exact .here named
      · cases yes
    | hit _ hit => exact absurd hit (no_payload_hit g _)
    | into _ edge _ ih =>
      obtain ⟨f, member, kind⟩ := (mem_payloadEdges g).mp edge
      exact .field member kind ih
  · intro holds
    induction holds with
    | here named => exact ⟨0, .verdict (by simp [payloadVerdict, named])⟩
    | @field m t f member kind _ ih =>
      by_cases named : g.fullName m = payloadMessage ∨ g.fullName m = anyMessage
      · exact ⟨0, .verdict (by simp [payloadVerdict, named])⟩
      · exact found_of_edge (by simp [payloadVerdict, named])
          ((mem_payloadEdges g).mpr ⟨f, member, kind⟩) ih

open Classical in
noncomputable def inertVerdict (m : g.Msg) : Option Bool :=
  if CanHold g m then some true else if g.isPublic m then some false else none

/-- Nothing reachable from a message of the type would be visited, as far as payloads and fields of
    bytes, DataBlobs and Anys go. -/
def Inert (m : g.Msg) : Prop := ¬Found (inertVerdict g) (dataEdges g tables) m

def SoundReach (reach : ReachMemo g) : Prop :=
  Sound (reachProblem g) (payloadVerdict g) (fun _ => True) reach

def SoundMemos (c : Classifier g) : Prop :=
  Sound (inertProblem g tables) (inertVerdict g) (SoundReach g) c.memos

variable {g tables}

theorem canReachPayload_iff {reach : ReachMemo g} (sound : SoundReach g reach) (m : g.Msg) :
    ((canReachPayload g m reach).1 = true ↔ CanHold g m) ∧
      SoundReach g (canReachPayload g m reach).2 := by
  have decides : Decides (reachProblem g) (payloadVerdict g) (fun _ => True) :=
    fun _ _ _ => ⟨rfl, trivial⟩
  have searched := search_iff decides sound m
  rw [Fintype.card_fin] at searched
  exact ⟨searched.1.trans (found_iff_canHold g m), searched.2⟩

theorem inertVerdict_decides :
    Decides (inertProblem g tables) (inertVerdict g) (SoundReach g) := by
  intro m reach sound
  obtain ⟨answer, kept⟩ := canReachPayload_iff sound m
  refine ⟨?_, kept⟩
  by_cases holds : CanHold g m
  · simp [inertProblem, inertVerdict, holds, answer.mpr holds]
  · have no : (canReachPayload g m reach).1 = false :=
      Bool.eq_false_iff.mpr fun yes => holds (answer.mp yes)
    simp [inertProblem, inertVerdict, holds, no]

theorem classifier_canReach {c : Classifier g} (sound : SoundMemos g tables c) (m : g.Msg) :
    ((c.canReachPayload m).1 = true ↔ CanHold g m) ∧ SoundMemos g tables (c.canReachPayload m).2 := by
  obtain ⟨answer, kept⟩ := canReachPayload_iff sound.outer m
  exact ⟨answer, sound.memo, kept⟩

theorem isInert_iff {c : Classifier g} (sound : SoundMemos g tables c) (m : g.Msg) :
    ((c.isInert tables m).1 = true ↔ Inert g tables m) ∧
      SoundMemos g tables (c.isInert tables m).2 := by
  have searched := search_iff inertVerdict_decides sound m
  rw [Fintype.card_fin] at searched
  have answer : (search (inertProblem g tables) (g.size + 1) [] m c.memos).1.found = true ↔
      Found (inertVerdict g) (dataEdges g tables) m := searched.1
  refine ⟨?_, searched.2⟩
  rw [Inert, ← answer]
  simp [Classifier.isInert]

theorem internal_of_open {m : g.Msg} (open_ : inertVerdict g m = none) : g.isPublic m = false := by
  unfold inertVerdict at open_
  split at open_
  · cases open_
  · cases shown : g.isPublic m with
    | true => simp [shown] at open_
    | false => rfl

section Inert
variable {m t : g.Msg} {f : Field g.size}

theorem Inert.holds_nothing (h : Inert g tables m) : ¬CanHold g m :=
  fun holds => h ⟨0, .verdict (by simp [inertVerdict, holds])⟩

theorem Inert.verdict (h : Inert g tables m) (internal : g.isPublic m = false) :
    inertVerdict g m = none := by
  simp [inertVerdict, h.holds_nothing, internal]

theorem Inert.ignored (h : Inert g tables m) (internal : g.isPublic m = false)
    (member : f ∈ g.fields m) (data : isOpaqueKind g f = true) : isIgnored g tables m f = true := by
  by_contra kept
  refine h ⟨0, .hit (h.verdict internal) (List.mem_map.mpr ⟨f, member, ?_⟩)⟩
  simp [data, kept]

theorem Inert.child (h : Inert g tables m) (internal : g.isPublic m = false)
    (member : f ∈ g.fields m) (visible : isOpaqueKind g f = false) (kind : f.kind = .message t) :
    Inert g tables t := by
  intro found
  refine h (found_of_edge (h.verdict internal) (List.mem_map.mpr ⟨f, member, ?_⟩) found)
  simp [visible, kind]

end Inert

section Reachability
variable (g tables)

/-- A message of type m has a field of type t, or a map to such messages. -/
def HasField (m t : g.Msg) : Prop := ∃ f ∈ g.fields m, f.kind = .message t

/-- A Payload or an Any is reachable along message-typed fields. -/
def ReachesPayload (m : g.Msg) : Prop :=
  ∃ t, Relation.ReflTransGen (HasField g) m t ∧
    (g.fullName t = payloadMessage ∨ g.fullName t = anyMessage)

/-- A field of a type that is not public, and is neither a DataBlob nor an Any. -/
def InternalField (m t : g.Msg) : Prop :=
  g.isPublic t = false ∧ ∃ f ∈ g.fields m, f.kind = .message t ∧ isOpaqueKind g f = false

/-- A bytes, DataBlob or Any field that is not ignored is reachable through types that are not
    public. -/
def HidesData (m : g.Msg) : Prop :=
  g.isPublic m = false ∧ ∃ t, Relation.ReflTransGen (InternalField g) m t ∧
    ∃ f ∈ g.fields t, isOpaqueKind g f = true ∧ isIgnored g tables t f = false

variable {g tables}

theorem canHold_iff (m : g.Msg) : CanHold g m ↔ ReachesPayload g m := by
  constructor
  · intro holds
    induction holds with
    | here named => exact ⟨_, .refl, named⟩
    | field member kind _ ih =>
      obtain ⟨t, way, named⟩ := ih
      exact ⟨t, .head ⟨_, member, kind⟩ way, named⟩
  · intro reaches
    obtain ⟨t, way, named⟩ := reaches
    induction way using Relation.ReflTransGen.head_induction_on with
    | refl => exact .here named
    | head edge _ ih =>
      obtain ⟨f, member, kind⟩ := edge
      exact .field member kind ih

theorem mem_dataEdges {m t : g.Msg} :
    .into t ∈ dataEdges g tables m ↔
      ∃ f ∈ g.fields m, f.kind = .message t ∧ isOpaqueKind g f = false := by
  simp only [dataEdges, List.mem_map]
  refine exists_congr fun f => and_congr_right fun _ => ?_
  cases data : isOpaqueKind g f with
  | true => cases isIgnored g tables m f <;> simp
  | false => cases f.kind <;> simp

theorem hit_mem_dataEdges {m : g.Msg} :
    .hit ∈ dataEdges g tables m ↔
      ∃ f ∈ g.fields m, isOpaqueKind g f = true ∧ isIgnored g tables m f = false := by
  simp only [dataEdges, List.mem_map]
  refine exists_congr fun f => and_congr_right fun _ => ?_
  cases data : isOpaqueKind g f with
  | true => cases isIgnored g tables m f <;> simp
  | false => cases f.kind <;> simp

theorem HidesData.found {m : g.Msg} (hides : HidesData g tables m) :
    Found (inertVerdict g) (dataEdges g tables) m := by
  obtain ⟨internal, t, way, f, member, data, kept⟩ := hides
  induction way using Relation.ReflTransGen.head_induction_on with
  | refl =>
    by_cases holds : CanHold g t
    · exact ⟨0, .verdict (by simp [inertVerdict, holds])⟩
    · exact ⟨0, .hit (by simp [inertVerdict, holds, internal])
        (hit_mem_dataEdges.mpr ⟨f, member, data, kept⟩)⟩
  | @head m c edge _ ih =>
    by_cases holds : CanHold g m
    · exact ⟨0, .verdict (by simp [inertVerdict, holds])⟩
    · exact found_of_edge (by simp [inertVerdict, holds, internal]) (mem_dataEdges.mpr edge.2)
        (ih edge.1)

theorem found_inert_iff (m : g.Msg) :
    Found (inertVerdict g) (dataEdges g tables) m ↔ CanHold g m ∨ HidesData g tables m := by
  constructor
  · intro found
    obtain ⟨k, found⟩ := found
    induction found with
    | @verdict m yes =>
      refine .inl (by_contra fun holds => ?_)
      cases shown : g.isPublic m <;> simp [inertVerdict, holds, shown] at yes
    | @hit m open_ hit =>
      obtain ⟨f, member, data, kept⟩ := hit_mem_dataEdges.mp hit
      exact .inr ⟨internal_of_open open_, m, .refl, f, member, data, kept⟩
    | @into k m c open_ edge _ ih =>
      obtain ⟨f, member, kind, visible⟩ := mem_dataEdges.mp edge
      rcases ih with holds | ⟨internal, t, way, last⟩
      · exact .inl (.field member kind holds)
      · exact .inr ⟨internal_of_open open_, t, .head ⟨internal, f, member, kind, visible⟩ way, last⟩
  · intro either
    rcases either with holds | hides
    · exact ⟨0, .verdict (by simp [inertVerdict, holds])⟩
    · exact hides.found

inductive Query (g : TypeGraph) where
  | canReachPayload (m : g.Msg)
  | isInert (m : g.Msg)

/-- What the classifier remembers after a query. -/
def Classifier.ask (tables : PayloadTables) (c : Classifier g) : Query g → Classifier g
  | .canReachPayload m => (c.canReachPayload m).2
  | .isInert m => (c.isInert tables m).2

/-- As newPayloadClassifier makes it. -/
def freshClassifier : Classifier g := ⟨[], ⟨∅, ⟨∅, ()⟩⟩⟩

theorem freshClassifier_sound : SoundMemos g tables freshClassifier :=
  ⟨by simp [freshClassifier], by simp [freshClassifier], trivial⟩

theorem ask_sound {c : Classifier g} (sound : SoundMemos g tables c) (q : Query g) :
    SoundMemos g tables (c.ask tables q) := by
  cases q with
  | canReachPayload m => exact (classifier_canReach sound m).2
  | isInert m => exact (isInert_iff sound m).2

theorem asked_sound (queries : List (Query g)) {c : Classifier g} (sound : SoundMemos g tables c) :
    SoundMemos g tables (queries.foldl (Classifier.ask tables) c) := by
  induction queries generalizing c with
  | nil => exact sound
  | cons q rest ih => exact ih (ask_sound sound q)

/- Whatever was asked before, the answers are exact, and the searches end: they do not run out of the
   fuel that one more than the number of messages gives, and more changes nothing. -/
theorem memoized_answers_exact (g : TypeGraph) (tables : PayloadTables) (queries : List (Query g))
    (m : g.Msg) (more : Nat) (stuckReach : g.Msg → ReachMemo g → Answer × ReachMemo g)
    (stuckInert : g.Msg → Searched g.Msg (ReachMemo g) → Answer × Searched g.Msg (ReachMemo g)) :
    let c := queries.foldl (Classifier.ask tables) freshClassifier
    ((c.canReachPayload m).1 = true ↔ ReachesPayload g m) ∧
    ((c.isInert tables m).1 = true ↔ ¬ReachesPayload g m ∧ ¬HidesData g tables m) ∧
    searchOr stuckReach (reachProblem g) (g.size + 1 + more) [] m c.memos.outer =
      search (reachProblem g) (g.size + 1) [] m c.memos.outer ∧
    searchOr stuckInert (inertProblem g tables) (g.size + 1 + more) [] m c.memos =
      search (inertProblem g tables) (g.size + 1) [] m c.memos := by
  intro c
  have sound : SoundMemos g tables c := asked_sound queries freshClassifier_sound
  have enough : room (Finset.univ : Finset g.Msg) [] < g.size + 1 := by
    simp [room, Finset.card_univ]
  have inert : Inert g tables m ↔ ¬ReachesPayload g m ∧ ¬HidesData g tables m := by
    rw [Inert, found_inert_iff, canHold_iff, not_or]
  refine ⟨(classifier_canReach sound m).1.trans (canHold_iff m), (isInert_iff sound m).1.trans inert, ?_, ?_⟩
  · exact search_never_stuck _ _ _ enough (by omega) m _
  · exact search_never_stuck _ _ _ enough (by omega) m _

end Reachability

end PayloadVisitor
