import S2SProxy.BlobRepair
import S2SProxy.NameOccurrences

/- The access control interceptor admits a call when its method is allowed and every namespace
   name that visitNamespace gets to see is on the allow-list. The request may hold names that
   it does not get to see; those are admitted unchecked. -/
namespace AccessControl
open MessageTree MessageVisitor StoppingUpdate
variable {β : Type}

/-- auth.AccessControl: the keys of allowedMap. -/
structure Access where
  allowedMap : List String

def Access.isAllowed (a : Access) (name : String) : Bool :=
  if a.allowedMap.isEmpty then true else name ∈ a.allowedMap

structure Interceptor where
  adminServiceAccess : Access
  operatorServiceAccess : Access
  namespaceAccess : Access

def workflowServiceDisallowedAPIs : List String := ["DeprecateNamespace", "RegisterNamespace"]

def isAllowedWorkflowMigrationAPIs (action : String) : Bool :=
  !decide (action ∈ workflowServiceDisallowedAPIs)

def createNamespaceAccessControl (access : Access) : StringMatcher := fun name =>
  (name, !access.isAllowed name)

/-- Whether the object is allowed, the error, and the object, which the visit may repair. -/
def isNamespaceAccessAllowed (codec : Codec β) (orders : Orders β) (obj : Value β) (access : Access) :
    Bool × Option String × Value β :=
  let visited := visitNamespace codec orders (createNamespaceAccessControl access) obj
  match visited.err with
  | some err => (false, some err, visited.value)
  | none => (!visited.matched, none, visited.value)

inductive Verdict (β : Type) where
  | handled (req : Value β)
  | denied (message : String)

def intercept (codec : Codec β) (orders : Orders β) (i : Interceptor) (info : Method)
    (req : Value β) : Verdict β :=
  if info.service = .workflow && !isAllowedWorkflowMigrationAPIs info.name then
    .denied ("Calling method " ++ info.name ++ " is not allowed.")
  else if info.service = .admin && !i.adminServiceAccess.isAllowed info.name then
    .denied ("Calling method " ++ info.name ++ " is not allowed.")
  else if info.service = .operator && !i.operatorServiceAccess.isAllowed info.name then
    .denied ("Calling method " ++ info.name ++ " is not allowed.")
  else if info.service = .other then .handled req
  else
    match isNamespaceAccessAllowed codec orders req i.namespaceAccess with
    | (true, none, req) => .handled req
    | _ => .denied ("Calling method " ++ info.name ++ " is not allowed by namespace access control.")

def MethodDenied (i : Interceptor) (info : Method) : Prop :=
  match info.service with
  | .workflow => info.name ∈ workflowServiceDisallowedAPIs
  | .admin => i.adminServiceAccess.isAllowed info.name = false
  | .operator => i.operatorServiceAccess.isAllowed info.name = false
  | .other => False

/-- The visit gets past the blob: there is nothing to read, nothing to repair, or the events are
    read, and written back if they were repaired. -/
def Passable (codec : Codec β) (blob : β) : Prop :=
  codec.isEmpty blob = true ∨ NothingToRepair codec blob ∨
    ∃ events repaired, ReadAs codec blob events repaired ∧
      (repaired = true → ∃ written, codec.serializeEvents events = .ok written)

def Unreadable (codec : Codec β) (req : Value β) : Prop :=
  isSkippableForNamespaceTranslation req = false ∧
    ∃ b, .blob b ∈ places namespaceSelection none req ∧ ¬ Passable codec b

/-- The names among the stored events that the events read no longer have. The repair goes through
    protos without Links and other newer fields. -/
def lostOccurrences (stored events : Children Empty) : List Occurrence :=
  (eventOccurrences .lost stored).filter fun o =>
    o.name ∉ (eventOccurrences .visited events).map Occurrence.name

def storedOccurrences (codec : Codec β) (stored : β → Children Empty) (sight : Sight) (blob : β) :
    List Occurrence :=
  match if codec.isEmpty blob then none else eventsOf codec blob with
  | none => eventOccurrences .unread (stored blob)
  | some (events, _) =>
    eventOccurrences
        (if isSkippableForNamespaceTranslation (.list historyEventsType events) then .skipped
          else sight) events ++
      lostOccurrences (stored blob) events

def requestOccurrences (codec : Codec β) (stored : β → Children Empty) (req : Value β) :
    List Occurrence :=
  occurrences (storedOccurrences codec stored)
    (if isSkippableForNamespaceTranslation req then .skipped else .visited) none req

section Visit
variable {codec : Codec β} (stored : β → Children Empty) {b : β}

theorem events_hidden {sight : Sight} (unseen : sight ≠ .visited) (events : Children Empty) :
    visible (eventOccurrences sight events) = [] :=
  childOccurrences_hidden (fun _ b => b.elim) sight unseen never events

theorem visible_lost (held events : Children Empty) : visible (lostOccurrences held events) = [] := by
  rw [List.eq_nil_iff_forall_not_mem]
  intro n member
  obtain ⟨o, inside, seen, rfl⟩ := mem_visible.mp member
  have listed := mem_visible.mpr ⟨o, (List.mem_filter.mp inside).1, seen, rfl⟩
  rw [events_hidden (by simp)] at listed
  cases listed

theorem visible_read {events : Children Empty} {repaired : Bool} (full : codec.isEmpty b = false)
    (read : ReadAs codec b events repaired) (sight : Sight) :
    visible (storedOccurrences codec stored sight b) =
      visible (eventOccurrences
        (if isSkippableForNamespaceTranslation (.list historyEventsType events) then .skipped
          else sight) events) := by
  simp [storedOccurrences, full, eventsOf_eq_some.mpr read, visible_lost]

theorem visible_unread (unread : ∀ events repaired, ¬ ReadAs codec b events repaired) (sight : Sight) :
    visible (storedOccurrences codec stored sight b) = [] := by
  have none : eventsOf codec b = none :=
    Option.eq_none_iff_forall_ne_some.mpr fun given found => unread _ _ (eventsOf_eq_some.mp found)
  have nothing : (if codec.isEmpty b then Option.none else eventsOf codec b) = Option.none := by
    simp [none]
  simp [storedOccurrences, nothing, events_hidden]

theorem visible_empty (empty : codec.isEmpty b = true) (sight : Sight) :
    visible (storedOccurrences codec stored sight b) = [] := by
  simp [storedOccurrences, empty, events_hidden]

theorem storedOccurrences_hidden (codec : Codec β) (stored : β → Children Empty) (sight : Sight)
    (b : β) (unseen : sight ≠ .visited) : visible (storedOccurrences codec stored sight b) = [] := by
  cases full : codec.isEmpty b with
  | true => exact visible_empty stored full sight
  | false =>
    by_cases read : ∃ events repaired, ReadAs codec b events repaired
    · obtain ⟨events, repaired, read⟩ := read
      rw [visible_read stored full read]
      split
      · exact events_hidden (by simp) events
      · exact events_hidden unseen events
    · exact visible_unread stored (fun events repaired own => read ⟨events, repaired, own⟩) sight

theorem blob_matched (order : Order Empty) (matcher : StringMatcher) {events : Children Empty}
    {repaired : Bool} (full : codec.isEmpty b = false) (read : ReadAs codec b events repaired) :
    (translateOneDataBlob codec (visitNamespaceEvents order matcher) b).matched =
      (visible (storedOccurrences codec stored .visited b)).any fun n => (matcher n).2 := by
  have ok := events_err order matcher (.list historyEventsType events)
  rw [translateOne_read full (readEvents_readAs read) ok, (writeEvents_flags _).1, events_matched,
    visible_read stored full read]

theorem events_unchanged {matcher : StringMatcher} (asks : ∀ n, (matcher n).1 = n)
    (order : Order Empty) (e : Event) : (visitNamespaceEvents order matcher e).value = e := by
  rw [visitNamespaceEvents_eq]
  split
  · rfl
  · refine (walk_follows empty_steady none e).unchanged.mpr ?_
    have clean (p : Place Empty) :
        ((namespaceVisitor Empty.elim matcher).handle p).value = p := by
      cases p with
      | string s =>
        have same := asks s
        simp only [Visitor.handle, namespaceVisitor, map_value, matchName, Place.string.injEq]
        split <;> simp_all [keep]
      | blob b => exact b.elim
      | attributes fields => rfl
      | unhandled err => rfl
    exact (updateAll_unchanged (fun p _ => clean p) _).mpr fun p _ => clean p

/- A blob that is read is passed exactly if no name seen in it matches and what was repaired can be
   written. -/
theorem read_quiet {matcher : StringMatcher} (asks : ∀ n, (matcher n).1 = n) (order : Order Empty)
    {events : Children Empty} {repaired : Bool} (full : codec.isEmpty b = false)
    (read : ReadAs codec b events repaired) :
    ((translateOneDataBlob codec (visitNamespaceEvents order matcher) b).err = none ∧
        (translateOneDataBlob codec (visitNamespaceEvents order matcher) b).matched = false) ↔
      (repaired = true → ∃ written, codec.serializeEvents events = .ok written) ∧
        (visible (storedOccurrences codec stored .visited b)).any (fun n => (matcher n).2) = false := by
  have reading := readEvents_readAs read
  have ok := events_err order matcher (.list historyEventsType events)
  rw [blob_matched stored order matcher full read]
  refine and_congr_left fun quiet => ?_
  have unmatched := (blob_matched stored order matcher full read).trans quiet
  rw [translateOne_read full reading ok, (writeEvents_flags _).1] at unmatched
  rw [translateOne_read full reading ok, writeEvents, unmatched, events_unchanged asks]
  cases repaired with
  | false => simp
  | true => cases written : codec.serializeEvents events <;> simp [Value.children, written]

theorem blob_quiet {matcher : StringMatcher} (asks : ∀ n, (matcher n).1 = n) (order : Order Empty)
    (b : β) :
    ((translateOneDataBlob codec (visitNamespaceEvents order matcher) b).err = none ∧
        (translateOneDataBlob codec (visitNamespaceEvents order matcher) b).matched = false) ↔
      Passable codec b ∧
        (visible (storedOccurrences codec stored .visited b)).any (fun n => (matcher n).2) = false := by
  cases full : codec.isEmpty b with
  | true => simp [translateOneDataBlob, full, Passable, visible_empty stored full]
  | false =>
    by_cases read : ∃ events repaired, ReadAs codec b events repaired
    · obtain ⟨events, repaired, read⟩ := read
      rw [read_quiet stored asks order full read]
      refine and_congr_left fun _ => ⟨fun written => .inr (.inr ⟨events, repaired, read, written⟩), ?_⟩
      rintro (empty | unread | ⟨events', repaired', read', written⟩)
      · cases full.symm.trans empty
      · exact absurd unread (not_nothingToRepair read)
      · have same := eventsOf_eq_some.mpr read'
        rw [eventsOf_eq_some.mpr read] at same
        cases same
        exact written
    · have unread : ∀ events repaired, ¬ ReadAs codec b events repaired :=
        fun events repaired own => read ⟨events, repaired, own⟩
      have unseen := visible_unread stored unread .visited
      by_cases nothing : NothingToRepair codec b
      · have ok := events_err order matcher (.list historyEventsType .empty)
        have quiet := events_matched order matcher .empty
        have reading := readEvents_nothingToRepair nothing
        simp [translateOne_read full reading ok, writeEvents, quiet, Passable, nothing, unseen,
          eventOccurrences, childOccurrences]
      · obtain ⟨changed, err, refused⟩ := readEvents_refused unread nothing
        have stuck : ¬ Passable codec b := by
          rintro (empty | other | ⟨events, repaired, own, _⟩)
          · cases full.symm.trans empty
          · exact nothing other
          · exact unread events repaired own
        simp [translateOne_failed full refused, stuck]

theorem place_quiet {matcher : StringMatcher} (asks : ∀ n, (matcher n).1 = n) (order : Order Empty)
    {req : Value β} {p : Place β} (member : p ∈ places namespaceSelection none req) :
    let handle :=
      (namespaceVisitor (translateOneDataBlob codec (visitNamespaceEvents order matcher))
        matcher).handle
    ((handle p).err = none ∧ (handle p).matched = false) ↔
      (∀ b, p = .blob b → Passable codec b) ∧
        ∀ n ∈ p.names (storedOccurrences codec stored), (matcher n).2 = false := by
  rcases namespace_places none req member with ⟨s, rfl⟩ | ⟨b, rfl⟩
  · simp [Visitor.handle, namespaceVisitor, matchName_err, matchName_matched, Place.names]
  · have blob : _ ↔ Passable codec b ∧ _ := blob_quiet stored asks order b
    simp only [List.any_eq_false, Bool.not_eq_true] at blob
    simp only [Visitor.handle, namespaceVisitor, map_err, map_matched, Place.blob.injEq,
      forall_eq', Place.names]
    rw [← blob]
    have flags := visitDataBlob_flags
      (translateOneDataBlob codec (visitNamespaceEvents order matcher)) b
    rw [flags.1, flags.2]

theorem visit_quiet {matcher : StringMatcher} (asks : ∀ n, (matcher n).1 = n) (orders : Orders β)
    (req : Value β) :
    ((visitNamespace codec orders matcher req).err = none ∧
        (visitNamespace codec orders matcher req).matched = false) ↔
      ¬ Unreadable codec req ∧
        ∀ o ∈ requestOccurrences codec stored req, o.sight = .visited → (matcher o.name).2 = false := by
  have seen (occs : List Occurrence) : (∀ o ∈ occs, o.sight = .visited → (matcher o.name).2 = false) ↔
      ∀ n ∈ visible occs, (matcher n).2 = false := by
    constructor
    · intro all n member
      obtain ⟨o, inside, visited, rfl⟩ := mem_visible.mp member
      exact all o inside visited
    · exact fun all o inside visited => all o.name (mem_visible.mpr ⟨o, inside, visited, rfl⟩)
  rw [seen]
  unfold visitNamespace visitNamespaceOver requestOccurrences Unreadable
  cases skipped : isSkippableForNamespaceTranslation req with
  | true =>
    simp [keep, occurrences_hidden (storedOccurrences_hidden codec stored) .skipped (by simp)]
  | false =>
    have steady := translateOneDataBlob_steady codec (visitNamespaceEvents orders.events matcher)
    have follows := namespace_visit_follows steady matcher orders.messages req
    have all (p : Place β) : p ∈ visitedPlaces orders.messages namespaceSelection req ↔
        p ∈ places namespaceSelection none req :=
      (visitedPlaces_perm orders.messages namespaceSelection req).mem_iff
    simp only [Bool.false_eq_true, ↓reduceIte, true_and, not_exists, not_and, not_not]
    rw [follows.err, follows.matched, updateAll_quiet,
      visible_places (storedOccurrences_hidden codec stored)]
    -- Both sides are about the places of the visit.
    constructor
    · intro quiet
      have fine (p : Place β) (member : p ∈ places namespaceSelection none req) :=
        (place_quiet stored asks orders.events member).mp (quiet p ((all p).mpr member))
      refine ⟨fun b member => (fine _ member).1 b rfl, ?_⟩
      intro n named
      obtain ⟨p, member, here⟩ := List.mem_flatMap.mp named
      exact (fine p member).2 n here
    · rintro ⟨readable, allowed⟩ p visited
      have member := (all p).mp visited
      refine (place_quiet stored asks orders.events member).mpr ⟨?_, ?_⟩
      · rintro b rfl
        exact readable b member
      · exact fun n here => allowed n (List.mem_flatMap.mpr ⟨p, member, here⟩)

end Visit

theorem asks_only (access : Access) (n : String) : (createNamespaceAccessControl access n).1 = n := rfl

theorem isNamespaceAccessAllowed_iff (codec : Codec β) (orders : Orders β) (obj : Value β)
    (access : Access) :
    (∃ obj', isNamespaceAccessAllowed codec orders obj access = (true, none, obj')) ↔
      (visitNamespace codec orders (createNamespaceAccessControl access) obj).err = none ∧
        (visitNamespace codec orders (createNamespaceAccessControl access) obj).matched = false := by
  unfold isNamespaceAccessAllowed
  cases err : (visitNamespace codec orders (createNamespaceAccessControl access) obj).err <;> simp [err]

theorem handled_iff (codec : Codec β) (orders : Orders β) (i : Interceptor) (info : Method)
    (known : info.service ≠ .other) (req : Value β) :
    (∃ r, intercept codec orders i info req = .handled r) ↔
      ¬ MethodDenied i info ∧
        ∃ obj, isNamespaceAccessAllowed codec orders req i.namespaceAccess = (true, none, obj) := by
  rcases allowed : isNamespaceAccessAllowed codec orders req i.namespaceAccess with ⟨ok, err, obj⟩
  have last : (∃ r, (match (ok, err, obj) with
      | (true, none, req) => Verdict.handled req
      | _ => .denied ("Calling method " ++ info.name ++
          " is not allowed by namespace access control.")) = .handled r) ↔
        ∃ obj', (ok, err, obj) = (true, none, obj') := by
    cases ok <;> cases err <;> simp
  rw [← last]
  unfold intercept MethodDenied
  rw [allowed]
  cases service : info.service with
  | workflow =>
    by_cases denied : info.name ∈ workflowServiceDisallowedAPIs <;>
      simp [isAllowedWorkflowMigrationAPIs, denied]
  | admin => cases i.adminServiceAccess.isAllowed info.name <;> simp
  | operator => cases i.operatorServiceAccess.isAllowed info.name <;> simp
  | other => exact absurd service known

theorem namespace_access_complete_iff (codec : Codec β) (stored : β → Children Empty)
    (orders : Orders β) (i : Interceptor) (listed : i.namespaceAccess.allowedMap ≠ []) (info : Method)
    (known : info.service ≠ .other) (req : Value β) :
    ((∃ r, intercept codec orders i info req = .handled r) →
        ∀ o ∈ requestOccurrences codec stored req, o.name ∈ i.namespaceAccess.allowedMap) ↔
      MethodDenied i info ∨ Unreadable codec req ∨
        (∃ o ∈ requestOccurrences codec stored req,
          o.sight = .visited ∧ o.name ∉ i.namespaceAccess.allowedMap) ∨
        ∀ o ∈ requestOccurrences codec stored req,
          o.sight ≠ .visited → o.name ∈ i.namespaceAccess.allowedMap := by
  have onList (n : String) : (createNamespaceAccessControl i.namespaceAccess n).2 = false ↔
      n ∈ i.namespaceAccess.allowedMap := by
    simp [createNamespaceAccessControl, Access.isAllowed, listed]
  rw [handled_iff codec orders i info known, isNamespaceAccessAllowed_iff,
    visit_quiet stored (asks_only i.namespaceAccess)]
  simp only [onList]
  constructor
  · intro complete
    by_contra none
    push Not at none
    obtain ⟨allowed, readable, seen, o, member, hidden, unlisted⟩ := none
    exact unlisted (complete ⟨allowed, readable, seen⟩ o member)
  · rintro reasons ⟨allowed, readable, seen⟩ o member
    rcases reasons with denied | unreadable | ⟨o', member', visited, unlisted⟩ | hidden
    · exact absurd denied allowed
    · exact absurd unreadable readable
    · exact absurd (seen o' member' visited) unlisted
    · by_cases sight : o.sight = .visited
      · exact seen o member sight
      · exact hidden o member sight

def sampleStored (blob : Option (Children Empty)) : Children Empty := blob.getD .empty

def onlyOpen : Interceptor := ⟨⟨[]⟩, ⟨[]⟩, ⟨["open"]⟩⟩

/-- The attributes of a failed workflow whose cause is a failed child in another namespace. -/
def failedChild (name : String) : Children Empty :=
  .cons (exportedField "Failure") (.message "*failure.Failure"
    (.cons (exportedField "FailureInfo") (.message "*failure.Failure_ChildWorkflowExecutionFailureInfo"
      (.cons (exportedField "ChildWorkflowExecutionFailureInfo")
        (.message "*failure.ChildWorkflowExecutionFailureInfo"
          (.cons (exportedField "Namespace") (.str name) .empty)) .empty)) .empty)) .empty

def importRequest (name : String) : Value (Option (Children Empty)) :=
  .message "*adminservice.ImportWorkflowExecutionRequest"
    (.cons (exportedField "Namespace") (.str "open")
      (.cons (exportedField "HistoryBatches")
        (.dataBlobs [some (some (.cons none
          (.historyEvent .workflowExecutionFailed (failedChild name)) .empty))]) .empty))

theorem namespace_access_complete_iff_open :
    (∃ r, intercept sampleCodec fieldOrders onlyOpen ⟨.admin, "ImportWorkflowExecution"⟩
        (importRequest "open") = .handled r) ∧
      ∀ o ∈ requestOccurrences sampleCodec sampleStored (importRequest "open"),
        o.name ∈ onlyOpen.namespaceAccess.allowedMap := by
  have handled : ∃ r, intercept sampleCodec fieldOrders onlyOpen ⟨.admin, "ImportWorkflowExecution"⟩
      (importRequest "open") = .handled r := ⟨importRequest "open", rfl⟩
  refine ⟨handled, (namespace_access_complete_iff sampleCodec sampleStored fieldOrders onlyOpen
    (by decide) ⟨.admin, "ImportWorkflowExecution"⟩ (by decide) (importRequest "open")).mpr ?_ handled⟩
  exact .inr (.inr (.inr (by decide +kernel)))

/-- Its only event is skipped, so the name of the child's namespace is not looked at. -/
theorem skipped_event_admits_namespace :
    (∃ r, intercept sampleCodec fieldOrders onlyOpen ⟨.admin, "ImportWorkflowExecution"⟩
        (importRequest "secret") = .handled r) ∧
      ⟨"secret", .skipped⟩ ∈ requestOccurrences sampleCodec sampleStored (importRequest "secret") ∧
      "secret" ∉ onlyOpen.namespaceAccess.allowedMap := by
  refine ⟨⟨importRequest "secret", rfl⟩, ?_, ?_⟩
  · decide +kernel
  · decide +kernel

def linkedStart (name : String) : Children Empty :=
  .cons none (.historyEvent .workflowExecutionStarted
    (.cons (exportedField "Links") (.list "[]*common.Link" (.cons none
      (.message "*common.Link" (.cons (exportedField "Variant") (.message "*common.Link_WorkflowEvent_"
        (.cons (exportedField "WorkflowEvent") (.message "*common.Link_WorkflowEvent"
          (.cons (exportedField "Namespace") (.str name) .empty)) .empty)) .empty)) .empty)) .empty)) .empty

/-- That event with an invalid byte in the message of its ContinuedFailure. -/
def brokenStart : Value SampleBlob :=
  .message "*adminservice.ImportWorkflowExecutionRequest"
    (.cons (exportedField "HistoryBatches")
      (.dataBlobs [some (.old [⟨.workflowExecutionStarted, [⟨[none], []⟩], []⟩])]) .empty)

/- The repair drops the link. -/
example : (∃ r, intercept sampleSerializers fieldOrders onlyOpen ⟨.admin, "ImportWorkflowExecution"⟩
      brokenStart = .handled r) ∧
    ⟨"secret", .lost⟩ ∈ requestOccurrences sampleSerializers (fun _ => linkedStart "secret")
      brokenStart := by
  refine ⟨(handled_iff _ _ _ _ (by decide) _).mpr ⟨?_, ?_⟩, by decide +kernel⟩
  · simp [MethodDenied, onlyOpen, Access.isAllowed]
  · exact (isNamespaceAccessAllowed_iff _ _ _ _).mpr (by decide +kernel)

end AccessControl
