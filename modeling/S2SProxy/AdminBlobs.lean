import S2SProxy.BlobRepair
import S2SProxy.Lib.StoppingCalls

/- What the admin visitor does with the parts of a message that are serialized: blobs of history
   events, blobs of history tasks and the data of state machine nodes. A blob is read, visited and
   written anew, or it is left as it was. -/
namespace AdminBlobs
open MessageTree MessageVisitor StoppingCalls

inductive TaskInfoKind where
  | transferTaskInfo
  | timerTaskInfo
  | replicationTaskInfo
  | visibilityTaskInfo
  | archivalTaskInfo
  | outboundTaskInfo
  deriving DecidableEq

/-- Blobs β with their data δ, and history tasks τ of every category. -/
structure AdminCodec (β δ τ : Type) where
  events : Codec β
  dataOf : β → δ
  noData : δ → Bool
  isEmpty_noData : ∀ blob, events.isEmpty blob = noData (dataOf blob)
  decode : TaskInfoKind → β → Except String τ
  encode : τ → Except String β

structure CategoryIDs where
  transfer : Int
  timer : Int
  replication : Int
  visibility : Int
  archival : Int
  outbound : Int

def taskInfoByCategory (ids : CategoryIDs) (categoryID : Int) : Option TaskInfoKind :=
  [(ids.transfer, TaskInfoKind.transferTaskInfo), (ids.timer, .timerTaskInfo),
    (ids.replication, .replicationTaskInfo), (ids.visibility, .visibilityTaskInfo),
    (ids.archival, .archivalTaskInfo), (ids.outbound, .outboundTaskInfo)].lookup categoryID

/-- The callbacks of a visit have a common state σ; a run tells the calls of Opaque and the error. -/
abbrev Run (σ δ : Type) := Called σ (String × δ) String

structure Pass (σ δ α : Type) where
  value : α
  run : Run σ δ

structure AdminVisitOptions (σ δ τ : Type) where
  visitPayloads : σ → Children Empty → Pass σ δ (Children Empty)
  visitFailures : Option (σ → Children Empty → Pass σ δ (Children Empty))
  failuresAfter : Bool
  /-- Opaque, called with the path and the data. -/
  onOpaque : σ → String × δ → σ × Option String
  visitAdminPayloads : σ → τ → Pass σ δ τ

variable {σ β δ τ α : Type}

def inOrder (first second : σ → α → Pass σ δ α) (s : σ) (m : α) : Pass σ δ α :=
  match (first s m).run.err with
  | some _ => first s m
  | none =>
    let visited := second (first s m).run.state (first s m).value
    ⟨visited.value, (first s m).run.andThen fun _ => visited.run⟩

def visitPublic (opts : AdminVisitOptions σ δ τ) : σ → Children Empty → Pass σ δ (Children Empty) :=
  match opts.visitFailures with
  | none => opts.visitPayloads
  | some visitFailures =>
    if opts.failuresAfter then inOrder opts.visitPayloads visitFailures
    else inOrder visitFailures opts.visitPayloads

/-- DeserializeEvents, with the repair of invalid utf-8. -/
def decodeEvents (codec : AdminCodec β δ τ) (blob : β) : Except String (Children Empty) :=
  match codec.events.deserializeEvents blob with
  | .ok events => .ok events
  | .error err =>
    if !isInvalidUTF8Error err then .error s!"failed to deserialize history events: {err}"
    else
      match tryRepairInvalidUTF8InBlob codec.events blob with
      | (_, _, some rerr) => .error s!"failed to repair invalid utf-8 in history events: {rerr}"
      | (_, false, none) => .error s!"failed to deserialize history events: {err}"
      | (.empty, true, none) => .error s!"failed to deserialize history events: {err}"
      | (repaired, true, none) => .ok repaired

def failed (s : σ) (err : String) : Run σ δ := ⟨s, [], some err⟩

/-- What a visited value is written as; the blob stays as it is when there is an error. -/
def writeBack (blob : Option β) (encode : α → Except String β) (message : String → String)
    (visited : Pass σ δ α) : Pass σ δ (Option β) :=
  match visited.run.err with
  | some _ => ⟨blob, visited.run⟩
  | none =>
    match encode visited.value with
    | .error err => ⟨blob, visited.run.andThen fun s => failed s (message err)⟩
    | .ok out => ⟨some out, visited.run⟩

def visitEventBlob (codec : AdminCodec β δ τ) (opts : AdminVisitOptions σ δ τ) (s : σ)
    (blob : Option β) : Pass σ δ (Option β) :=
  match blob with
  | none => ⟨none, done s⟩
  | some b =>
    if codec.events.isEmpty b then ⟨some b, done s⟩
    else
      match decodeEvents codec b with
      | .error err => ⟨some b, failed s err⟩
      | .ok events =>
        writeBack (some b) codec.events.serializeEvents
          (fun err => s!"failed to serialize history events: {err}") (visitPublic opts s events)

structure AddTasksRequestTask (β : Type) where
  categoryID : Int
  blob : Option β

def visitOpaque (codec : AdminCodec β δ τ) (opts : AdminVisitOptions σ δ τ) (s : σ) (path : String)
    (data : δ) : Run σ δ :=
  if codec.noData data then done s else callOne opts.onOpaque s (path, data)

def decodeTask (codec : AdminCodec β δ τ) (ids : CategoryIDs) (categoryID : Int) (b : β) : Option τ :=
  match taskInfoByCategory ids categoryID with
  | none => none
  | some kind =>
    match codec.decode kind b with
    | .error _ => none
    | .ok info => some info

def visitAddTasksRequestTask (codec : AdminCodec β δ τ) (ids : CategoryIDs)
    (opts : AdminVisitOptions σ δ τ) (s : σ) (path : String) (t : AddTasksRequestTask β) :
    Pass σ δ (Option β) :=
  match t.blob with
  | none => ⟨none, done s⟩
  | some b =>
    if codec.events.isEmpty b then ⟨some b, done s⟩
    else
      match decodeTask codec ids t.categoryID b with
      | none => ⟨some b, visitOpaque codec opts s (path ++ "/Blob") (codec.dataOf b)⟩
      | some info =>
        writeBack (some b) codec.encode (fun err => s!"{path}: failed to serialize history task: {err}")
          (opts.visitAdminPayloads s info)

/-- A persistence.StateMachineNode: its data, and its children by type and id, in the order in which
    the maps are met. A child may be nil. -/
inductive StateMachineNode (δ : Type) where
  | node (data : δ) (children : List (String × List (String × Option (StateMachineNode δ))))

def childPath (path typ id : String) : String := s!"{path}/Children[{typ}]/{id}"

mutual
def visitStateMachineNode (codec : AdminCodec β δ τ) (opts : AdminVisitOptions σ δ τ) (s : σ)
    (path : String) : Option (StateMachineNode δ) → Run σ δ
  | none => done s
  | some (.node data children) =>
    (visitOpaque codec opts s (path ++ "/Data") data).andThen fun s' =>
      visitChildren codec opts s' path children
termination_by n => sizeOf n
def visitChildren (codec : AdminCodec β δ τ) (opts : AdminVisitOptions σ δ τ) (s : σ) (path : String) :
    List (String × List (String × Option (StateMachineNode δ))) → Run σ δ
  | [] => done s
  | (typ, machines) :: rest =>
    (visitMachinesById codec opts s path typ machines).andThen fun s' =>
      visitChildren codec opts s' path rest
termination_by children => sizeOf children
def visitMachinesById (codec : AdminCodec β δ τ) (opts : AdminVisitOptions σ δ τ) (s : σ)
    (path typ : String) : List (String × Option (StateMachineNode δ)) → Run σ δ
  | [] => done s
  | (id, child) :: rest =>
    (visitStateMachineNode codec opts s (childPath path typ id) child).andThen fun s' =>
      visitMachinesById codec opts s' path typ rest
termination_by machines => sizeOf machines
end

mutual
def nodeData (codec : AdminCodec β δ τ) (path : String) :
    Option (StateMachineNode δ) → List (String × δ)
  | none => []
  | some (.node data children) =>
    (if codec.noData data then [] else [(path ++ "/Data", data)]) ++ childrenData codec path children
termination_by n => sizeOf n
def childrenData (codec : AdminCodec β δ τ) (path : String) :
    List (String × List (String × Option (StateMachineNode δ))) → List (String × δ)
  | [] => []
  | (typ, machines) :: rest => machinesData codec path typ machines ++ childrenData codec path rest
termination_by children => sizeOf children
def machinesData (codec : AdminCodec β δ τ) (path typ : String) :
    List (String × Option (StateMachineNode δ)) → List (String × δ)
  | [] => []
  | (id, child) :: rest => nodeData codec (childPath path typ id) child ++ machinesData codec path typ rest
termination_by machines => sizeOf machines
end

inductive HoldsData : String → Option (StateMachineNode δ) → String → δ → Prop where
  | own {path : String} {data : δ} {children : List (String × List (String × Option (StateMachineNode δ)))} :
      HoldsData path (some (.node data children)) (path ++ "/Data") data
  | child {path typ id p : String} {data d : δ}
      {children : List (String × List (String × Option (StateMachineNode δ)))}
      {machines : List (String × Option (StateMachineNode δ))} {n : Option (StateMachineNode δ)}
      (typed : (typ, machines) ∈ children) (named : (id, n) ∈ machines)
      (deeper : HoldsData (childPath path typ id) n p d) : HoldsData path (some (.node data children)) p d

theorem visitOpaque_eq (codec : AdminCodec β δ τ) (opts : AdminVisitOptions σ δ τ) (s : σ)
    (path : String) (data : δ) :
    visitOpaque codec opts s path data =
      callAll opts.onOpaque s (if codec.noData data then [] else [(path, data)]) := by
  unfold visitOpaque
  cases codec.noData data with
  | true => rfl
  | false => exact (andThen_done _).symm

mutual
theorem visitStateMachineNode_eq (codec : AdminCodec β δ τ) (opts : AdminVisitOptions σ δ τ) (s : σ)
    (path : String) : (n : Option (StateMachineNode δ)) →
    visitStateMachineNode codec opts s path n = callAll opts.onOpaque s (nodeData codec path n)
  | none => by simp [visitStateMachineNode, nodeData, callAll]
  | some (.node data children) => by
    simp only [visitStateMachineNode, nodeData, callAll_append, visitOpaque_eq]
    exact congrArg _ (funext fun s' => visitChildren_eq codec opts s' path children)
termination_by n => sizeOf n
theorem visitChildren_eq (codec : AdminCodec β δ τ) (opts : AdminVisitOptions σ δ τ) (s : σ)
    (path : String) : (children : List (String × List (String × Option (StateMachineNode δ)))) →
    visitChildren codec opts s path children =
      callAll opts.onOpaque s (childrenData codec path children)
  | [] => by simp [visitChildren, childrenData, callAll]
  | (typ, machines) :: rest => by
    simp only [visitChildren, childrenData, callAll_append]
    rw [visitMachinesById_eq codec opts s path typ machines]
    exact congrArg _ (funext fun s' => visitChildren_eq codec opts s' path rest)
termination_by children => sizeOf children
theorem visitMachinesById_eq (codec : AdminCodec β δ τ) (opts : AdminVisitOptions σ δ τ) (s : σ)
    (path typ : String) : (machines : List (String × Option (StateMachineNode δ))) →
    visitMachinesById codec opts s path typ machines =
      callAll opts.onOpaque s (machinesData codec path typ machines)
  | [] => by simp [visitMachinesById, machinesData, callAll]
  | (id, child) :: rest => by
    simp only [visitMachinesById, machinesData, callAll_append]
    rw [visitStateMachineNode_eq codec opts s (childPath path typ id) child]
    exact congrArg _ (funext fun s' => visitMachinesById_eq codec opts s' path typ rest)
termination_by machines => sizeOf machines
end

section Reported
variable {codec : AdminCodec β δ τ} {x : String × δ}

theorem mem_machinesData {path typ : String} {machines : List (String × Option (StateMachineNode δ))} :
    x ∈ machinesData codec path typ machines ↔
      ∃ entry ∈ machines, x ∈ nodeData codec (childPath path typ entry.1) entry.2 := by
  induction machines with
  | nil => simp [machinesData]
  | cons entry rest ih =>
    obtain ⟨id, child⟩ := entry
    simp [machinesData, ih]

theorem mem_childrenData {path : String}
    {children : List (String × List (String × Option (StateMachineNode δ)))} :
    x ∈ childrenData codec path children ↔
      ∃ entry ∈ children, x ∈ machinesData codec path entry.1 entry.2 := by
  induction children with
  | nil => simp [childrenData]
  | cons entry rest ih =>
    obtain ⟨typ, machines⟩ := entry
    simp [childrenData, ih]

theorem mem_nodeData_of_holds {path p : String} {n : Option (StateMachineNode δ)} {d : δ}
    (holds : HoldsData path n p d) (present : codec.noData d = false) :
    (p, d) ∈ nodeData codec path n := by
  induction holds with
  | own => simp [nodeData, present]
  | child typed named deeper ih =>
    simp only [nodeData, List.mem_append]
    exact .inr (mem_childrenData.mpr ⟨_, typed, mem_machinesData.mpr ⟨_, named, ih present⟩⟩)

/- The induction is over the tree, through the lists of its children. -/
mutual
theorem holds_of_mem_nodeData (path : String) : (n : Option (StateMachineNode δ)) →
    x ∈ nodeData codec path n → HoldsData path n x.1 x.2 ∧ codec.noData x.2 = false
  | none, member => by simp [nodeData] at member
  | some (.node data children), member => by
    rw [nodeData, List.mem_append] at member
    rcases member with own | below
    · cases present : codec.noData data with
      | true => simp [present] at own
      | false =>
        obtain rfl : x = (path ++ "/Data", data) := by simpa [present] using own
        exact ⟨.own, present⟩
    · obtain ⟨typ, machines, id, n, typed, named, deeper, present⟩ :=
        holds_of_mem_childrenData path children below
      exact ⟨.child typed named deeper, present⟩
termination_by n _ => sizeOf n
theorem holds_of_mem_childrenData (path : String) :
    (children : List (String × List (String × Option (StateMachineNode δ)))) →
    x ∈ childrenData codec path children →
    ∃ typ machines id n, (typ, machines) ∈ children ∧ (id, n) ∈ machines ∧
      HoldsData (childPath path typ id) n x.1 x.2 ∧ codec.noData x.2 = false
  | [], member => by simp [childrenData] at member
  | (typ, machines) :: rest, member => by
    rw [childrenData, List.mem_append] at member
    rcases member with first | later
    · obtain ⟨id, n, named, holds⟩ := holds_of_mem_machinesData path typ machines first
      exact ⟨typ, machines, id, n, List.mem_cons_self, named, holds⟩
    · obtain ⟨typ', machines', id, n, typed, named, holds⟩ := holds_of_mem_childrenData path rest later
      exact ⟨typ', machines', id, n, List.mem_cons_of_mem _ typed, named, holds⟩
termination_by children _ => sizeOf children
theorem holds_of_mem_machinesData (path typ : String) :
    (machines : List (String × Option (StateMachineNode δ))) →
    x ∈ machinesData codec path typ machines →
    ∃ id n, (id, n) ∈ machines ∧ HoldsData (childPath path typ id) n x.1 x.2 ∧ codec.noData x.2 = false
  | [], member => by simp [machinesData] at member
  | (id, n) :: rest, member => by
    rw [machinesData, List.mem_append] at member
    rcases member with first | later
    · exact ⟨id, n, List.mem_cons_self, holds_of_mem_nodeData (childPath path typ id) n first⟩
    · obtain ⟨id', n', named, holds⟩ := holds_of_mem_machinesData path typ rest later
      exact ⟨id', n', List.mem_cons_of_mem _ named, holds⟩
termination_by machines _ => sizeOf machines
end

end Reported

def Absent (codec : AdminCodec β δ τ) : Option β → Prop
  | none => True
  | some b => codec.events.isEmpty b = true

def Written (encode : α → Except String β) (visited : Pass σ δ α) (blob : Option β) : Prop :=
  visited.run.err = none ∧ ∃ out, encode visited.value = .ok out ∧ blob = some out

theorem writeBack_atomic (blob : Option β) (encode : α → Except String β) (message : String → String)
    (visited : Pass σ δ α) :
    ((writeBack blob encode message visited).run.err ≠ none →
        (writeBack blob encode message visited).value = blob) ∧
      ((writeBack blob encode message visited).run.err = none →
        Written encode visited (writeBack blob encode message visited).value) := by
  unfold writeBack
  cases err : visited.run.err with
  | some e => exact ⟨fun _ => rfl, fun ok => nomatch err.symm.trans ok⟩
  | none =>
    cases encoded : encode visited.value with
    | error e => exact ⟨fun _ => rfl, fun ok => by simp [andThen_of_ok err, failed] at ok⟩
    | ok out => exact ⟨fun failed => absurd err failed, fun _ => ⟨err, out, encoded, rfl⟩⟩

theorem writeBack_ok {blob : Option β} {encode : α → Except String β} {message : String → String}
    {visited : Pass σ δ α} {out : β} (fine : visited.run.err = none)
    (encoded : encode visited.value = .ok out) :
    writeBack blob encode message visited = ⟨some out, visited.run⟩ := by
  simp [writeBack, fine, encoded]

/-- The events of a blob that is decoded, or repaired to some events. -/
def HasEvents (codec : AdminCodec β δ τ) (b : β) (events : Children Empty) : Prop :=
  ∃ repaired, ReadAs codec.events b events repaired ∧ (repaired = true → events ≠ .empty)

def HasTask (codec : AdminCodec β δ τ) (ids : CategoryIDs) (categoryID : Int) (b : β) (info : τ) :
    Prop :=
  ∃ kind, taskInfoByCategory ids categoryID = some kind ∧ codec.decode kind b = .ok info

structure EventBlobContract (codec : AdminCodec β δ τ) (opts : AdminVisitOptions σ δ τ) (s : σ)
    (blob : Option β) : Prop where
  error : (visitEventBlob codec opts s blob).run.err ≠ none →
    (visitEventBlob codec opts s blob).value = blob
  absent : Absent codec blob → visitEventBlob codec opts s blob = ⟨blob, done s⟩
  unread : ∀ b, blob = some b → ¬ Absent codec blob → (∀ events, ¬ HasEvents codec b events) →
    ∃ err, visitEventBlob codec opts s blob = ⟨blob, failed s err⟩
  success : ∀ b, blob = some b → ¬ Absent codec blob → (visitEventBlob codec opts s blob).run.err = none →
    ∃ events, HasEvents codec b events ∧
      Written codec.events.serializeEvents (visitPublic opts s events)
        (visitEventBlob codec opts s blob).value
  written : ∀ b events out, blob = some b → ¬ Absent codec blob → HasEvents codec b events →
    (visitPublic opts s events).run.err = none →
    codec.events.serializeEvents (visitPublic opts s events).value = .ok out →
    visitEventBlob codec opts s blob = ⟨some out, (visitPublic opts s events).run⟩

structure TaskBlobContract (codec : AdminCodec β δ τ) (ids : CategoryIDs)
    (opts : AdminVisitOptions σ δ τ) (s : σ) (path : String) (t : AddTasksRequestTask β) : Prop where
  error : (visitAddTasksRequestTask codec ids opts s path t).run.err ≠ none →
    (visitAddTasksRequestTask codec ids opts s path t).value = t.blob
  absent : Absent codec t.blob →
    visitAddTasksRequestTask codec ids opts s path t = ⟨t.blob, done s⟩
  unread : ∀ b, t.blob = some b → ¬ Absent codec t.blob →
    (∀ info, ¬ HasTask codec ids t.categoryID b info) →
    visitAddTasksRequestTask codec ids opts s path t =
      ⟨t.blob, callOne opts.onOpaque s (path ++ "/Blob", codec.dataOf b)⟩
  success : ∀ b info, t.blob = some b → ¬ Absent codec t.blob →
    HasTask codec ids t.categoryID b info →
    (visitAddTasksRequestTask codec ids opts s path t).run.err = none →
    Written codec.encode (opts.visitAdminPayloads s info)
      (visitAddTasksRequestTask codec ids opts s path t).value
  written : ∀ b info out, t.blob = some b → ¬ Absent codec t.blob →
    HasTask codec ids t.categoryID b info → (opts.visitAdminPayloads s info).run.err = none →
    codec.encode (opts.visitAdminPayloads s info).value = .ok out →
    visitAddTasksRequestTask codec ids opts s path t =
      ⟨some out, (opts.visitAdminPayloads s info).run⟩

/-- Opaque is called for the data that the nodes hold, for all of it or until it fails. -/
structure NodeContract (codec : AdminCodec β δ τ) (opts : AdminVisitOptions σ δ τ) (s : σ)
    (path : String) (n : Option (StateMachineNode δ)) : Prop where
  calls : Ends opts.onOpaque s (nodeData codec path n) (visitStateMachineNode codec opts s path n)
  everything : ∀ p d, (p, d) ∈ nodeData codec path n ↔ HoldsData path n p d ∧ codec.noData d = false

section Blobs
variable {codec : AdminCodec β δ τ} {ids : CategoryIDs} {opts : AdminVisitOptions σ δ τ} {s : σ} {b : β}

theorem absent_or_present (codec : AdminCodec β δ τ) (blob : Option β) :
    Absent codec blob ∨ ∃ b, blob = some b ∧ codec.events.isEmpty b = false := by
  cases blob with
  | none => exact .inl trivial
  | some b =>
    cases empty : codec.events.isEmpty b with
    | true => exact .inl empty
    | false => exact .inr ⟨b, rfl, empty⟩

theorem not_absent (present : codec.events.isEmpty b = false) : ¬ Absent codec (some b) := by
  simp [Absent, present]

theorem decodeEvents_ok {events : Children Empty} (has : HasEvents codec b events) :
    decodeEvents codec b = .ok events := by
  obtain ⟨repaired, read, given⟩ := has
  have reading := readEvents_readAs read
  cases read with
  | decoded read => simp [decodeEvents, read]
  | repaired undecoded invalid =>
    rw [readEvents_invalid undecoded invalid] at reading
    cases events with
    | empty => exact absurd rfl (given rfl)
    | cons slot v rest => simp [decodeEvents, undecoded, invalid, reading]

theorem hasEvents_of_decodeEvents {events : Children Empty} (ok : decodeEvents codec b = .ok events) :
    HasEvents codec b events := by
  cases decoded : codec.events.deserializeEvents b with
  | ok own =>
    obtain rfl : own = events := by simpa [decodeEvents, decoded] using ok
    exact ⟨false, .decoded decoded, nofun⟩
  | error err =>
    cases invalid : isInvalidUTF8Error err with
    | false => simp [decodeEvents, decoded, invalid] at ok
    | true =>
      have reading := readEvents_invalid decoded invalid
      by_cases read : ∃ own repaired, ReadAs codec.events b own repaired
      · obtain ⟨own, repaired, read⟩ := read
        rw [readEvents_readAs read] at reading
        cases read with
        | decoded read => cases decoded.symm.trans read
        | repaired undecoded invalid' olderRead shallow broken rewritten read =>
          cases own with
          | empty => simp [decodeEvents, decoded, invalid, ← reading] at ok
          | cons slot v rest =>
            obtain rfl : Children.cons slot v rest = events := by
              simpa [decodeEvents, decoded, invalid, ← reading] using ok
            exact ⟨true, .repaired undecoded invalid' olderRead shallow broken rewritten read, nofun⟩
      · by_cases unread : NothingToRepair codec.events b
        · rw [readEvents_nothingToRepair unread] at reading
          simp [decodeEvents, decoded, invalid, ← reading] at ok
        · have refused := readEvents_refused
            (fun own repaired readAs => read ⟨own, repaired, readAs⟩) unread
          obtain ⟨changed, failure, refused⟩ := refused
          simp [decodeEvents, decoded, invalid, ← reading, refused] at ok

theorem visitEventBlob_absent (opts : AdminVisitOptions σ δ τ) (s : σ) {blob : Option β}
    (absent : Absent codec blob) : visitEventBlob codec opts s blob = ⟨blob, done s⟩ := by
  cases blob with
  | none => rfl
  | some b =>
    have empty : codec.events.isEmpty b = true := absent
    simp [visitEventBlob, empty]

theorem visitEventBlob_unread (opts : AdminVisitOptions σ δ τ) (s : σ)
    (present : codec.events.isEmpty b = false) (unread : ∀ events, ¬ HasEvents codec b events) :
    ∃ err, visitEventBlob codec opts s (some b) = ⟨some b, failed s err⟩ := by
  cases refused : decodeEvents codec b with
  | ok events => exact absurd (hasEvents_of_decodeEvents refused) (unread events)
  | error err => exact ⟨err, by simp [visitEventBlob, present, refused]⟩

theorem visitEventBlob_read (opts : AdminVisitOptions σ δ τ) (s : σ)
    (present : codec.events.isEmpty b = false) {events : Children Empty}
    (has : HasEvents codec b events) :
    visitEventBlob codec opts s (some b) =
      writeBack (some b) codec.events.serializeEvents
        (fun err => s!"failed to serialize history events: {err}") (visitPublic opts s events) := by
  simp [visitEventBlob, present, decodeEvents_ok has]

theorem eventBlob_contract (codec : AdminCodec β δ τ) (opts : AdminVisitOptions σ δ τ) (s : σ)
    (blob : Option β) : EventBlobContract codec opts s blob := by
  rcases absent_or_present codec blob with absent | ⟨b, rfl, present⟩
  · have kept := visitEventBlob_absent opts s absent
    exact ⟨fun _ => by rw [kept], fun _ => kept, fun _ _ given => absurd absent given,
      fun _ _ given => absurd absent given, fun _ _ _ _ given => absurd absent given⟩
  · by_cases has : ∃ events, HasEvents codec b events
    · obtain ⟨events, has⟩ := has
      have same := visitEventBlob_read opts s present has
      obtain ⟨keeps, writes⟩ := writeBack_atomic (some b) codec.events.serializeEvents
        (fun err => s!"failed to serialize history events: {err}") (visitPublic opts s events)
      rw [← same] at keeps writes
      refine ⟨keeps, fun absent => absurd absent (not_absent present), ?_, ?_, ?_⟩
      · rintro _ ⟨⟩ _ unread
        exact absurd has (unread events)
      · rintro _ ⟨⟩ _ ok
        exact ⟨events, has, writes ok⟩
      · rintro _ events' out ⟨⟩ _ has' fine encoded
        rw [visitEventBlob_read opts s present has', writeBack_ok fine encoded]
    · have unread : ∀ events, ¬ HasEvents codec b events := fun events own => has ⟨events, own⟩
      obtain ⟨err, stopped⟩ := visitEventBlob_unread opts s present unread
      refine ⟨fun _ => by rw [stopped], fun absent => absurd absent (not_absent present),
        fun _ _ _ _ => ⟨err, stopped⟩, ?_, ?_⟩
      · intro _ _ _ ok
        rw [stopped] at ok
        cases ok
      · rintro _ events _ ⟨⟩ _ own
        exact absurd own (unread events)

theorem decodeTask_eq_some {categoryID : Int} {info : τ} :
    decodeTask codec ids categoryID b = some info ↔ HasTask codec ids categoryID b info := by
  cases known : taskInfoByCategory ids categoryID with
  | none => simp [decodeTask, HasTask, known]
  | some kind => cases decoded : codec.decode kind b <;> simp [decodeTask, HasTask, known, decoded]

theorem visitTask_absent (ids : CategoryIDs) (opts : AdminVisitOptions σ δ τ) (s : σ) (path : String)
    {t : AddTasksRequestTask β} (absent : Absent codec t.blob) :
    visitAddTasksRequestTask codec ids opts s path t = ⟨t.blob, done s⟩ := by
  obtain ⟨categoryID, blob⟩ := t
  cases blob with
  | none => rfl
  | some b =>
    have empty : codec.events.isEmpty b = true := absent
    simp [visitAddTasksRequestTask, empty]

theorem visitTask_unread (opts : AdminVisitOptions σ δ τ) (s : σ) (path : String) {categoryID : Int}
    (present : codec.events.isEmpty b = false)
    (unread : ∀ info, ¬ HasTask codec ids categoryID b info) :
    visitAddTasksRequestTask codec ids opts s path ⟨categoryID, some b⟩ =
      ⟨some b, callOne opts.onOpaque s (path ++ "/Blob", codec.dataOf b)⟩ := by
  have refused : decodeTask codec ids categoryID b = none :=
    Option.eq_none_iff_forall_ne_some.mpr fun info known => unread info (decodeTask_eq_some.mp known)
  have data : codec.noData (codec.dataOf b) = false := by rw [← codec.isEmpty_noData, present]
  simp [visitAddTasksRequestTask, present, refused, visitOpaque, data]

theorem visitTask_read (opts : AdminVisitOptions σ δ τ) (s : σ) (path : String) {categoryID : Int}
    (present : codec.events.isEmpty b = false) {info : τ} (has : HasTask codec ids categoryID b info) :
    visitAddTasksRequestTask codec ids opts s path ⟨categoryID, some b⟩ =
      writeBack (some b) codec.encode (fun err => s!"{path}: failed to serialize history task: {err}")
        (opts.visitAdminPayloads s info) := by
  simp [visitAddTasksRequestTask, present, decodeTask_eq_some.mpr has]

theorem taskBlob_contract (codec : AdminCodec β δ τ) (ids : CategoryIDs)
    (opts : AdminVisitOptions σ δ τ) (s : σ) (path : String) (t : AddTasksRequestTask β) :
    TaskBlobContract codec ids opts s path t := by
  rcases absent_or_present codec t.blob with absent | ⟨b, given, present⟩
  · have kept := visitTask_absent ids opts s path absent
    exact ⟨fun _ => by rw [kept], fun _ => kept, fun _ _ present => absurd absent present,
      fun _ _ _ present => absurd absent present, fun _ _ _ _ present => absurd absent present⟩
  · obtain ⟨categoryID, blob⟩ := t
    obtain rfl : blob = some b := given
    refine ⟨?_, fun absent => absurd absent (not_absent present), ?_, ?_, ?_⟩
    · by_cases has : ∃ info, HasTask codec ids categoryID b info
      · obtain ⟨info, has⟩ := has
        rw [visitTask_read opts s path present has]
        exact (writeBack_atomic _ _ _ _).1
      · rw [visitTask_unread opts s path present fun info own => has ⟨info, own⟩]
        exact fun _ => rfl
    · rintro _ ⟨⟩ _ unread
      exact visitTask_unread opts s path present unread
    · rintro _ info ⟨⟩ _ has ok
      rw [visitTask_read opts s path present has] at ok ⊢
      exact (writeBack_atomic _ _ _ _).2 ok
    · rintro _ info out ⟨⟩ _ has fine encoded
      rw [visitTask_read opts s path present has, writeBack_ok fine encoded]

end Blobs

theorem node_contract (codec : AdminCodec β δ τ) (opts : AdminVisitOptions σ δ τ) (s : σ)
    (path : String) (n : Option (StateMachineNode δ)) : NodeContract codec opts s path n := by
  constructor
  · rw [visitStateMachineNode_eq]
    exact callAll_ends s _
  · intro p d
    exact ⟨holds_of_mem_nodeData path n, fun holds => mem_nodeData_of_holds holds.1 holds.2⟩

/-- Whatever is visited with success while Opaque refuses everything was read or was not there. -/
structure NothingUnread (codec : AdminCodec β δ τ) (ids : CategoryIDs) (opts : AdminVisitOptions σ δ τ)
    (s : σ) : Prop where
  events : ∀ blob, (visitEventBlob codec opts s blob).run.err = none → Absent codec blob ∨
    ∃ b events, blob = some b ∧ HasEvents codec b events ∧
      Written codec.events.serializeEvents (visitPublic opts s events)
        (visitEventBlob codec opts s blob).value
  tasks : ∀ path t, (visitAddTasksRequestTask codec ids opts s path t).run.err = none →
    Absent codec t.blob ∨
    ∃ b info, t.blob = some b ∧ HasTask codec ids t.categoryID b info ∧
      Written codec.encode (opts.visitAdminPayloads s info)
        (visitAddTasksRequestTask codec ids opts s path t).value
  nodes : ∀ path n, (visitStateMachineNode codec opts s path n).err = none →
    ∀ p d, HoldsData path n p d → codec.noData d = true

theorem nothing_unread (codec : AdminCodec β δ τ) (ids : CategoryIDs) (opts : AdminVisitOptions σ δ τ)
    (s : σ) (refuses : ∀ s' x, (opts.onOpaque s' x).2 ≠ none) : NothingUnread codec ids opts s := by
  constructor
  · intro blob ok
    rcases absent_or_present codec blob with absent | ⟨b, rfl, present⟩
    · exact .inl absent
    · have written := (eventBlob_contract codec opts s (some b)).success b rfl (not_absent present) ok
      obtain ⟨events, has, written⟩ := written
      exact .inr ⟨b, events, rfl, has, written⟩
  · intro path t ok
    have contract := taskBlob_contract codec ids opts s path t
    rcases absent_or_present codec t.blob with absent | ⟨b, given, present⟩
    · exact .inl absent
    · have some_data : ¬ Absent codec t.blob := given ▸ not_absent present
      by_cases has : ∃ info, HasTask codec ids t.categoryID b info
      · obtain ⟨info, has⟩ := has
        exact .inr ⟨b, info, given, has, contract.success b info given some_data has ok⟩
      · rw [contract.unread b given some_data fun info own => has ⟨info, own⟩] at ok
        exact absurd ok (refuses s _)
  · intro path n ok p d holds
    rw [visitStateMachineNode_eq] at ok
    have silent := callAll_refused refuses ok
    by_contra present
    have reported := mem_nodeData_of_holds holds (Bool.eq_false_iff.mpr present)
    rw [silent] at reported
    cases reported

/-- A visited blob is written as a whole or stays as it is; what cannot be read is reported. A blob
    without data is left alone. -/
theorem admin_blob_visits_fail_closed (codec : AdminCodec β δ τ) (ids : CategoryIDs)
    (opts : AdminVisitOptions σ δ τ) (s : σ) :
    (∀ blob, EventBlobContract codec opts s blob) ∧
      (∀ path t, TaskBlobContract codec ids opts s path t) ∧
      (∀ path n, NodeContract codec opts s path n) ∧
      ((∀ s' x, (opts.onOpaque s' x).2 ≠ none) → NothingUnread codec ids opts s) :=
  ⟨eventBlob_contract codec opts s, taskBlob_contract codec ids opts s, node_contract codec opts s,
    nothing_unread codec ids opts s⟩

inductive EncodingType where
  | json
  | proto3
  deriving DecidableEq

def eventCodec : Codec (EncodingType × Children Empty) where
  isEmpty blob :=
    match blob.2 with
    | .empty => true
    | .cons _ _ _ => false
  deserializeEvents blob := .ok blob.2
  serializeEvents events := .ok (.proto3, events)
  gogoDeserializeEvents _ := .error "unknown encoding type"
  gogoSerializeEvents _ _ := .error "unknown encoding type"

def eventsOnly : AdminCodec (EncodingType × Children Empty) (EncodingType × Children Empty) Empty where
  events := eventCodec
  dataOf := id
  noData := eventCodec.isEmpty
  isEmpty_noData _ := rfl
  decode _ _ := .error "unknown encoding type"
  encode := Empty.elim

def refusing : AdminVisitOptions Unit (EncodingType × Children Empty) Empty where
  visitPayloads s events := ⟨events, done s⟩
  visitFailures := none
  failuresAfter := false
  onOpaque s x := (s, some x.1)
  visitAdminPayloads _ := Empty.elim

/-- A blob of no events in another encoding is not an error, and is not written either. -/
theorem empty_blob_not_written :
    visitEventBlob eventsOnly refusing () (some (.json, .empty)) = ⟨some (.json, .empty), done ()⟩ ∧
      eventsOnly.events.deserializeEvents (.json, .empty) = .ok .empty ∧
      ¬ Written eventsOnly.events.serializeEvents (visitPublic refusing () .empty)
        (some (.json, .empty)) := by
  refine ⟨rfl, rfl, ?_⟩
  intro written
  obtain ⟨-, out, encoded, same⟩ := written
  obtain rfl := Except.ok.inj encoded
  cases same

end AdminBlobs
