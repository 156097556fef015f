import S2SProxy.EventRepair
import S2SProxy.Lib.LinkedChain

/- The repair of a failure and its causes, as the loop of the source: failures are records in memory
   that point to their causes, and the messages are replaced in place. The chain of causes may have
   any length, or none if it leads back to itself. -/
namespace FailureRepair
open LinkedChain
variable {S ρ Ptr : Type}

structure Failure (S ρ Ptr : Type) where
  message : S
  cause : Option Ptr
  others : ρ

/-- The functions of the standard library on strings: utf8.ValidString, and strings.ToValidUTF8 with
    the replacement character. -/
structure UTF8 (S : Type) where
  validString : S → Bool
  toValidUTF8 : S → S

def depthError : String := "reached maximum failure chain depth"

section Repair
variable (utf8 : UTF8 S)

def invalid (failure : Failure S ρ Ptr) : Bool := !utf8.validString failure.message

def repairMessage (failure : Failure S ρ Ptr) : Failure S ρ Ptr :=
  { failure with message := utf8.toValidUTF8 failure.message }

def repairInvalidUTF8InFailure [DecidableEq Ptr] (mem : Ptr → Failure S ρ Ptr) (failure : Option Ptr) :
    (Ptr → Failure S ρ Ptr) × Bool × Option String :=
  let (mem, failure, changed) :=
    sweep Failure.cause (invalid utf8) (repairMessage utf8) EventRepair.maxFailureDepth mem failure
      false
  match failure with
  | some _ => (mem, changed, some depthError)
  | none => (mem, changed, none)

/-- The failures of the chain have valid messages, and nothing else differs: a message that was valid,
    another field or another failure. -/
structure Repaired (before after : Ptr → Failure S ρ Ptr) (chain : List Ptr) : Prop where
  valid : ∀ p ∈ chain, utf8.validString (after p).message = true
  kept : ∀ p, utf8.validString (before p).message = true → (after p).message = (before p).message
  fields : ∀ p, (after p).cause = (before p).cause ∧ (after p).others = (before p).others
  elsewhere : ∀ p ∉ chain, after p = before p

end Repair

section Exact
variable {utf8 : UTF8 S} {mem : Ptr → Failure S ρ Ptr} {failure : Option Ptr} {seen chain : List Ptr}

theorem invalid_eq_false {f : Failure S ρ Ptr} :
    invalid utf8 f = false ↔ utf8.validString f.message = true := by
  simp [invalid]

theorem settled_kept {f : Failure S ρ Ptr} (valid : utf8.validString f.message = true) :
    settled (invalid utf8) (repairMessage utf8) f = f :=
  settled_of_not_due (invalid_eq_false.mpr valid)

theorem settled_fields (f : Failure S ρ Ptr) :
    (settled (invalid utf8) (repairMessage utf8) f).cause = f.cause ∧
      (settled (invalid utf8) (repairMessage utf8) f).others = f.others := by
  cases valid : utf8.validString f.message <;> simp [settled, invalid, valid, repairMessage]

section Seen
variable [DecidableEq Ptr]

def repairedAt (utf8 : UTF8 S) (mem : Ptr → Failure S ρ Ptr) (seen : List Ptr) (p : Ptr) :
    Failure S ρ Ptr :=
  if p ∈ seen then settled (invalid utf8) (repairMessage utf8) (mem p) else mem p

theorem repairedAt_inside {p : Ptr} (member : p ∈ seen) :
    repairedAt utf8 mem seen p = settled (invalid utf8) (repairMessage utf8) (mem p) :=
  if_pos member

theorem repairedAt_outside {p : Ptr} (absent : p ∉ seen) : repairedAt utf8 mem seen p = mem p :=
  if_neg absent

end Seen

-- What is assumed of the standard library.
variable (returnsValid : ∀ s, utf8.validString (utf8.toValidUTF8 s) = true)
include returnsValid

theorem repairMessage_valid (f : Failure S ρ Ptr) : invalid utf8 (repairMessage utf8 f) = false :=
  invalid_eq_false.mpr (returnsValid f.message)

variable [DecidableEq Ptr]

theorem repairedAt_repaired : Repaired utf8 mem (repairedAt utf8 mem seen) seen := by
  constructor
  · intro p member
    rw [repairedAt_inside member]
    exact invalid_eq_false.mp (due_settled (repairMessage_valid returnsValid) (mem p))
  · intro p valid
    by_cases member : p ∈ seen
    · rw [repairedAt_inside member, settled_kept valid]
    · rw [repairedAt_outside member]
  · intro p
    by_cases member : p ∈ seen
    · rw [repairedAt_inside member]
      exact settled_fields (mem p)
    · rw [repairedAt_outside member]
      exact ⟨rfl, rfl⟩
  · intro p absent
    exact repairedAt_outside absent

/- The whole of the function: the failures seen within the depth, and whether the chain goes on. -/
theorem repair_eq (mem : Ptr → Failure S ρ Ptr) (failure : Option Ptr) :
    repairInvalidUTF8InFailure utf8 mem failure =
      (repairedAt utf8 mem (visited Failure.cause mem EventRepair.maxFailureDepth failure),
        (visited Failure.cause mem EventRepair.maxFailureDepth failure).any
          (fun p => invalid utf8 (mem p)),
        if standing Failure.cause mem EventRepair.maxFailureDepth failure = none then none
        else some depthError) := by
  have keeps : ∀ f : Failure S ρ Ptr, (repairMessage utf8 f).cause = f.cause := fun _ => rfl
  have swept := sweep_eq keeps (repairMessage_valid returnsValid) EventRepair.maxFailureDepth mem
    failure false
  simp only [repairInvalidUTF8InFailure, swept, Bool.false_or]
  cases standing Failure.cause mem EventRepair.maxFailureDepth failure <;> rfl

theorem repair_chain (causes : Chain Failure.cause mem failure chain) :
    repairInvalidUTF8InFailure utf8 mem failure =
      (repairedAt utf8 mem (chain.take EventRepair.maxFailureDepth),
        (chain.take EventRepair.maxFailureDepth).any (fun p => invalid utf8 (mem p)),
        if chain.length ≤ EventRepair.maxFailureDepth then none else some depthError) := by
  rw [repair_eq returnsValid, causes.visited_eq]
  simp only [causes.standing_eq_none]

theorem repair_short_chain (causes : Chain Failure.cause mem failure chain)
    (short : chain.length ≤ EventRepair.maxFailureDepth) :
    repairInvalidUTF8InFailure utf8 mem failure =
      (repairedAt utf8 mem chain, chain.any (fun p => invalid utf8 (mem p)), none) := by
  rw [repair_chain returnsValid causes, List.take_of_length_le short, if_pos short]

theorem repair_again (causes : Chain Failure.cause mem failure chain)
    (short : chain.length ≤ EventRepair.maxFailureDepth) :
    repairInvalidUTF8InFailure utf8 (repairedAt utf8 mem chain) failure =
      (repairedAt utf8 mem chain, false, none) := by
  have repaired : Repaired utf8 mem (repairedAt utf8 mem chain) chain :=
    repairedAt_repaired returnsValid
  have causes' : Chain Failure.cause (repairedAt utf8 mem chain) failure chain :=
    causes.congr fun p => (repaired.fields p).1
  rw [repair_short_chain returnsValid causes' short]
  refine Prod.ext_iff.mpr ⟨?_, Prod.ext_iff.mpr ⟨?_, rfl⟩⟩
  · funext p
    by_cases member : p ∈ chain
    · exact (repairedAt_inside member).trans (settled_kept (repaired.valid p member))
    · exact repairedAt_outside member
  · rw [List.any_eq_false]
    intro p member
    simp [invalid, repaired.valid p member]

end Exact

theorem repair_exact_on_chains [DecidableEq Ptr] (utf8 : UTF8 S)
    (returnsValid : ∀ s, utf8.validString (utf8.toValidUTF8 s) = true)
    (mem : Ptr → Failure S ρ Ptr) (failure : Option Ptr) :
    let result := repairInvalidUTF8InFailure utf8 mem failure
    (result.2.2 = none ↔
      ∃ chain, Chain Failure.cause mem failure chain ∧
        chain.length ≤ EventRepair.maxFailureDepth) ∧
    (result.2.2 = none → ∃ chain, Chain Failure.cause mem failure chain ∧
      Repaired utf8 mem result.1 chain ∧
      (result.2.1 = true ↔ ∃ p ∈ chain, utf8.validString (mem p).message = false) ∧
      repairInvalidUTF8InFailure utf8 result.1 failure = (result.1, false, none)) := by
  have ends : (repairInvalidUTF8InFailure utf8 mem failure).2.2 = none ↔
      ∃ chain, Chain Failure.cause mem failure chain ∧
        chain.length ≤ EventRepair.maxFailureDepth := by
    rw [repair_eq returnsValid, ← standing_eq_none_iff]
    simp
  refine ⟨ends, fun ok => ?_⟩
  obtain ⟨chain, causes, short⟩ := ends.mp ok
  refine ⟨chain, causes, ?_⟩
  rw [repair_short_chain returnsValid causes short]
  refine ⟨repairedAt_repaired returnsValid, ?_, repair_again returnsValid causes short⟩
  simp [invalid]

section Lists
open EventRepair (FailureNode122 GoString maxFailureDepth repairedNode)

def runes : UTF8 GoString := ⟨EventRepair.validString, EventRepair.toValidUTF8⟩

variable [DecidableEq Ptr]

def toNode (failure : Failure GoString (List GoString) Ptr) : FailureNode122 :=
  ⟨failure.message, failure.others⟩

omit [DecidableEq Ptr] in
theorem toNode_settled (failure : Failure GoString (List GoString) Ptr) :
    toNode (settled (invalid runes) (repairMessage runes) failure) = repairedNode (toNode failure) := by
  cases valid : EventRepair.validString failure.message <;>
    simp [toNode, settled, invalid, runes, repairedNode, repairMessage, valid]

/-- On a chain that ends, the repair in memory is the repair of the list of its failures. -/
theorem repair_refines_list {mem : Ptr → Failure GoString (List GoString) Ptr}
    {failure : Option Ptr} {chain : List Ptr} (causes : Chain Failure.cause mem failure chain) :
    EventRepair.repairInvalidUTF8InFailure (chain.map fun p => toNode (mem p)) =
      (chain.map fun p => toNode ((repairInvalidUTF8InFailure runes mem failure).1 p),
        (repairInvalidUTF8InFailure runes mem failure).2) := by
  have apart := List.disjoint_take_drop causes.nodup (le_refl maxFailureDepth)
  rw [repair_chain EventRepair.toValidUTF8_valid causes, EventRepair.repairInvalidUTF8InFailure,
    EventRepair.repairFailureChain_eq, ← List.map_take, ← List.map_drop, List.length_map]
  refine Prod.ext_iff.mpr ⟨?_, Prod.ext_iff.mpr ⟨?_, rfl⟩⟩
  · have parts : ∀ f : Ptr → FailureNode122, chain.map f =
        (chain.take maxFailureDepth).map f ++ (chain.drop maxFailureDepth).map f := by
      intro f
      rw [← List.map_append, List.take_append_drop]
    dsimp only
    rw [parts, List.map_map]
    congr 1
    · apply List.map_congr_left
      intro p member
      rw [repairedAt_inside member, toNode_settled]
      rfl
    · apply List.map_congr_left
      intro p member
      rw [repairedAt_outside fun seen => apart seen member]
  · rw [List.any_map]
    rfl

end Lists

/-- A failure with an invalid byte, and its cause. -/
def sampleMemory : Nat → Failure EventRepair.GoString Unit Nat
  | 0 => ⟨[some 'a', none], some 1, ()⟩
  | _ => ⟨[some 'b'], none, ()⟩

theorem sample_chain_repaired :
    (∀ s, runes.validString (runes.toValidUTF8 s) = true) ∧
      ∃ chain, Chain Failure.cause sampleMemory (some 0) chain ∧
        Repaired runes sampleMemory (repairInvalidUTF8InFailure runes sampleMemory (some 0)).1 chain ∧
        (repairInvalidUTF8InFailure runes sampleMemory (some 0)).2 = (true, none) := by
  have exact := repair_exact_on_chains runes EventRepair.toValidUTF8_valid sampleMemory (some 0)
  obtain ⟨chain, causes, repaired, _⟩ := exact.2 (by decide)
  exact ⟨EventRepair.toValidUTF8_valid, chain, causes, repaired, by decide⟩

end FailureRepair
