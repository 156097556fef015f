import S2SProxy.NameOccurrences

/- The shortcut of visitNamespace: a skippable event, or a list of them, is not walked. The
   same walk without the shortcut is compared with it. Events hold no History, so the only
   place where the shortcut is taken is the value itself. -/
namespace MessageVisitor
open MessageTree StoppingUpdate
variable {β : Type}

mutual
def flat : Value β → Bool
  | .history _ => false
  | .namespaceInfo _ rest => flatChildren rest
  | .historyEvent _ rest => flatChildren rest
  | .message _ fields => flatChildren fields
  | .list _ elements => flatChildren elements
  | .scalar _ _ | .str _ | .nil | .dataBlob _ | .dataBlobs _ | .payloads _ | .searchAttributes _ => true
def flatChildren : Children β → Bool
  | .empty => true
  | .cons _ v rest => flat v && flatChildren rest
end

/-- visitNamespace without isSkippableForNamespaceTranslation. -/
def unskippedVisitor (matcher : StringMatcher) : Visitor Empty where
  stringFields := namespaceFieldNames
  attributeFields := []
  namespaceInfo := true
  skips := never
  onString := matchName matcher
  onAttributes := keep
  translateOne := Empty.elim

def visitNamespaceUnskipped (order : Order Empty) (matcher : StringMatcher) : Event → Visited Event :=
  visitValues order (unskippedVisitor matcher)

def eventNames (v : Event) : List String :=
  visible (occurrences (fun _ => Empty.elim) .visited none v)

mutual
theorem walk_unskipped (matcher : StringMatcher) (slot : Option StructField) :
    ∀ v : Event, flat v = true →
      walk (unskippedVisitor matcher) slot v = walk (namespaceVisitor Empty.elim matcher) slot v
  | .scalar _ _, _ => rfl
  | .nil, _ => rfl
  | .str _, _ => rfl
  | .dataBlob _, _ => rfl
  | .dataBlobs _, _ => rfl
  | .payloads _, _ => rfl
  | .searchAttributes _, _ => rfl
  | .namespaceInfo _ rest, holds => by
    simp only [walk, walkChildren_unskipped matcher rest holds]
    rfl
  | .history _, holds => nomatch holds
  | .historyEvent _ rest, holds => by simp only [walk, walkChildren_unskipped matcher rest holds]
  | .message _ fields, holds => by simp only [walk, walkChildren_unskipped matcher fields holds]
  | .list _ elements, holds => by simp only [walk, walkChildren_unskipped matcher elements holds]
theorem walkChildren_unskipped (matcher : StringMatcher) :
    ∀ cs : Children Empty, flatChildren cs = true →
      walkChildren (unskippedVisitor matcher) never cs =
        walkChildren (namespaceVisitor Empty.elim matcher) never cs
  | .empty, _ => rfl
  | .cons slot v rest, holds => by
    simp only [flatChildren, Bool.and_eq_true] at holds
    have first := walk_unskipped matcher slot v holds.1
    have others := walkChildren_unskipped matcher rest holds.2
    have listed : (unskippedVisitor matcher).toSelection.attributeFields =
        (namespaceVisitor (β := Empty) Empty.elim matcher).toSelection.attributeFields := rfl
    simp only [walkChildren, unhandled, listed, first, others]
end

theorem visitNamespaceUnskipped_eq (order : Order Empty) (matcher : StringMatcher) {v : Event}
    (holds : flat v = true) :
    visitNamespaceUnskipped order matcher v = walk (namespaceVisitor Empty.elim matcher) none v := by
  have same := walk_unskipped matcher none v holds
  have fine : (walk (unskippedVisitor matcher) none v).err = none := by
    rw [same]
    exact event_walk_ok matcher v
  have ok : ∀ p ∈ places (unskippedVisitor matcher).toSelection none v,
      ((unskippedVisitor matcher).handle p).err = none :=
    (walk_follows empty_steady none v).err_none.mp fine
  rw [visitNamespaceUnskipped, visit_eq_walk empty_steady order ok, same]

/- A walk of events leaves them and the flag alone exactly if no name it comes to matches. -/
theorem walk_keeps_iff (matcher : StringMatcher) (v : Event) :
    keep v = walk (namespaceVisitor Empty.elim matcher) none v ↔
      ∀ n ∈ eventNames v, (matcher n).2 = false := by
  have ok := event_walk_ok matcher v
  have matched : (walk (namespaceVisitor Empty.elim matcher) none v).matched =
      (eventNames v).any fun n => (matcher n).2 :=
    namespace_walk_matched empty_steady (fun _ b => b.elim) (fun b => b.elim) ok
  constructor
  · intro same
    rw [← same] at matched
    simpa [keep] using matched.symm
  · intro unmatched
    have quiet : (walk (namespaceVisitor Empty.elim matcher) none v).matched = false := by
      rw [matched]
      simpa using unmatched
    have value := event_walk_unmatched quiet
    cases walked : walk (namespaceVisitor Empty.elim matcher) none v with
    | mk value' matched' err' => simp_all [keep]

theorem skipping_keeps_translation_iff (order order' : Order Empty) (m : NameMap) (v : Event)
    (holds : flat v = true) :
    visitNamespaceEvents order (createStringMatcher m) v =
        visitNamespaceUnskipped order' (createStringMatcher m) v ↔
      (isSkippableForNamespaceTranslation v = true → ∀ n ∈ eventNames v, m.lookup n = none) := by
  have asked (n : String) : (createStringMatcher m n).2 = false ↔ m.lookup n = none := by
    unfold createStringMatcher
    cases m.lookup n <;> simp
  rw [visitNamespaceUnskipped_eq order' _ holds, visitNamespaceEvents_eq]
  cases skipped : isSkippableForNamespaceTranslation v with
  | false => simp
  | true => simp only [↓reduceIte, walk_keeps_iff, asked, forall_const]

/-- A failure whose cause is the failure of a child in the given namespace. -/
def childFailure (childNamespace : String) : Event :=
  .message "*failure.Failure" (.cons (exportedField "Cause") (.message "*failure.Failure"
    (.cons (exportedField "FailureInfo")
      (.message "*failure.Failure_ChildWorkflowExecutionFailureInfo"
        (.cons (exportedField "ChildWorkflowExecutionFailureInfo")
          (.message "*failure.ChildWorkflowExecutionFailureInfo"
            (.cons (exportedField "Namespace") (.str childNamespace) .empty)) .empty)) .empty)) .empty)

def failedBy (childNamespace : String) : Event :=
  .historyEvent .workflowExecutionFailed
    (.cons (exportedField "Attributes")
      (.message "*history.HistoryEvent_WorkflowExecutionFailedEventAttributes"
        (.cons (exportedField "WorkflowExecutionFailedEventAttributes")
          (.message "*history.WorkflowExecutionFailedEventAttributes"
            (.cons (exportedField "Failure") (childFailure childNamespace) .empty)) .empty)) .empty)

theorem skipping_keeps_translation_iff_unmapped :
    visitNamespaceEvents fieldOrder (createStringMatcher sampleMap)
        (.list historyEventsType (.cons none (failedBy "other") .empty)) =
      visitNamespaceUnskipped fieldOrder (createStringMatcher sampleMap)
        (.list historyEventsType (.cons none (failedBy "other") .empty)) :=
  (skipping_keeps_translation_iff fieldOrder fieldOrder sampleMap _ rfl).mpr fun _ => by decide +kernel

/-- The namespace of the child is mapped, and the skipped event keeps it. -/
theorem skipped_failure_keeps_child_namespace :
    visitNamespaceEvents fieldOrder (createStringMatcher sampleMap) (failedBy "local") =
        ⟨failedBy "local", false, none⟩ ∧
      visitNamespaceUnskipped fieldOrder (createStringMatcher sampleMap) (failedBy "local") =
        ⟨failedBy "remote", true, none⟩ :=
  ⟨rfl, rfl⟩

end MessageVisitor
