import Mathlib

/- A pointer that is loaded, stored and compared in single steps. What it points to is not written
   to again, so that a reference is the number of its allocation together with its contents. A
   comparison looks at the number alone. -/
namespace AtomicPointer
variable {α : Type}

structure Ref (α : Type) where
  serial : Nat
  contents : α
  deriving DecidableEq

structure Pointer (α : Type) where
  current : Ref α
  allocated : Nat
  current_allocated : current.serial < allocated

def pointTo (x : α) : Pointer α := ⟨⟨0, x⟩, 1, Nat.one_pos⟩

def store (p : Pointer α) (x : α) : Pointer α := ⟨⟨p.allocated, x⟩, p.allocated + 1, Nat.lt_succ_self _⟩

/-- The new value is allocated in either case. -/
def compareAndSwap (p : Pointer α) (old : Ref α) (x : α) : Pointer α :=
  if old.serial = p.current.serial then store p x
  else ⟨p.current, p.allocated + 1, Nat.lt_succ_of_lt p.current_allocated⟩

structure Known (p : Pointer α) (r : Ref α) : Prop where
  allocated : r.serial < p.allocated
  identified : r.serial = p.current.serial → r = p.current

theorem known_current (p : Pointer α) : Known p p.current := ⟨p.current_allocated, fun _ => rfl⟩

theorem Known.after_store {p : Pointer α} {r : Ref α} (known : Known p r) (x : α) :
    Known (store p x) r := by
  constructor
  · exact Nat.lt_succ_of_lt known.allocated
  · intro same
    exact absurd same (Nat.ne_of_lt known.allocated)

theorem swap_current (p : Pointer α) (x : α) : compareAndSwap p p.current x = store p x := by
  simp [compareAndSwap]

/-- A reference that has been replaced is not taken for the new one. -/
theorem swap_replaced {p : Pointer α} {r : Ref α} (known : Known p r) (replaced : r ≠ p.current)
    (x : α) : (compareAndSwap p r x).current = p.current := by
  have other : r.serial ≠ p.current.serial := fun same => replaced (known.identified same)
  simp [compareAndSwap, other]

end AtomicPointer
