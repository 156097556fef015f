import Mathlib

/- Calls that are shared by key: at most one call is under way for a key, whoever asks for the key
   meanwhile waits for it, and its outcome may be kept for those who ask later. Calls are numbered
   as they begin. A number that someone has seen for a key bounds from below the outcome that is
   kept for it and the call that is under way, and goes on to do so. -/
namespace SharedCalls
variable {κ : Type}

/-- The number of the next call, the calls under way, and the call whose outcome is kept. -/
structure Table (κ : Type) where
  next : Nat
  current : κ → Nat → Prop
  kept : κ → Option Nat

structure Numbered (t : Table κ) : Prop where
  current : ∀ k n, t.current k n → n < t.next
  single : ∀ k n m, t.current k n → t.current k m → n = m
  kept : ∀ k n, t.kept k = some n → n < t.next
  ordered : ∀ k n c, t.kept k = some n → t.current k c → n ≤ c

def Seen (t : Table κ) (k : κ) (n : Nat) : Prop :=
  (∃ m, t.kept k = some m ∧ n ≤ m) ∧ ∀ c, t.current k c → n ≤ c

structure Started (t u : Table κ) (k : κ) : Prop where
  idle : ∀ c, ¬t.current k c
  next : u.next = t.next + 1
  current : ∀ k' c, u.current k' c → t.current k' c ∨ (k' = k ∧ c = t.next)
  kept : u.kept = t.kept

/-- A call that is under way has its outcome kept. -/
structure Stored (t u : Table κ) (k : κ) (n : Nat) : Prop where
  under : t.current k n
  next : u.next = t.next
  current : ∀ k' c, u.current k' c → t.current k' c
  kept : u.kept k = some n
  others : ∀ k', k' ≠ k → u.kept k' = t.kept k'

structure Eased (t u : Table κ) : Prop where
  next : u.next = t.next
  current : ∀ k c, u.current k c → t.current k c
  kept : u.kept = t.kept

inductive Moved (t u : Table κ) : Prop where
  | started (k : κ) (h : Started t u k)
  | stored (k : κ) (n : Nat) (h : Stored t u k n)
  | eased (h : Eased t u)

variable {t u : Table κ}

theorem Started.numbered {k : κ} (h : Started t u k) (numbered : Numbered t) : Numbered u := by
  constructor
  · intro k' n under
    rw [h.next]
    rcases h.current k' n under with before | ⟨-, rfl⟩
    · exact Nat.lt_succ_of_lt (numbered.current k' n before)
    · exact Nat.lt_succ_self t.next
  · intro k' n m first second
    rcases h.current k' n first with before | ⟨rfl, rfl⟩
    · rcases h.current k' m second with before' | ⟨rfl, rfl⟩
      · exact numbered.single k' n m before before'
      · exact absurd before (h.idle n)
    · rcases h.current k' m second with before' | ⟨-, rfl⟩
      · exact absurd before' (h.idle m)
      · rfl
  · intro k' n keeps
    rw [h.kept] at keeps
    have older := numbered.kept k' n keeps
    rw [h.next]
    omega
  · intro k' n c keeps under
    rw [h.kept] at keeps
    have older := numbered.kept k' n keeps
    rcases h.current k' c under with before | ⟨-, rfl⟩
    · exact numbered.ordered k' n c keeps before
    · omega

theorem Stored.numbered {k : κ} {n : Nat} (h : Stored t u k n) (numbered : Numbered t) :
    Numbered u := by
  have keeping : ∀ k' m, u.kept k' = some m → (k' = k ∧ m = n) ∨ t.kept k' = some m := by
    intro k' m keeps
    by_cases same : k' = k
    · subst same
      exact .inl ⟨rfl, Option.some.inj (keeps.symm.trans h.kept)⟩
    · exact .inr (h.others k' same ▸ keeps)
  constructor
  · intro k' c under
    rw [h.next]
    exact numbered.current k' c (h.current k' c under)
  · intro k' c c' first second
    exact numbered.single k' c c' (h.current k' c first) (h.current k' c' second)
  · intro k' m keeps
    rw [h.next]
    rcases keeping k' m keeps with ⟨-, rfl⟩ | before
    · exact numbered.current k m h.under
    · exact numbered.kept k' m before
  · intro k' m c keeps under
    rcases keeping k' m keeps with ⟨rfl, rfl⟩ | before
    · exact (numbered.single k' m c h.under (h.current k' c under)).le
    · exact numbered.ordered k' m c before (h.current k' c under)

theorem Eased.numbered (h : Eased t u) (numbered : Numbered t) : Numbered u := by
  constructor
  · intro k n under
    rw [h.next]
    exact numbered.current k n (h.current k n under)
  · intro k n m first second
    exact numbered.single k n m (h.current k n first) (h.current k m second)
  · intro k n keeps
    rw [h.next]
    exact numbered.kept k n (h.kept ▸ keeps)
  · intro k n c keeps under
    exact numbered.ordered k n c (h.kept ▸ keeps) (h.current k c under)

theorem Moved.numbered (h : Moved t u) (numbered : Numbered t) : Numbered u := by
  cases h with
  | started k h => exact h.numbered numbered
  | stored k n h => exact h.numbered numbered
  | eased h => exact h.numbered numbered

theorem seen_kept (numbered : Numbered t) {k : κ} {n : Nat} (keeps : t.kept k = some n) :
    Seen t k n := by
  refine ⟨⟨n, keeps, le_refl n⟩, ?_⟩
  intro c under
  exact numbered.ordered k n c keeps under

variable {k : κ} {n : Nat}

theorem Seen.moved (seen : Seen t k n) (numbered : Numbered t) (h : Moved t u) : Seen u k n := by
  obtain ⟨⟨m, keeps, below⟩, under⟩ := seen
  cases h with
  | started k' h =>
    refine ⟨⟨m, h.kept ▸ keeps, below⟩, ?_⟩
    intro c going
    rcases h.current k c going with before | ⟨-, rfl⟩
    · exact under c before
    · have older := numbered.kept k m keeps
      omega
  | stored k' m' h =>
    refine ⟨?_, fun c going => under c (h.current k c going)⟩
    by_cases same : k = k'
    · subst same
      exact ⟨m', h.kept, under m' h.under⟩
    · exact ⟨m, (h.others k same).trans keeps, below⟩
  | eased h => exact ⟨⟨m, h.kept ▸ keeps, below⟩, fun c going => under c (h.current k c going)⟩

end SharedCalls
