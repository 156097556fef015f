import Mathlib

/- A depth-first search with a memo. A node that is still being worked out counts as a miss,
   but the miss is provisional, and only answers that depend on no such miss are remembered.
   The search decides nodes through a verdict that may keep a state of its own. What it
   answers for a node that it starts from is whether something can be found from there. -/
namespace MemoSearch
variable {ν σ : Type} [DecidableEq ν]

inductive Edge (ν : Type) where
  | hit
  | skip
  | into (n : ν)

structure Problem (ν σ : Type) where
  verdict : ν → σ → Option Bool × σ
  edges : ν → List (Edge ν)

structure Searched (ν σ : Type) [DecidableEq ν] where
  memo : AList fun _ : ν => Bool
  outer : σ

structure Answer where
  found : Bool
  provisional : Bool
  deriving DecidableEq

def Searched.remember (s : Searched ν σ) (n : ν) (found : Bool) : Searched ν σ :=
  { s with memo := s.memo.insert n found }

def follow (next : ν → Searched ν σ → Answer × Searched ν σ) :
    List (Edge ν) → Bool → Searched ν σ → Answer × Searched ν σ
  | [], provisional, s => (⟨false, provisional⟩, s)
  | .hit :: _, _, s => (⟨true, false⟩, s)
  | .skip :: rest, provisional, s => follow next rest provisional s
  | .into n :: rest, provisional, s =>
    match next n s with
    | (⟨true, _⟩, s) => (⟨true, false⟩, s)
    | (⟨false, child⟩, s) => follow next rest (provisional || child) s

/-- The end of a node: a hit is remembered, and a miss that is not provisional. -/
def conclude (n : ν) : Answer × Searched ν σ → Answer × Searched ν σ
  | (⟨true, _⟩, s) => (⟨true, false⟩, s.remember n true)
  | (⟨false, false⟩, s) => (⟨false, false⟩, s.remember n false)
  | (⟨false, true⟩, s) => (⟨false, true⟩, s)

/-- Out of fuel, the search gives up with the answer stuck. -/
def searchOr (stuck : ν → Searched ν σ → Answer × Searched ν σ) (p : Problem ν σ) :
    Nat → List ν → ν → Searched ν σ → Answer × Searched ν σ
  | 0, _, n, s => stuck n s
  | fuel + 1, inProgress, n, s =>
    match s.memo.lookup n with
    | some found => (⟨found, false⟩, s)
    | none =>
      match p.verdict n s.outer with
      | (some found, outer) => (⟨found, false⟩, { s with outer := outer }.remember n found)
      | (none, outer) =>
        if n ∈ inProgress then (⟨false, true⟩, { s with outer := outer })
        else conclude n (follow (searchOr stuck p fuel (n :: inProgress)) (p.edges n) false
          { s with outer := outer })

def search (p : Problem ν σ) : Nat → List ν → ν → Searched ν σ → Answer × Searched ν σ :=
  searchOr (fun _ s => (⟨false, true⟩, s)) p

section Meaning
variable (verdict : ν → Option Bool) (edges : ν → List (Edge ν))

/-- Something is found from the node, so many edges away. -/
inductive FoundAt : Nat → ν → Prop where
  | verdict {n : ν} : verdict n = some true → FoundAt 0 n
  | hit {n : ν} : verdict n = none → .hit ∈ edges n → FoundAt 0 n
  | into {k : Nat} {n c : ν} : verdict n = none → .into c ∈ edges n → FoundAt k c →
      FoundAt (k + 1) n

def Found (n : ν) : Prop := ∃ k, FoundAt verdict edges k n

/-- Something is found from the node on a way that enters none of the given nodes. -/
inductive FoundAvoiding : List ν → ν → Prop where
  | verdict {inProgress : List ν} {n : ν} : verdict n = some true → FoundAvoiding inProgress n
  | hit {inProgress : List ν} {n : ν} : verdict n = none → n ∉ inProgress → .hit ∈ edges n →
      FoundAvoiding inProgress n
  | into {inProgress : List ν} {n c : ν} : verdict n = none → n ∉ inProgress → .into c ∈ edges n →
      FoundAvoiding (n :: inProgress) c → FoundAvoiding inProgress n

variable {verdict edges}

omit [DecidableEq ν] in
/- A shortest way does not come back to a node it has left. -/
theorem avoiding_of_found {k : Nat} {n : ν} {inProgress : List ν}
    (found : FoundAt verdict edges k n)
    (longer : ∀ p ∈ inProgress, ∀ j ≤ k, ¬FoundAt verdict edges j p) :
    FoundAvoiding verdict edges inProgress n := by
  induction k using Nat.strongRecOn generalizing n inProgress with
  | ind k ih =>
    have outside : n ∉ inProgress := fun member => longer n member k le_rfl found
    cases found with
    | verdict yes => exact .verdict yes
    | hit open_ hit => exact .hit open_ outside hit
    | @into k n c open_ edge below =>
      by_cases sooner : ∃ j ≤ k, FoundAt verdict edges j n
      · obtain ⟨j, le, found⟩ := sooner
        exact ih j (by omega) found fun p member i le' => longer p member i (by omega)
      · refine .into open_ outside edge (ih k (by omega) below ?_)
        intro p member j le found
        rcases List.mem_cons.mp member with rfl | earlier
        · exact sooner ⟨j, le, found⟩
        · exact longer p earlier j (by omega) found

omit [DecidableEq ν] in
theorem found_of_edge {n c : ν} (open_ : verdict n = none) (edge : .into c ∈ edges n)
    (below : Found verdict edges c) : Found verdict edges n := by
  obtain ⟨k, found⟩ := below
  exact ⟨k + 1, .into open_ edge found⟩

omit [DecidableEq ν] in
theorem found_of_avoiding {inProgress : List ν} {n : ν}
    (way : FoundAvoiding verdict edges inProgress n) : Found verdict edges n := by
  induction way with
  | verdict yes => exact ⟨0, .verdict yes⟩
  | hit open_ _ hit => exact ⟨0, .hit open_ hit⟩
  | into open_ _ edge _ ih => exact found_of_edge open_ edge ih

omit [DecidableEq ν] in
theorem found_of_verdict {n : ν} {found : Bool} (decided : verdict n = some found) :
    found = true ↔ Found verdict edges n := by
  constructor
  · intro yes
    exact ⟨0, .verdict (decided.trans (congrArg some yes))⟩
  · intro way
    obtain ⟨k, way⟩ := way
    cases way with
    | verdict yes => exact Option.some.inj (decided.symm.trans yes)
    | hit open_ _ => cases decided.symm.trans open_
    | into open_ _ _ => cases decided.symm.trans open_

omit [DecidableEq ν] in
theorem not_found_of_edges {n : ν} (open_ : verdict n = none) (noHit : .hit ∉ edges n)
    (missed : ∀ c, .into c ∈ edges n → ¬Found verdict edges c) : ¬Found verdict edges n := by
  rintro ⟨k, found⟩
  cases found with
  | verdict yes => simp [open_] at yes
  | hit _ hit => exact noHit hit
  | into _ edge below => exact missed _ edge ⟨_, below⟩

end Meaning

section Correct
variable {p : Problem ν σ} {verdict : ν → Option Bool} {good : σ → Prop}

/-- The verdict of the problem is a function of the node, whatever its state. -/
def Decides (p : Problem ν σ) (verdict : ν → Option Bool) (good : σ → Prop) : Prop :=
  ∀ n outer, good outer → (p.verdict n outer).1 = verdict n ∧ good (p.verdict n outer).2

structure Sound (p : Problem ν σ) (verdict : ν → Option Bool) (good : σ → Prop)
    (s : Searched ν σ) : Prop where
  memo : ∀ n found, s.memo.lookup n = some found → (found = true ↔ Found verdict p.edges n)
  outer : good s.outer

theorem Sound.remember {s : Searched ν σ} (h : Sound p verdict good s) {n : ν} {found : Bool}
    (right : found = true ↔ Found verdict p.edges n) : Sound p verdict good (s.remember n found) := by
  refine ⟨fun m b got => ?_, h.outer⟩
  by_cases same : m = n
  · subst same
    simp only [Searched.remember, AList.lookup_insert, Option.some.injEq] at got
    exact got ▸ right
  · simp only [Searched.remember, AList.lookup_insert_ne same] at got
    exact h.memo m b got

/-- What the search of a node tells, when it avoids the nodes in progress. -/
structure Told (p : Problem ν σ) (verdict : ν → Option Bool) (good : σ → Prop)
    (avoided : Prop) (n : ν) (result : Answer × Searched ν σ) : Prop where
  sound : Sound p verdict good result.2
  hit : result.1.found = true → Found verdict p.edges n
  miss : result.1 = ⟨false, false⟩ → ¬Found verdict p.edges n
  avoided : result.1.found = false → ¬avoided

theorem definite_tells {avoided : Prop} {n : ν} {found : Bool} {s : Searched ν σ}
    (sound : Sound p verdict good s) (right : found = true ↔ Found verdict p.edges n)
    (way : avoided → Found verdict p.edges n) : Told p verdict good avoided n (⟨found, false⟩, s) := by
  refine ⟨sound, right.mp, ?_, ?_⟩
  · intro missed here
    exact absurd (right.mpr here) (by simp_all)
  · intro missed here
    exact absurd (right.mpr (way here)) (by simp_all)

structure Followed (p : Problem ν σ) (verdict : ν → Option Bool) (good : σ → Prop)
    (inProgress : List ν) (edges : List (Edge ν)) (provisional : Bool)
    (result : Answer × Searched ν σ) : Prop where
  sound : Sound p verdict good result.2
  hit : result.1.found = true →
    .hit ∈ edges ∨ ∃ c, .into c ∈ edges ∧ Found verdict p.edges c
  miss : result.1 = ⟨false, false⟩ →
    provisional = false ∧ .hit ∉ edges ∧ ∀ c, .into c ∈ edges → ¬Found verdict p.edges c
  avoided : result.1.found = false →
    .hit ∉ edges ∧ ∀ c, .into c ∈ edges → ¬FoundAvoiding verdict p.edges inProgress c

theorem follow_tells {inProgress : List ν} {next : ν → Searched ν σ → Answer × Searched ν σ}
    (told : ∀ c s, Sound p verdict good s →
      Told p verdict good (FoundAvoiding verdict p.edges inProgress c) c (next c s))
    (edges : List (Edge ν)) (provisional : Bool) (s : Searched ν σ) (sound : Sound p verdict good s) :
    Followed p verdict good inProgress edges provisional (follow next edges provisional s) := by
  induction edges generalizing provisional s with
  | nil => exact ⟨sound, by simp [follow], by simp [follow], by simp [follow]⟩
  | cons edge rest ih =>
    cases edge with
    | hit => exact ⟨sound, by simp, by simp [follow], by simp [follow]⟩
    | skip =>
      obtain ⟨sound, hit, miss, avoided⟩ := ih provisional s sound
      exact ⟨sound, by simpa [follow] using hit, by simpa [follow] using miss,
        by simpa [follow] using avoided⟩
    | into c =>
      have one := told c s sound
      rcases result : next c s with ⟨⟨found, child⟩, t⟩
      rw [result] at one
      cases found with
      | true =>
        rw [show follow next (.into c :: rest) provisional s = (⟨true, false⟩, t) by
          simp [follow, result]]
        exact ⟨one.sound, fun _ => .inr ⟨c, by simp, one.hit rfl⟩, by simp, by simp⟩
      | false =>
        rw [show follow next (.into c :: rest) provisional s =
          follow next rest (provisional || child) t by simp [follow, result]]
        obtain ⟨sound, hit, miss, avoided⟩ := ih (provisional || child) t one.sound
        refine ⟨sound, ?_, ?_, ?_⟩
        · intro found
          rcases hit found with here | ⟨d, member, below⟩
          · exact .inl (List.mem_cons_of_mem _ here)
          · exact .inr ⟨d, List.mem_cons_of_mem _ member, below⟩
        · intro missed
          obtain ⟨neither, noHit, others⟩ := miss missed
          simp only [Bool.or_eq_false_iff] at neither
          refine ⟨neither.1, by simpa using noHit, fun d member => ?_⟩
          rcases List.mem_cons.mp member with same | later
          · obtain rfl := Edge.into.inj same
            exact one.miss (by rw [neither.2])
          · exact others d later
        · intro missed
          obtain ⟨noHit, others⟩ := avoided missed
          refine ⟨by simpa using noHit, fun d member => ?_⟩
          rcases List.mem_cons.mp member with same | later
          · obtain rfl := Edge.into.inj same
            exact one.avoided rfl
          · exact others d later

theorem conclude_tells {inProgress : List ν} {n : ν} {result : Answer × Searched ν σ}
    (open_ : verdict n = none)
    (h : Followed p verdict good (n :: inProgress) (p.edges n) false result) :
    Told p verdict good (FoundAvoiding verdict p.edges inProgress n) n (conclude n result) := by
  obtain ⟨⟨found, provisional⟩, t⟩ := result
  have avoided : found = false → ¬FoundAvoiding verdict p.edges inProgress n := by
    intro missed way
    obtain ⟨noHit, others⟩ := h.avoided missed
    cases way with
    | verdict yes => simp [open_] at yes
    | hit _ _ hit => exact noHit hit
    | into _ _ edge below => exact others _ edge below
  cases found with
  | true =>
    have here : Found verdict p.edges n := by
      rcases h.hit rfl with hit | ⟨c, edge, below⟩
      · exact ⟨0, .hit open_ hit⟩
      · exact found_of_edge open_ edge below
    exact ⟨h.sound.remember (iff_of_true rfl here), fun _ => here, by simp [conclude], by simp [conclude]⟩
  | false =>
    cases provisional with
    | true => exact ⟨h.sound, by simp [conclude], by simp [conclude], fun _ => avoided rfl⟩
    | false =>
      obtain ⟨_, noHit, others⟩ := h.miss rfl
      have missed := not_found_of_edges open_ noHit others
      exact ⟨h.sound.remember (iff_of_false (by simp) missed), by simp [conclude], fun _ => missed,
        fun _ => avoided rfl⟩

def room {κ : Type} [DecidableEq κ] (all : Finset κ) (seen : List κ) : Nat :=
  (all \ seen.toFinset).card

theorem room_cons {κ : Type} [DecidableEq κ] {all : Finset κ} {seen : List κ} {n : κ}
    (member : n ∈ all) (unseen : n ∉ seen) : room all (n :: seen) < room all seen := by
  unfold room
  refine Finset.card_lt_card ((Finset.ssubset_iff_of_subset ?_).mpr ⟨n, ?_, ?_⟩)
  · exact Finset.sdiff_subset_sdiff le_rfl (by simp [Finset.subset_insert])
  · simp [member, unseen]
  · simp

variable [Fintype ν]

theorem search_tells (decides : Decides p verdict good) (fuel : Nat) (inProgress : List ν)
    (enough : room Finset.univ inProgress < fuel) (n : ν) (s : Searched ν σ)
    (sound : Sound p verdict good s) :
    Told p verdict good (FoundAvoiding verdict p.edges inProgress n) n
      (search p fuel inProgress n s) := by
  unfold search
  induction fuel generalizing inProgress n s with
  | zero => omega
  | succ fuel ih =>
    rw [searchOr]
    cases known : s.memo.lookup n with
    | some found => exact definite_tells sound (sound.memo n found known) found_of_avoiding
    | none =>
      obtain ⟨same, kept⟩ := decides n s.outer sound.outer
      rcases decided : p.verdict n s.outer with ⟨answer, outer⟩
      rw [decided] at same kept
      have sound' : Sound p verdict good { s with outer := outer } := ⟨sound.memo, kept⟩
      cases answer with
      | some found =>
        have right : found = true ↔ Found verdict p.edges n := found_of_verdict same.symm
        exact definite_tells (sound'.remember right) right found_of_avoiding
      | none =>
        by_cases member : n ∈ inProgress
        · simp only [member, ↓reduceIte]
          refine ⟨sound', by simp, by simp, fun _ way => ?_⟩
          cases way with
          | verdict yes => cases same.trans yes
          | hit _ outside _ => exact outside member
          | into _ outside _ _ => exact outside member
        · simp only [member, ↓reduceIte]
          have less := room_cons (Finset.mem_univ n) member
          refine conclude_tells same.symm (follow_tells ?_ (p.edges n) false _ sound')
          exact fun c t sound => ih (n :: inProgress) (by omega) c t sound

/- With more fuel than there are nodes left the fuel never runs out: neither does the result depend
   on the answer that is given then, nor on yet more fuel. -/
theorem search_never_stuck (stuck stuck' : ν → Searched ν σ → Answer × Searched ν σ)
    (p : Problem ν σ) {fuel more : Nat} {inProgress : List ν}
    (enough : room Finset.univ inProgress < fuel) (le : fuel ≤ more) (n : ν) (s : Searched ν σ) :
    searchOr stuck p more inProgress n s = searchOr stuck' p fuel inProgress n s := by
  induction fuel generalizing more inProgress n s with
  | zero => omega
  | succ fuel ih =>
    obtain ⟨more, rfl⟩ : ∃ k, more = k + 1 := ⟨more - 1, by omega⟩
    by_cases member : n ∈ inProgress
    · simp only [searchOr, member, ↓reduceIte]
    · have less := room_cons (Finset.mem_univ n) member
      have below : searchOr stuck p more (n :: inProgress) =
          searchOr stuck' p fuel (n :: inProgress) := by
        funext c t
        exact ih (by omega) (by omega) c t
      simp only [searchOr, member, ↓reduceIte, below]

/- A search that starts with nothing in progress is right, whatever it remembers. -/
theorem search_iff (decides : Decides p verdict good) {s : Searched ν σ}
    (sound : Sound p verdict good s) (n : ν) :
    ((search p (Fintype.card ν + 1) [] n s).1.found = true ↔ Found verdict p.edges n) ∧
      Sound p verdict good (search p (Fintype.card ν + 1) [] n s).2 := by
  have enough : room (Finset.univ : Finset ν) [] < Fintype.card ν + 1 := by
    simp [room, Finset.card_univ]
  have told := search_tells decides _ [] enough n s sound
  refine ⟨⟨told.hit, ?_⟩, told.sound⟩
  intro here
  obtain ⟨k, found⟩ := here
  have way : FoundAvoiding verdict p.edges [] n := avoiding_of_found found (by simp)
  by_contra missed
  exact told.avoided (Bool.eq_false_iff.mpr missed) way

end Correct

end MemoSearch
