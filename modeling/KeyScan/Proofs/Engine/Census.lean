import KeyScan.Proofs.Reader.Frame

namespace KeyScan

/-- What tells the snapshots in use of an engine, and their number. -/
structure Census (σ : Type) {ι : Type} [Engine σ ι] where
  /-- the snapshots in use are these, in any order -/
  Holds : σ → List Sequence → Prop
  size : σ → Nat
  size_eq : ∀ {engine held}, Holds engine held → size engine = held.length
  perm : ∀ {engine held other}, Holds engine held → held.Perm other → Holds engine other
  acquire : ∀ {engine held}, Holds engine held →
    Holds (Engine.acquire engine).2 ((Engine.acquire engine).1 :: held)
  release : ∀ {engine sequence held}, Holds engine (sequence :: held) →
    Holds (Engine.release sequence engine) held
  «open» : ∀ {engine held} fillCache sequence, Holds engine held →
    Holds (Engine.open fillCache sequence engine).2 held
  move : ∀ {engine held} move iterator, Holds engine held →
    Holds (Engine.move move iterator engine).2.2 held
  close : ∀ {engine held} iterator, Holds engine held → Holds (Engine.close iterator engine) held

theorem Census.respects {σ ι : Type} [Engine σ ι] (census : Census σ) :
    Engine.Respects fun before after => ∀ held, census.Holds before held → census.Holds after held where
  refl _ _ holds := holds
  trans one two held holds := two held (one held holds)
  «open» fillCache sequence _ _ := census.open fillCache sequence
  move move iterator _ _ := census.move move iterator
  close iterator _ _ := census.close iterator

namespace Snapshots

/-- The numbers counted, each as often as it is. -/
def listed (counts : List (Sequence × Nat)) : List Sequence :=
  counts.flatMap fun entry => List.replicate entry.2 entry.1

/-- No number is kept without a snapshot. -/
def Occupied (counts : List (Sequence × Nat)) : Prop := ∀ entry ∈ counts, 0 < entry.2

theorem listed_cons (entry : Sequence × Nat) (rest : List (Sequence × Nat)) :
    listed (entry :: rest) = List.replicate entry.2 entry.1 ++ listed rest := List.flatMap_cons ..

theorem length_listed (snapshots : Snapshots) : (listed snapshots.counts).length = snapshots.size := by
  unfold size
  induction snapshots.counts with
  | nil => rfl
  | cons entry rest ih => rw [listed_cons, List.length_append, List.length_replicate, ih, List.foldr_cons]

theorem increase_listed (sequence : Sequence) (counts : List (Sequence × Nat)) :
    (listed (increase sequence counts)).Perm (sequence :: listed counts) := by
  induction counts with
  | nil => exact .refl _
  | cons entry rest ih =>
    obtain ⟨head, count⟩ := entry
    unfold increase
    split
    · exact .refl _
    · split
      · rename_i same
        subst same
        exact .refl _
      · rw [listed_cons, listed_cons]
        exact (ih.append_left _).trans List.perm_middle

theorem Occupied.increase {counts : List (Sequence × Nat)} (occupied : Occupied counts)
    (sequence : Sequence) : Occupied (Snapshots.increase sequence counts) := by
  induction counts with
  | nil => simp [Occupied, Snapshots.increase]
  | cons entry rest ih =>
    obtain ⟨head, count⟩ := entry
    have ⟨first, others⟩ := List.forall_mem_cons.mp occupied
    unfold Snapshots.increase
    split
    · exact List.forall_mem_cons.mpr ⟨Nat.one_pos, occupied⟩
    · split
      · exact List.forall_mem_cons.mpr ⟨Nat.succ_pos _, others⟩
      · exact List.forall_mem_cons.mpr ⟨first, ih others⟩

/-- A snapshot that is in use can be given back, and the others stay in use. -/
theorem decrease?_listed {sequence : Sequence} {counts : List (Sequence × Nat)}
    (occupied : Occupied counts) (member : sequence ∈ listed counts) :
    ∃ fewer, decrease? sequence counts = some fewer ∧ Occupied fewer ∧
      (listed counts).Perm (sequence :: listed fewer) := by
  induction counts with
  | nil => cases member
  | cons entry rest ih =>
    obtain ⟨head, count⟩ := entry
    have ⟨first, others⟩ := List.forall_mem_cons.mp occupied
    unfold decrease?
    split
    · rename_i same
      subst same
      obtain ⟨less, rfl⟩ := Nat.exists_eq_succ_of_ne_zero (Nat.ne_of_gt first)
      split
      · rename_i several
        refine ⟨_, rfl, List.forall_mem_cons.mpr ⟨Nat.sub_pos_of_lt several, others⟩, .refl _⟩
      · rename_i single
        obtain rfl : less = 0 := by omega
        exact ⟨_, rfl, others, .refl _⟩
    · rename_i apart
      have later : sequence ∈ listed rest := by
        rw [listed_cons, List.mem_append] at member
        exact member.resolve_left fun here => apart (List.eq_of_mem_replicate here)
      obtain ⟨fewer, found, kept, same⟩ := ih others later
      refine ⟨(head, count) :: fewer, by rw [found]; rfl, List.forall_mem_cons.mpr ⟨first, kept⟩, ?_⟩
      rw [listed_cons, listed_cons]
      exact (same.append_left _).trans List.perm_middle

end Snapshots

/-- The engine in memory counts its snapshots by their numbers. -/
def MemoryEngine.census : Census MemoryEngine where
  Holds engine held :=
    Snapshots.Occupied engine.snapshots.counts ∧ (Snapshots.listed engine.snapshots.counts).Perm held
  size engine := engine.snapshots.size
  size_eq holds := by rw [← Snapshots.length_listed, holds.2.length_eq]
  perm holds same := ⟨holds.1, holds.2.trans same⟩
  acquire holds := ⟨holds.1.increase _, (Snapshots.increase_listed _ _).trans (holds.2.cons _)⟩
  release := by
    rintro engine sequence held ⟨occupied, same⟩
    obtain ⟨fewer, found, kept, rest⟩ :=
      Snapshots.decrease?_listed occupied (same.mem_iff.mpr List.mem_cons_self)
    have left : (Engine.release sequence engine).snapshots = ⟨fewer⟩ := by
      change (engine.snapshots.release sequence).2 = _
      simp [Snapshots.release, found]
    exact ⟨left ▸ kept, left ▸ (rest.symm.trans same).cons_inv⟩
  «open» _ _ holds := holds
  move _ _ holds := holds
  close _ holds := holds

theorem MemoryEngine.census_empty : MemoryEngine.census.Holds MemoryEngine.empty [] :=
  ⟨fun _ member => absurd member List.not_mem_nil, .refl _⟩

end KeyScan
