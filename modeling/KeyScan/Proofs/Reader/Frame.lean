import KeyScan.Engine.Memory
import KeyScan.Reader

namespace KeyScan

/-- A relation between engines that every call of an iterator respects. -/
structure Engine.Respects {σ ι : Type} [Engine σ ι] (R : σ → σ → Prop) : Prop where
  refl : ∀ engine, R engine engine
  trans : ∀ {first second third}, R first second → R second third → R first third
  «open» : ∀ fillCache sequence engine, R engine (Engine.open fillCache sequence engine).2
  move : ∀ move iterator engine, R engine (Engine.move move iterator engine).2.2
  close : ∀ iterator engine, R engine (Engine.close iterator engine)

namespace Reader

section AnyEngine

variable {σ ι : Type} [Engine σ ι]

private theorem materialize_isReleased (reader : Reader ι) (engine : σ) :
    (reader.materialize engine).2.1.isReleased = reader.isReleased := by
  unfold materialize
  split
  · rfl
  · rfl
  · rename_i pending
    split
    · rfl
    · simp [isReleased, pending]

theorem handle_of_materialize {reader next : Reader ι} {engine after : σ} {fresh : Bool}
    {iterator : ι} (opened : reader.materialize engine = (.ok (fresh, iterator), next, after)) :
    next.handle = .opened iterator := by
  unfold materialize at opened
  split at opened
  · rename_i handle
    cases opened
    exact handle
  · cases opened
  · split at opened
    · cases opened
    · cases opened
      rfl

private theorem isReleased_of_materialize {reader next : Reader ι} {engine after : σ} {result : Bool × ι}
    (opened : reader.materialize engine = (.ok result, next, after)) : next.isReleased = false := by
  rw [isReleased, handle_of_materialize opened]

theorem look_handle (reader : Reader ι) (iterator : ι) (engine : σ) :
    (reader.look iterator engine).2.handle = reader.handle := by
  unfold look
  split <;> rfl

theorem read_isReleased (reader : Reader ι) (engine : σ) :
    (reader.read engine).2.1.isReleased = reader.isReleased := by
  have same := materialize_isReleased reader engine
  unfold read
  split
  · rename_i failed
    rwa [failed] at same
  · rename_i next after opened
    rw [opened] at same
    have held := isReleased_of_materialize opened
    split
    · simp only [isReleased, look_handle] at same ⊢
      exact same
    · rw [← same]
      split
      · exact held.symm
      · simp only [isReleased, look_handle] at held ⊢
        exact held.symm

theorem seek_isReleased (target : Bytes) (reader : Reader ι) (engine : σ) :
    (reader.seek target engine).2.1.isReleased = reader.isReleased := by
  have same := materialize_isReleased { reader with target := none } engine
  unfold seek
  split
  · rename_i failed
    rwa [failed] at same
  · rename_i next after opened
    rw [opened] at same
    have held := isReleased_of_materialize opened
    refine Eq.trans ?_ same
    rw [held]
    split
    · rfl
    · simp only
      split <;> rfl

private theorem gather_isReleased (highWaterMark fuel size : Nat) (entries : List Entry)
    (reader : Reader ι) (engine : σ) :
    (reader.gather highWaterMark fuel size entries engine).2.1.isReleased = reader.isReleased := by
  induction fuel generalizing size entries reader engine with
  | zero => rfl
  | succ fuel ih =>
    have same := read_isReleased reader engine
    unfold gather
    split
    · rename_i failed
      rwa [failed] at same
    · rename_i none
      rw [none] at same
      split <;> exact same
    · rename_i some
      rw [some] at same
      simp only
      split
      · exact same
      · exact (ih _ _ _ _).trans same

theorem page_isReleased (highWaterMark : Nat) (reader : Reader ι) (engine : σ) :
    (reader.page highWaterMark engine).2.1.isReleased = reader.isReleased :=
  gather_isReleased _ _ _ _ _ _

theorem release_isReleased (reader : Reader ι) (engine : σ) :
    (reader.release engine).2.1.isReleased = true := by
  unfold release
  cases reader.pin <;> rfl

/-! A reader keeps what it was made with. -/

/-- What a reader is made with: its window, what it asks of the cache, and its snapshot. -/
def terms (reader : Reader ι) : Window × Bool × Option Sequence :=
  (reader.window, reader.fillCache, reader.pin)

theorem materialize_terms (reader : Reader ι) (engine : σ) :
    (reader.materialize engine).2.1.terms = reader.terms := by
  unfold materialize
  split
  · rfl
  · rfl
  · split <;> rfl

theorem look_terms (reader : Reader ι) (iterator : ι) (engine : σ) :
    (reader.look iterator engine).2.terms = reader.terms := by
  unfold look
  split <;> rfl

theorem read_terms (reader : Reader ι) (engine : σ) :
    (reader.read engine).2.1.terms = reader.terms := by
  have same := materialize_terms reader engine
  unfold read
  split
  · rename_i failed
    rwa [failed] at same
  · rename_i opened
    rw [opened] at same
    split
    · exact (look_terms _ _ _).trans same
    · split
      · exact same
      · exact (look_terms _ _ _).trans same

theorem seek_terms (target : Bytes) (reader : Reader ι) (engine : σ) :
    (reader.seek target engine).2.1.terms = reader.terms := by
  have same := materialize_terms { reader with target := none } engine
  unfold seek
  split
  · rename_i failed
    rwa [failed] at same
  · rename_i opened
    rw [opened] at same
    split
    · exact same
    · simp only
      split <;> exact same

theorem gather_terms (highWaterMark fuel size : Nat) (entries : List Entry) (reader : Reader ι)
    (engine : σ) : (reader.gather highWaterMark fuel size entries engine).2.1.terms = reader.terms := by
  induction fuel generalizing size entries reader engine with
  | zero => rfl
  | succ fuel ih =>
    have same := read_terms reader engine
    unfold gather
    split
    · rename_i failed
      rwa [failed] at same
    · rename_i none
      rw [none] at same
      split <;> exact same
    · rename_i some
      rw [some] at same
      simp only
      split
      · exact same
      · exact (ih _ _ _ _).trans same

end AnyEngine

section Relation

variable {σ ι : Type} [Engine σ ι] {R : σ → σ → Prop} (respects : Engine.Respects R)
  (reader : Reader ι) (engine : σ)

include respects

theorem follow_respects {β : Type} (course : Course β) (iterator : ι) :
    R engine (course.follow iterator engine).2.2 := by
  induction course generalizing iterator engine with
  | arrive result => exact respects.refl engine
  | go move onward ih =>
    have moved := respects.move move iterator engine
    unfold Course.follow
    split
    · rename_i failed
      rwa [failed] at moved
    · rename_i landed
      rw [landed] at moved
      exact respects.trans moved (ih _ _ _)

theorem launch_respects : R engine (reader.launch engine).2 := by
  unfold launch
  split
  · exact respects.refl engine
  · rename_i sequence _
    have began := respects.open reader.fillCache sequence engine
    split
    · rename_i refused
      rwa [refused] at began
    · rename_i iterator _ opened
      rw [opened] at began
      have kept := respects.trans began (follow_respects respects _ reader.window.opening iterator)
      split
      · rename_i arrived
        rwa [arrived] at kept
      · rename_i failed
        rw [failed] at kept
        exact respects.trans kept (respects.close _ _)

theorem materialize_respects : R engine (reader.materialize engine).2.2 := by
  have kept := launch_respects respects reader engine
  unfold materialize
  split
  · exact respects.refl engine
  · exact respects.refl engine
  · split
    · rename_i launched
      rwa [launched] at kept
    · rename_i launched
      rwa [launched] at kept

theorem read_respects : R engine (reader.read engine).2.2 := by
  have kept := materialize_respects respects reader engine
  unfold read
  split
  · rename_i failed
    rwa [failed] at kept
  · rename_i iterator next _ opened
    rw [opened] at kept
    split
    · exact kept
    · have stepped := respects.trans kept (respects.move next.window.direction.step iterator _)
      split
      · rename_i failed
        rwa [failed] at stepped
      · rename_i landed
        rwa [landed] at stepped

theorem seek_respects (target : Bytes) : R engine (reader.seek target engine).2.2 := by
  have kept := materialize_respects respects { reader with target := none } engine
  unfold seek
  split
  · rename_i failed
    rwa [failed] at kept
  · rename_i iterator next _ opened
    rw [opened] at kept
    have moved := respects.trans kept (respects.move (.seek target) iterator _)
    split
    · rename_i failed
      rwa [failed] at moved
    · rename_i landed
      rw [landed] at moved
      simp only
      split
      all_goals
        rename_i followed
        have settled := congrArg (fun result => result.2.2) followed
        exact respects.trans moved (settled ▸ follow_respects respects _ _ _)

theorem gather_respects (highWaterMark fuel size : Nat) (entries : List Entry) :
    R engine (reader.gather highWaterMark fuel size entries engine).2.2 := by
  induction fuel generalizing size entries reader engine with
  | zero => exact respects.refl engine
  | succ fuel ih =>
    have kept := read_respects respects reader engine
    unfold gather
    split
    · rename_i failed
      rwa [failed] at kept
    · rename_i none
      rw [none] at kept
      split <;> exact kept
    · rename_i some
      rw [some] at kept
      simp only
      split
      · exact kept
      · exact respects.trans kept (ih _ _ _ _)

theorem page_respects (highWaterMark : Nat) : R engine (reader.page highWaterMark engine).2.2 :=
  gather_respects respects _ _ _ _ _ _

end Relation

section InMemory

variable (reader : Reader TableWalker) (engine : MemoryEngine)

/-- What an iterator does leaves the engine in memory as it is. -/
theorem memory_respects : Engine.Respects fun before after : MemoryEngine => after = before where
  refl _ := rfl
  trans one two := two.trans one
  «open» _ _ _ := rfl
  move _ _ _ := rfl
  close _ _ := rfl

theorem seek_engine (target : Bytes) : (reader.seek target engine).2.2 = engine :=
  seek_respects memory_respects reader engine target

theorem page_engine (highWaterMark : Nat) : (reader.page highWaterMark engine).2.2 = engine :=
  page_respects memory_respects reader engine highWaterMark

theorem release_engine :
    (reader.release engine).2.2.table = engine.table ∧
      (reader.release engine).2.2.sequence = engine.sequence := by
  unfold release
  cases reader.pin <;> cases reader.handle <;> exact ⟨rfl, rfl⟩

end InMemory

end Reader
end KeyScan
