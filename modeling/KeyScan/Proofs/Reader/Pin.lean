import KeyScan.Proofs.Reader.Frame

namespace KeyScan

namespace Reader

variable {σ ι : Type} [Engine σ ι]

/-- A reader has a snapshot unless it is released. -/
def Pinned (reader : Reader ι) : Prop := reader.pin.isSome = !reader.isReleased

section Pin

variable (reader : Reader ι) (engine : σ)

theorem look_pin (iterator : ι) :
    (reader.look iterator engine).2.pin = reader.pin :=
  congrArg (·.2.2) (look_terms reader iterator engine)

theorem read_pin : (reader.read engine).2.1.pin = reader.pin :=
  congrArg (·.2.2) (read_terms reader engine)

theorem seek_pin (target : Bytes) : (reader.seek target engine).2.1.pin = reader.pin :=
  congrArg (·.2.2) (seek_terms target reader engine)

theorem page_pin (highWaterMark : Nat) : (reader.page highWaterMark engine).2.1.pin = reader.pin :=
  congrArg (·.2.2) (gather_terms _ _ _ _ reader engine)

theorem release_pin : (reader.release engine).2.1.pin = none := by
  unfold release
  cases reader.pin <;> rfl

variable {reader}

theorem Pinned.seek (pinned : reader.Pinned) (target : Bytes) :
    (reader.seek target engine).2.1.Pinned := by
  unfold Pinned
  rw [seek_pin, seek_isReleased]
  exact pinned

theorem Pinned.page (pinned : reader.Pinned) (highWaterMark : Nat) :
    (reader.page highWaterMark engine).2.1.Pinned := by
  unfold Pinned
  rw [page_pin, page_isReleased]
  exact pinned

theorem pinned_release (reader : Reader ι) : (reader.release engine).2.1.Pinned := by
  unfold Pinned
  rw [release_pin, release_isReleased]
  rfl

end Pin

/-! A held reader fails only where its engine does. -/

section Failures

variable {reader next : Reader ι} {engine after : σ} {failure : Failure}

theorem launch_error (held : reader.pin.isSome = true)
    (failed : reader.launch engine = (.error failure, after)) :
    ∃ report, failure = .engine report := by
  unfold launch at failed
  split at failed
  · rename_i missing
    rw [missing] at held
    cases held
  · split at failed
    · cases failed
      exact ⟨_, rfl⟩
    · split at failed <;> cases failed
      exact ⟨_, rfl⟩

theorem materialize_error (pinned : reader.Pinned) (held : reader.isReleased = false)
    (failed : reader.materialize engine = (.error failure, next, after)) :
    ∃ report, failure = .engine report := by
  unfold materialize at failed
  split at failed
  · cases failed
  · rename_i released
    simp [isReleased, released] at held
  · split at failed
    · rename_i launched
      cases failed
      refine launch_error ?_ launched
      rw [pinned, held]
      rfl
    · cases failed

theorem read_error (pinned : reader.Pinned) (held : reader.isReleased = false)
    (failed : reader.read engine = (.error failure, next, after)) :
    ∃ report, failure = .engine report := by
  unfold read at failed
  split at failed
  · rename_i refused
    cases failed
    exact materialize_error pinned held refused
  · split at failed
    · cases failed
    · split at failed <;> cases failed
      exact ⟨_, rfl⟩

theorem seek_error {target : Bytes} (pinned : reader.Pinned) (held : reader.isReleased = false)
    (failed : reader.seek target engine = (.error failure, next, after)) :
    ∃ report, failure = .engine report := by
  unfold seek at failed
  split at failed
  · rename_i refused
    cases failed
    have same : ({ reader with target := none } : Reader ι).Pinned := pinned
    exact materialize_error same held refused
  · split at failed
    · cases failed
      exact ⟨_, rfl⟩
    · simp only at failed
      split at failed <;> cases failed
      exact ⟨_, rfl⟩

theorem gather_error {highWaterMark fuel size : Nat} {entries : List Entry}
    (pinned : reader.Pinned) (held : reader.isReleased = false)
    (failed : reader.gather highWaterMark fuel size entries engine = (.error failure, next, after)) :
    ∃ report, failure = .engine report := by
  induction fuel generalizing size entries reader engine with
  | zero => cases failed
  | succ fuel ih =>
    have pin := read_pin reader engine
    have still := read_isReleased reader engine
    unfold gather at failed
    split at failed
    · rename_i refused
      cases failed
      exact read_error pinned held refused
    · split at failed <;> cases failed
      exact ⟨_, rfl⟩
    · rename_i read
      rw [read] at pin still
      simp only at failed
      split at failed
      · cases failed
      · rename_i next _ _
        have kept : ({ next with landed := true } : Reader ι).Pinned := by
          change next.pin.isSome = !next.isReleased
          rw [pin, still]
          exact pinned
        exact ih kept (still.trans held) failed

theorem page_error {highWaterMark : Nat} (pinned : reader.Pinned) (held : reader.isReleased = false)
    (failed : reader.page highWaterMark engine = (.error failure, next, after)) :
    ∃ report, failure = .engine report :=
  gather_error pinned held failed

end Failures

end Reader
end KeyScan
