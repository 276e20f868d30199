import KeyScan.Proofs.Traffic.Turns
import KeyScan.Proofs.Window.Selection

namespace KeyScan

def Action.denied : Action → Reply
  | .seek _ | .advance _ => .failed .ended
  | .endNow | .endLater => .ended false

namespace Traffic

variable {σ ι : Type} [Engine σ ι] {traffic : Traffic σ ι} {past : List Event} {id : ScanId}

/-- A call is answered as soon as it is made, and nothing changes but the number of calls. -/
def AnswersAtOnce (request : Request) (reply : Reply) (traffic : Traffic σ ι) : Prop :=
  traffic.start request =
    ([.called traffic.calls request, .answered traffic.calls reply],
      { traffic with calls := traffic.calls + 1 })

/-- How calls find their scans, given the events so far. -/
structure Dispatches (past : List Event) (traffic : Traffic σ ι) : Prop where
  consecutive : (createdIds past).map UInt32.toNat = List.range' 1 (createdIds past).length
  /-- each of them is the id of one scan -/
  keyed : traffic.service.scans.map Prod.fst = createdIds past ∧ (createdIds past).Nodup
  zero : 0 ∉ createdIds past
  /-- a scan that can be created gets the next id, as long as there is one -/
  accepted : ∀ options window, Window.ofOptions options = .ok window →
    (createdIds past).length + 1 < 2 ^ 32 → ∃ id, id.toNat = (createdIds past).length + 1 ∧
      (traffic.start (.create options)).1 =
        [.called traffic.calls (.create options), .answered traffic.calls (.created id)]
  /-- a scan that cannot be created costs nothing -/
  rejected : ∀ options failure, Window.ofOptions options = .error failure →
    failure.report.code = .invalidArgument ∧
      traffic.AnswersAtOnce (.create options) (.failed failure)
  /-- the live ids are those that were given out and not withdrawn -/
  live : traffic.service.roster.live =
    (createdIds past).filter fun id => .withdrawn ∉ milestones id past
  /-- a scan is withdrawn exactly if it has ended, or a task has only to conclude its end -/
  withdrawn : ∀ id, .withdrawn ∈ milestones id past ↔ traffic.service.phase? id = some .ended ∨
    ∃ task ∈ traffic.tasks, task.id = id ∧ ∃ ending, task.stage = .conclude ending
  unknown : ∀ id ∉ createdIds past,
    (Failure.unknownScan id).report.code = .invalidArgument ∧
      traffic.service.lookUp id = .error (.unknownScan id) ∧
      ∀ action, traffic.AnswersAtOnce (.scan .roster id action) (.failed (.unknownScan id))
  /-- an id that was withdrawn is that of a scan that has ended -/
  ended : ∀ id, .withdrawn ∈ milestones id past →
    Failure.ended.report.code = .alreadyEnded ∧
      traffic.service.lookUp id = .error .ended ∧
      ∀ action, traffic.AnswersAtOnce (.scan .roster id action) action.denied
  found : ∀ id ∈ createdIds past, .withdrawn ∉ milestones id past →
    traffic.service.lookUp id = .ok () ∧ ∃ scan, traffic.service.scan? id = some scan

/-- A call on an id that is not live is turned away, and nothing else happens. -/
theorem start_turnedAway {failure : Failure} (missed : traffic.service.lookUp id = .error failure)
    (action : Action) :
    traffic.AnswersAtOnce (.scan .roster id action) (turnedAway action failure) := by
  simp only [AnswersAtOnce, start, startRequest, missed, answer]

omit [Engine σ ι] in
theorem Sound.created_iff (sound : traffic.Sound past) :
    id ∈ createdIds past ↔ traffic.service.condition? id ≠ none := by
  have known := sound.catalogued.scan?_eq_none_iff id
  unfold Service.condition?
  rw [Ne, Option.map_eq_none_iff, known, Decidable.not_not]

omit [Engine σ ι] in
theorem Sound.created_of_milestone {milestone : Milestone} (sound : traffic.Sound past)
    (passed : milestone ∈ milestones id past) : id ∈ createdIds past := by
  have life := (sound.regular.orderly id).life
  rw [sound.created_iff]
  intro unknown
  rw [unknown] at life
  exact life.nothing_of_unknown passed

omit [Engine σ ι] in
/-- An id is live exactly if it was given out and not withdrawn. -/
theorem Sound.isLive_iff (sound : traffic.Sound past) (id : ScanId) :
    traffic.service.roster.isLive id = true ↔
      id ∈ createdIds past ∧ .withdrawn ∉ milestones id past := by
  constructor
  · intro live
    have created := sound.catalogued.rostered id live
    refine ⟨created, ?_⟩
    obtain ⟨condition, known⟩ := Option.ne_none_iff_exists'.mp (sound.created_iff.mp created)
    obtain ⟨scan, found, -, -, same⟩ := Service.scan_of_condition known
    have life := (sound.regular.orderly id).life
    rw [known] at life
    exact life.live_iff.mp (same ▸ live)
  · rintro ⟨created, here⟩
    obtain ⟨condition, known⟩ := Option.ne_none_iff_exists'.mp (sound.created_iff.mp created)
    obtain ⟨scan, found, -, -, same⟩ := Service.scan_of_condition known
    have life := (sound.regular.orderly id).life
    rw [known] at life
    exact same.trans (life.live_iff.mpr here)

omit [Engine σ ι] in
theorem Sound.live_eq (sound : traffic.Sound past) :
    traffic.service.roster.live = (createdIds past).filter fun id => .withdrawn ∉ milestones id past := by
  have ascending : (createdIds past).Pairwise (· < ·) := by
    refine List.Pairwise.of_map UInt32.toNat (fun _ _ less => UInt32.lt_iff_toNat_lt.mpr less) ?_
    rw [sound.catalogued.consecutive]
    exact List.pairwise_lt_range'
  have apart {ids : List ScanId} (ordered : ids.Pairwise (· < ·)) : ids.Nodup :=
    ordered.imp fun less => Std.ne_of_lt less
  have listed := traffic.service.roster.ascending
  have remaining := ascending.filter fun id => decide (.withdrawn ∉ milestones id past)
  have asymmetric (a b : ScanId) (less : a < b) (more : b < a) : a = b :=
    absurd more (UInt32.lt_asymm less)
  refine List.Perm.eq_of_pairwise (fun a b _ _ => asymmetric a b) listed remaining ?_
  refine (List.perm_ext_iff_of_nodup (apart listed) (apart remaining)).mpr fun id => ?_
  rw [List.mem_filter, decide_eq_true_eq, ← sound.isLive_iff, Roster.isLive, List.contains_iff_mem]

omit [Engine σ ι] in
theorem Sound.lookUp_eq (sound : traffic.Sound past) (id : ScanId) :
    traffic.service.lookUp id =
      if id ∈ createdIds past then
        if .withdrawn ∈ milestones id past then .error .ended else .ok ()
      else .error (.unknownScan id) := by
  have live := sound.isLive_iff id
  have issued := sound.catalogued.wasIssued_iff id
  unfold Service.lookUp
  by_cases created : id ∈ createdIds past
  · by_cases gone : .withdrawn ∈ milestones id past <;> simp_all
  · simp_all

omit [Engine σ ι] in
/-- A scan is withdrawn exactly if it has ended, or a task has only to conclude its end. -/
theorem Sound.withdrawn_iff (sound : traffic.Sound past) (id : ScanId) :
    .withdrawn ∈ milestones id past ↔ traffic.service.phase? id = some .ended ∨
      ∃ task ∈ traffic.tasks, task.id = id ∧ ∃ ending, task.stage = .conclude ending := by
  rw [(sound.regular.orderly id).life.withdrawn_iff, Service.phase?_eq_condition]
  refine or_congr_right ?_
  unfold duties
  rw [List.mem_filterMap]
  refine exists_congr fun task => and_congr_right fun _ => ?_
  unfold Task.duty?
  by_cases own : task.id = id
  · rw [if_pos own]
    cases stage : task.stage <;> simp [Stage.duty?, own]
  · simp [own]

theorem Sound.dispatches (sound : traffic.Sound past) : traffic.Dispatches past where
  consecutive := sound.catalogued.consecutive
  keyed := ⟨sound.catalogued.keyed, sound.catalogued.nodup⟩
  zero given := by
    have issued := (sound.catalogued.wasIssued_iff 0).mpr given
    cases issued
  accepted options window accepted room := by
    obtain ⟨id, after, opened⟩ := Service.create_accepted traffic.service accepted
    exact ⟨id, sound.catalogued.toNat_create room opened, congrArg Prod.fst (start_created opened)⟩
  rejected _ _ refused := ⟨Window.ofOptions_error refused, start_refused refused⟩
  live := sound.live_eq
  withdrawn := sound.withdrawn_iff
  unknown id new := by
    have missed : traffic.service.lookUp id = .error (.unknownScan id) := by
      rw [sound.lookUp_eq, if_neg new]
    refine ⟨rfl, missed, fun action => ?_⟩
    have away := start_turnedAway missed action
    cases action <;> exact away
  ended id gone := by
    have missed : traffic.service.lookUp id = .error .ended := by
      rw [sound.lookUp_eq, if_pos (sound.created_of_milestone gone), if_pos gone]
    refine ⟨rfl, missed, fun action => ?_⟩
    have away := start_turnedAway missed action
    cases action <;> exact away
  found id created here := by
    refine ⟨by rw [sound.lookUp_eq, if_pos created, if_neg here], ?_⟩
    have known := (sound.catalogued.scan?_eq_none_iff id).not.mpr (not_not_intro created)
    exact Option.ne_none_iff_exists'.mp known

/-- On a fresh service, after whatever calls and sections in whatever order, and whatever becomes of the
engine in between: ids count up from one, what is live is known by its id, and every other id is known
to have ended or never to have been given out. Ids are 32-bit words, so fewer creations are assumed
than there are ids. -/
theorem turns_dispatch (workers : Nat) (engine : σ) (turns : List (Turn σ))
    (few : (createdIds (Traffic.turns turns { service := { workers, engine } }).1).length < 2 ^ 32) :
    let run := Traffic.turns turns { service := { workers, engine } }
    run.2.Dispatches run.1 := by
  have sound := turns_sound turns (sound_fresh workers engine) (by simpa using few)
  rw [List.nil_append] at sound
  exact sound.dispatches

/-- An end that waits for an advance leaves the id known until it is carried out; a refused creation
spends no id. -/
theorem turns_dispatch_of_deferred :
    let turns : List (Turn MemoryEngine) :=
      [.act (.call (.create {})), .act (.call (.create { lt := some [1], lte := some [1] })),
        .outside fun engine => engine.put [1] [1], .act (.call (.create {})),
        .act (.call (.scan .roster 1 (.advance .pooled))), .act (.call (.scan .roster 1 .endNow)),
        .act (.run 0), .act (.run 0), .act (.run 0), .act (.run 0), .act (.run 0)]
    let run := Traffic.turns turns { service := { workers := 4, engine := MemoryEngine.empty } }
    (createdIds run.1).length < 2 ^ 32 ∧ run.2.Dispatches run.1 ∧ createdIds run.1 = [1, 2] ∧
      run.2.service.roster.live = [2] ∧ .withdrawn ∈ milestones 1 run.1 ∧
      run.2.AnswersAtOnce (.scan .roster 1 (.advance .waiting)) (.failed .ended) := by
  intro turns run
  have few : (createdIds run.1).length < 2 ^ 32 := by decide
  have dispatches : run.2.Dispatches run.1 := turns_dispatch 4 MemoryEngine.empty turns few
  have gone : .withdrawn ∈ milestones 1 run.1 := by decide
  exact ⟨few, dispatches, by decide, by decide, gone, (dispatches.ended 1 gone).2.2 (.advance .waiting)⟩

end Traffic
end KeyScan
