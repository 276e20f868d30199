import KeyScan.Admission.Handshake
import KeyScan.Proofs.Service.Waiting

namespace KeyScan

def AdmissionReply.grants : AdmissionReply → Bool
  | .verdict .now | .verdict .deferred => true
  | _ => false

def AdmissionCall.brings : AdmissionCall → Bool
  | .requestEnd withWaiter => withWaiter
  | .joinEnd => true
  | _ => false

private theorem AdmissionCall.ne_conclude {call : AdmissionCall} (brings : call.brings = true) :
    call ≠ .conclude := by
  rintro rfl
  cases brings

/-- Whether a reply keeps the waiter that has come with the call. -/
def AdmissionReply.keeps : AdmissionReply → Bool
  | .flag joined => joined
  | reply => reply.grants

namespace Handshake

def follow (calls : List AdmissionCall) (handshake : Handshake) : Handshake :=
  calls.foldl (fun handshake call => (handshake.step call).2) handshake

def replies : List AdmissionCall → Handshake → List AdmissionReply
  | [], _ => []
  | call :: rest, handshake =>
    let (reply, handshake) := handshake.step call
    reply :: replies rest handshake

/-- Those who are told of the end by a call. -/
def told (call : AdmissionCall) (handshake : Handshake) : List Nat :=
  match call with
  | .conclude => handshake.admission.conclude.1
  | _ => []

/-- Those who are told of the end by some calls, once for each time. -/
def news : List AdmissionCall → Handshake → List Nat
  | [], _ => []
  | call :: rest, handshake => handshake.told call ++ news rest (handshake.step call).2

/-- What has become, after some calls, of a waiter that was kept or not. -/
def fateAfter (kept : Bool) (calls : List AdmissionCall) : Fate :=
  if kept then if .conclude ∈ calls then .told else .waiting else .dropped

/-- What can be said of a call after some others have followed it. -/
structure Aftermath (earlier : List AdmissionCall) (call : AdmissionCall)
    (since : List AdmissionCall) : Prop where
  /-- once an end was granted or concluded, nothing is admitted and the phase goes from ending to ended -/
  closed :
    let now := run (earlier ++ call :: since)
    ((run earlier).step call).1.grants = true ∨ call = .conclude →
      now.admission.phase = (if .conclude ∈ call :: since then .ended else .ending) ∧
        (now.step .begin).1 = .refused .ended ∧ (now.step .checkSeek).1 = .refused .ended
  /-- a waiter that is kept waits until an end is concluded, and one that is not kept is dropped -/
  fate : call.brings = true →
    (run (earlier ++ call :: since)).fates[(run earlier).next]? =
      some (fateAfter ((run earlier).step call).1.keeps since)
  /-- it was told once if it was kept and an end has been concluded since, and else never -/
  news : call.brings = true →
    (news (earlier ++ call :: since) {}).count (run earlier).next =
      if ((run earlier).step call).1.keeps = true ∧ .conclude ∈ since then 1 else 0

/-- Nobody waits unless an end is under way, and whoever waits has a number. -/
structure Attended (handshake : Handshake) : Prop where
  attended : handshake.admission.Attended
  numbered : ∀ number ∈ handshake.admission.waiting, number < handshake.next

variable {handshake : Handshake} {number : Nat} {fate : Fate}

theorem run_append (first second : List AdmissionCall) :
    run (first ++ second) = (run first).follow second := List.foldl_append

theorem news_append (first second : List AdmissionCall) (handshake : Handshake) :
    news (first ++ second) handshake =
      news first handshake ++ news second (handshake.follow first) := by
  induction first generalizing handshake with
  | nil => rfl
  | cons call rest ih => simp only [List.cons_append, news, ih, List.append_assoc, follow, List.foldl_cons]

private theorem follow_kept {P : Handshake → Prop} (calls : List AdmissionCall)
    (step : ∀ handshake call, P handshake → P (handshake.step call).2) (holds : P handshake) :
    P (handshake.follow calls) := by
  induction calls generalizing handshake with
  | nil => exact holds
  | cons call rest ih => exact ih (step handshake call holds)

private theorem getElem?_tell (numbers : List Nat) (fates : List Fate) (number : Nat) :
    (tell numbers fates)[number]? =
      fates[number]?.map fun fate => if number ∈ numbers then .told else fate := List.getElem?_mapIdx

private theorem told_of_other {call : AdmissionCall} (other : call ≠ .conclude) :
    handshake.told call = [] := by
  cases call <;> first | rfl | exact absurd rfl other

/-! What a call makes of waiters. -/

/-- A call that concludes nothing adds the waiter that it keeps to those who wait, and the fate of the one
that has come with it to the fates. -/
theorem step_other {call : AdmissionCall} (other : call ≠ .conclude) :
    (handshake.step call).2.admission.waiting = handshake.admission.waiting ++
        (if call.brings ∧ (handshake.step call).1.keeps then [handshake.next] else []) ∧
      (handshake.step call).2.fates = handshake.fates ++
        if call.brings then [fateAfter (handshake.step call).1.keeps []] else [] := by
  obtain ⟨⟨phase, waiting⟩, fates⟩ := handshake
  cases call with
  | conclude => exact absurd rfl other
  | begin => cases phase <;> simp [step, Admission.begin, AdmissionCall.brings]
  | checkSeek => cases phase <;> simp [step, Admission.checkSeek, AdmissionCall.brings]
  | finish => cases phase <;> simp [step, Admission.finish, AdmissionCall.brings]
  | joinEnd =>
    cases phase <;>
      simp [step, Admission.joinEnd, AdmissionCall.brings, AdmissionReply.keeps, fateAfter]
  | requestEnd withWaiter =>
    cases phase <;> cases withWaiter <;>
      simp [step, Admission.requestEnd, AdmissionCall.brings, AdmissionReply.keeps, AdmissionReply.grants,
        fateAfter]

private theorem step_admission (call : AdmissionCall) :
    (handshake.step call).2.admission = handshake.admission ∨
      handshake.admission.Step (handshake.step call).2.admission := by
  cases call with
  | begin =>
    unfold step
    cases begun : handshake.admission.begin with
    | ok admission => exact .inr (.begin begun)
    | error failure => exact .inl rfl
  | checkSeek =>
    unfold step
    cases checked : handshake.admission.checkSeek <;> exact .inl rfl
  | finish => exact .inr .finish
  | requestEnd withWaiter => exact .inr (.requestEnd _)
  | joinEnd => exact .inr (.joinEnd _)
  | conclude => exact .inr .conclude

theorem attended_fresh : Attended {} :=
  ⟨fun someone => absurd rfl someone, fun _ member => nomatch member⟩

theorem Attended.step (attended : handshake.Attended) (call : AdmissionCall) :
    (handshake.step call).2.Attended := by
  refine ⟨?_, ?_⟩
  · rcases handshake.step_admission call with same | step
    · exact same ▸ attended.attended
    · exact attended.attended.step step
  · by_cases concludes : call = .conclude
    · subst concludes
      exact fun _ member => nomatch member
    · obtain ⟨waiting, fates⟩ := handshake.step_other concludes
      intro number member
      rw [waiting] at member
      rw [next, fates, List.length_append]
      rcases List.mem_append.mp member with old | new
      · exact Nat.lt_of_lt_of_le (attended.numbered number old) (Nat.le_add_right _ _)
      · split at new
        · rename_i kept
          rw [List.mem_singleton.mp new, if_pos kept.1]
          exact Nat.lt_succ_self _
        · cases new

/-- A waiter has a fate, and its number is among those who wait exactly if it waits. -/
structure Bears (handshake : Handshake) (number : Nat) (fate : Fate) : Prop where
  shown : handshake.fates[number]? = some fate
  waits : handshake.admission.waiting.count number = if fate = .waiting then 1 else 0

/-- A waiter that waits is told by the call that concludes an end, and no other call concerns a waiter. -/
theorem Bears.step (bears : handshake.Bears number fate) (call : AdmissionCall) :
    (handshake.step call).2.Bears number
        (if call = .conclude ∧ fate = .waiting then .told else fate) ∧
      (handshake.told call).count number = if call = .conclude ∧ fate = .waiting then 1 else 0 := by
  obtain ⟨shown, waits⟩ := bears
  by_cases concludes : call = .conclude
  · subst concludes
    have among : number ∈ handshake.admission.waiting ↔ fate = .waiting := by
      rw [← List.count_pos_iff, waits]
      split <;> simp_all
    refine ⟨⟨?_, ?_⟩, ?_⟩
    · change (tell handshake.admission.waiting handshake.fates)[number]? = _
      simp [getElem?_tell, shown, among]
    · simp only [Handshake.step, Admission.conclude, List.count_nil, true_and]
      split <;> simp_all
    · simpa [told, Admission.conclude] using waits
  · obtain ⟨waiting, fates⟩ := handshake.step_other concludes
    have apart : handshake.next ≠ number := by
      have known := (List.getElem?_eq_some_iff.mp shown).1
      exact (Nat.ne_of_lt known).symm
    refine ⟨⟨?_, ?_⟩, ?_⟩
    · rw [fates, List.getElem?_append_left (List.getElem?_eq_some_iff.mp shown).1]
      simpa [concludes] using shown
    · rw [waiting, List.count_append, waits]
      split <;> split <;> simp_all
    · simp [told_of_other concludes, concludes]

theorem Bears.follow (bears : handshake.Bears number fate) (calls : List AdmissionCall) :
    (handshake.follow calls).Bears number
        (if .conclude ∈ calls ∧ fate = .waiting then .told else fate) ∧
      (handshake.news calls).count number = if .conclude ∈ calls ∧ fate = .waiting then 1 else 0 := by
  induction calls generalizing handshake fate with
  | nil => simpa [Handshake.follow, Handshake.news] using bears
  | cons call rest ih =>
    obtain ⟨next, once⟩ := bears.step call
    obtain ⟨last, others⟩ := ih next
    rw [Handshake.news, List.count_append, once, others]
    simp only [Handshake.follow, List.foldl_cons, List.mem_cons, eq_comm (b := call)] at last ⊢
    by_cases concludes : call = .conclude <;> by_cases waits : fate = .waiting <;> simp_all

theorem Attended.bears (attended : handshake.Attended) {call : AdmissionCall} (brings : call.brings = true) :
    (handshake.step call).2.Bears handshake.next (fateAfter (handshake.step call).1.keeps []) := by
  have other := AdmissionCall.ne_conclude brings
  obtain ⟨waiting, fates⟩ := handshake.step_other other
  have new : handshake.admission.waiting.count handshake.next = 0 :=
    List.count_eq_zero.mpr fun member => Nat.lt_irrefl _ (attended.numbered _ member)
  refine ⟨?_, ?_⟩
  · simp [fates, brings, next]
  · rw [waiting, List.count_append, new]
    cases (handshake.step call).1.keeps <;> simp [brings, fateAfter]

/-- Later calls tell a waiter that was kept once, when one of them first concludes an end, and one that was
not kept never. -/
theorem Attended.bears_after (attended : handshake.Attended) {call : AdmissionCall}
    (brings : call.brings = true) (since : List AdmissionCall) :
    ((handshake.step call).2.follow since).Bears handshake.next
        (fateAfter (handshake.step call).1.keeps since) ∧
      ((handshake.step call).2.news since).count handshake.next =
        if (handshake.step call).1.keeps = true ∧ .conclude ∈ since then 1 else 0 := by
  obtain ⟨bears, once⟩ := (attended.bears brings).follow since
  cases keeps : (handshake.step call).1.keeps <;> simp_all [fateAfter]

private theorem next_le_step (handshake : Handshake) (call : AdmissionCall) :
    handshake.next ≤ (handshake.step call).2.next := by
  by_cases concludes : call = .conclude
  · subst concludes
    exact Nat.le_of_eq List.length_mapIdx.symm
  · rw [next, next, (handshake.step_other concludes).2, List.length_append]
    exact Nat.le_add_right _ _

theorem Attended.lt_next_of_news (attended : handshake.Attended) (calls : List AdmissionCall) :
    ∀ number ∈ handshake.news calls, number < (handshake.follow calls).next := by
  induction calls generalizing handshake with
  | nil => exact fun _ member => nomatch member
  | cons call rest ih =>
    intro number member
    rcases List.mem_append.mp member with first | later
    · have onward : handshake.next ≤ (handshake.follow (call :: rest)).next :=
        follow_kept (P := fun after => handshake.next ≤ after.next) (call :: rest)
          (fun after call less => Nat.le_trans less (after.next_le_step call)) (Nat.le_refl _)
      have waits : number ∈ handshake.admission.waiting := by
        by_cases concludes : call = .conclude
        · subst concludes
          exact first
        · rw [told_of_other concludes] at first
          cases first
      exact Nat.lt_of_lt_of_le (attended.numbered number waits) onward
    · exact ih (attended.step call) number later

/-! What a call makes of admission. -/

/-- An end is under way or over. -/
def Closed (handshake : Handshake) : Prop :=
  handshake.admission.phase = .ending ∨ handshake.admission.phase = .ended

private theorem phase_of_granted {call : AdmissionCall}
    (final : (handshake.step call).1.grants = true ∨ call = .conclude) :
    (handshake.step call).2.admission.phase = if call = .conclude then .ended else .ending := by
  obtain ⟨⟨phase, waiting⟩, fates⟩ := handshake
  cases call <;> cases phase <;>
    simp_all [step, Admission.begin, Admission.checkSeek, Admission.finish, Admission.requestEnd,
      Admission.joinEnd, Admission.conclude, AdmissionReply.grants]

theorem closed_of_granted {call : AdmissionCall}
    (final : (handshake.step call).1.grants = true ∨ call = .conclude) :
    (handshake.step call).2.Closed := by
  unfold Closed
  rw [phase_of_granted final]
  split
  · exact .inr rfl
  · exact .inl rfl

/-- Once an end is under way nothing is admitted, no end is granted, and only a conclusion changes the
phase. -/
theorem Closed.step (closed : handshake.Closed) (call : AdmissionCall) :
    (handshake.step call).2.admission.phase =
        (if call = .conclude then .ended else handshake.admission.phase) ∧
      (handshake.step call).1.grants = false ∧
      (call = .begin ∨ call = .checkSeek → (handshake.step call).1 = .refused .ended) := by
  obtain ⟨⟨phase, waiting⟩, fates⟩ := handshake
  cases call <;> cases phase <;>
    simp_all [Closed, Handshake.step, Admission.begin, Admission.checkSeek,
      Admission.finish, Admission.requestEnd, Admission.joinEnd, Admission.conclude, AdmissionReply.grants]

theorem Closed.follow (closed : handshake.Closed) (calls : List AdmissionCall) :
    (handshake.follow calls).Closed ∧ (handshake.follow calls).admission.phase =
      if .conclude ∈ calls then .ended else handshake.admission.phase := by
  induction calls generalizing handshake with
  | nil => exact ⟨closed, rfl⟩
  | cons call rest ih =>
    have phase := (closed.step call).1
    have still : (handshake.step call).2.Closed := by
      unfold Closed
      rw [phase]
      split
      · exact .inr rfl
      · exact closed
    obtain ⟨last, later⟩ := ih still
    refine ⟨last, ?_⟩
    simp only [Handshake.follow, List.foldl_cons, List.mem_cons, eq_comm (b := call)] at later ⊢
    rw [later, phase]
    by_cases concludes : call = .conclude <;> simp [concludes]

private theorem Closed.grants_nothing (closed : handshake.Closed) (calls : List AdmissionCall) :
    (handshake.replies calls).countP AdmissionReply.grants = 0 := by
  induction calls generalizing handshake with
  | nil => rfl
  | cons call rest ih =>
    have still := (closed.follow [call]).1
    have nothing := (closed.step call).2.1
    rw [replies, List.countP_cons_of_neg (by simp [nothing])]
    exact ih still

/-- An end is granted at most once. -/
theorem grants_once (calls : List AdmissionCall) (handshake : Handshake) :
    (handshake.replies calls).countP AdmissionReply.grants ≤ 1 := by
  induction calls generalizing handshake with
  | nil => exact Nat.zero_le _
  | cons call rest ih =>
    rw [replies, List.countP_cons]
    cases grants : (handshake.step call).1.grants with
    | false => simpa using ih _
    | true => simp [(closed_of_granted (.inl grants)).grants_nothing]

/-- Whatever calls are made of a fresh admission and in whatever order: an end is granted at most once,
waiters are kept only while an end is under way, and each call has its aftermath, also while the calls
after it go on. -/
theorem run_gives_notice (calls : List AdmissionCall) :
    (replies calls {}).countP AdmissionReply.grants ≤ 1 ∧
      ((run calls).admission.waiting ≠ [] → (run calls).admission.phase = .ending) ∧
      ∀ earlier call since, calls = earlier ++ call :: since → Aftermath earlier call since := by
  have attends (calls : List AdmissionCall) : (run calls).Attended :=
    follow_kept calls (fun _ call attended => attended.step call) attended_fresh
  refine ⟨grants_once calls {}, (attends calls).attended, ?_⟩
  rintro earlier call since -
  have now : run (earlier ++ call :: since) = ((run earlier).step call).2.follow since :=
    run_append earlier (call :: since)
  refine ⟨?_, ?_, ?_⟩
  · simp only [now]
    intro final
    obtain ⟨closed, phase⟩ := (closed_of_granted final).follow since
    refine ⟨?_, (closed.step .begin).2.2 (.inl rfl), (closed.step .checkSeek).2.2 (.inr rfl)⟩
    rw [phase, phase_of_granted final]
    simp only [List.mem_cons, eq_comm (b := call)]
    by_cases concludes : call = .conclude <;> simp [concludes]
  · intro brings
    rw [now]
    exact ((attends earlier).bears_after brings since).1.shown
  · intro brings
    have unmet : (news earlier {}).count (run earlier).next = 0 :=
      List.count_eq_zero.mpr fun member =>
        Nat.lt_irrefl _ (attended_fresh.lt_next_of_news earlier _ member)
    rw [news_append, List.count_append, unmet, Nat.zero_add, news,
      told_of_other (AdmissionCall.ne_conclude brings), List.nil_append]
    exact ((attends earlier).bears_after brings since).2

/-- The end waits for an advance, and is concluded twice. -/
example :
    let calls : List AdmissionCall :=
      [.joinEnd, .begin, .requestEnd true, .joinEnd, .requestEnd true, .finish, .conclude, .joinEnd,
        .conclude]
    (run calls).fates = [.dropped, .told, .told, .dropped, .dropped] ∧ news calls {} = [1, 2] := by
  decide

end Handshake
end KeyScan
