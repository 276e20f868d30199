import Mathlib.Data.List.Nodup
import KeyScan.Proofs.Service.Attending
import KeyScan.Proofs.Traffic.Reading
import KeyScan.Traffic.Caller

/-! A round of pages from the pool. All of them are asked for before the first one is waited for, and however
the workers are scheduled, each scan gives the page that it would give to a caller of its own. -/
namespace KeyScan.Traffic

/-- A page that was asked for: of which scan, what the scan had before it, and under which number. -/
structure Read where
  id : ScanId
  outlook : Outlook
  call : Nat

namespace Read

def ticket (read : Read) : ScanId × Nat := (read.id, read.call)

def scan (read : Read) : ScanId × Outlook := (read.id, read.outlook)

end Read

/-- A scan with what it has before it after one more page. -/
def turned (mark : Nat) (scan : ScanId × Outlook) : ScanId × Outlook := (scan.1, (scan.2.page mark).2)

/-- The page that a scan reads next. -/
def upcoming (mark : Nat) (scan : ScanId × Outlook) : Page := (scan.2.page mark).1

/-- The only calls in traffic are reads on the pool, each on a scan of its own, and other scans are idle. -/
structure Pooled (writes : List MemoryEngine.Write) (created mark : Nat) (reads : List Read)
    (idle : List (ScanId × Outlook)) (past : List Event)
    (traffic : Traffic MemoryEngine TableWalker) : Prop where
  minds : traffic.service.Minds writes created (reads.map Read.id ++ idle.map Prod.fst)
  unclosed : traffic.closings = []
  numbered : (reads.map Read.call).Nodup
  given : ∀ read ∈ reads, read.call < traffic.calls
  silent : ∀ call, traffic.calls ≤ call → reply? call past = none
  underway : ∀ read ∈ reads,
    traffic.Underway read.call read.id mark read.outlook (.advance .pooled) past
  rests : ∀ scan ∈ idle, traffic.Poised scan.1 .idle mark scan.2 []
  owned : ∀ task ∈ traffic.tasks, task.id ∈ reads.map Read.id

variable {traffic : Traffic MemoryEngine TableWalker} {writes : List MemoryEngine.Write}
  {created mark : Nat} {reads : List Read} {idle scans : List (ScanId × Outlook)}
  {past : List Event} {read other : Read}

theorem pooled_of_attends (attends : traffic.service.Attends writes created mark idle)
    (quiet : traffic.isQuiet = true) : traffic.Pooled writes created mark [] idle [] := by
  obtain ⟨tasks, closings⟩ : traffic.tasks = [] ∧ traffic.closings = [] := by simpa [isQuiet] using quiet
  refine ⟨attends.toMinds, closings, List.nodup_nil, List.forall_mem_nil _, fun _ _ => rfl,
    List.forall_mem_nil _, fun scan member => ⟨attends.serves scan member, by rw [tasks]; rfl⟩, ?_⟩
  rw [tasks]
  exact List.forall_mem_nil _

namespace Pooled

private theorem eq_of_id (pooled : traffic.Pooled writes created mark reads idle past)
    (member : read ∈ reads) (member' : other ∈ reads) (same : other.id = read.id) : other = read :=
  List.inj_on_of_nodup_map (List.nodup_append.mp pooled.minds.distinct).1 member' member same

private theorem eq_of_call (pooled : traffic.Pooled writes created mark reads idle past)
    (member : read ∈ reads) (member' : other ∈ reads) (same : other.call = read.call) : other = read :=
  List.inj_on_of_nodup_map pooled.numbered member' member same

private theorem idle_ne (pooled : traffic.Pooled writes created mark reads idle past)
    (member : read ∈ reads)
    {scan : ScanId × Outlook} (rests : scan ∈ idle) : scan.1 ≠ read.id := fun same =>
  (List.nodup_append.mp pooled.minds.distinct).2.2 read.id (List.mem_map_of_mem member) scan.1
    (List.mem_map_of_mem rests) same.symm

/-- A section of a task takes one read on and leaves the others where they are. -/
theorem run (pooled : traffic.Pooled writes created mark reads idle past) (place : Nat) :
    (traffic.runTask place).2.Pooled writes created mark reads idle
      (past ++ (traffic.runTask place).1) := by
  cases found : traffic.tasks[place]? with
  | none =>
    have same : traffic.runTask place = ([], traffic) := by simp [runTask, found]
    rw [same, List.append_nil]
    exact pooled
  | some task =>
    obtain ⟨read, member, own⟩ := List.mem_map.mp (pooled.owned task (List.mem_of_getElem? found))
    obtain ⟨-, service, -⟩ := runTask_of_task found
    obtain ⟨closings, calls⟩ := runTask_rest place traffic
    obtain ⟨further, mute⟩ := (pooled.underway read member).run found own.symm
    have within : traffic.service.Within task.id (traffic.runTask place).2.service :=
      service ▸ (Service.within_respected task.id).run task.call task.stage traffic.service
    have known : task.id ∈ reads.map Read.id ++ idle.map Prod.fst :=
      List.mem_append_left _ (own ▸ List.mem_map_of_mem member)
    refine ⟨pooled.minds.within known within, ?_, pooled.numbered, calls ▸ pooled.given, ?_, ?_, ?_, ?_⟩
    · rw [pooled.unclosed] at closings
      exact List.map_eq_nil_iff.mp closings
    · intro call fresh
      rw [calls] at fresh
      have later : call ≠ read.call := by
        have given := pooled.given read member
        omega
      rw [reply?_append, pooled.silent call fresh, mute call later, Option.or_none]
    · intro other listed
      by_cases same : other.id = read.id
      · rw [pooled.eq_of_id member listed same]
        exact further
      · have apart : other.call ≠ read.call := fun called =>
          same (congrArg Read.id (pooled.eq_of_call member listed called))
        exact (pooled.underway other listed).aside (runTask_aside found (own ▸ Ne.symm same))
          within.1.2.extends (mute other.call apart)
    · intro scan rests
      exact (pooled.rests scan rests).aside (runTask_aside found (own ▸ Ne.symm (pooled.idle_ne member rests)))
        within.1.2.extends
    · intro next present
      rcases mem_of_runTask found present with old | rest
      · exact pooled.owned next old
      · rw [Task.run_id rest]
        exact pooled.owned task (List.mem_of_getElem? found)

theorem runs (pooled : traffic.Pooled writes created mark reads idle past) (places : List Nat) :
    (traffic.acts (places.map .run)).2.Pooled writes created mark reads idle
      (past ++ (traffic.acts (places.map .run)).1) := by
  induction places generalizing traffic past with
  | nil =>
    rw [List.map_nil, acts, List.append_nil]
    exact pooled
  | cons place rest ih =>
    have later := ih (pooled.run place)
    rw [List.append_assoc] at later
    exact later

theorem ask {scan : ScanId × Outlook}
    (pooled : traffic.Pooled writes created mark reads (scan :: idle) past) :
    reply? traffic.calls (traffic.start (.scan .roster scan.1 (.advance .pooled))).1 = none ∧
      (traffic.start (.scan .roster scan.1 (.advance .pooled))).2.Pooled writes created mark
        (reads ++ [⟨scan.1, scan.2, traffic.calls⟩]) idle
        (past ++ (traffic.start (.scan .roster scan.1 (.advance .pooled))).1) := by
  have poised := pooled.rests scan List.mem_cons_self
  have asked := poised.read (pooled.silent _ (Nat.le_refl _)) (rfl : Action.reads (.advance .pooled) = true)
    .roster
  obtain ⟨service, begun, serves, started⟩ := poised.begin .roster .pooled
  have within : traffic.service.Within scan.1 service :=
    begun ▸ (Service.within_respected scan.1).beginAdvance traffic.service
  rw [started] at asked ⊢
  have ids (new : Read) (own : new.id = scan.1) : (reads ++ [new]).map Read.id ++ idle.map Prod.fst =
      reads.map Read.id ++ (scan :: idle).map Prod.fst := by simp [own]
  obtain ⟨-, distinct, disjoint⟩ := List.nodup_append.mp pooled.minds.distinct
  have aside {other : ScanId} (apart : other ≠ scan.1) : traffic.Aside other
      { traffic with
        service
        tasks := traffic.tasks ++ [⟨traffic.calls, scan.1, .fetch .pooled⟩]
        calls := traffic.calls + 1 } :=
    .of_touches apart within.1.1 rfl fun task member => congrArg Task.id (List.mem_singleton.mp member)
  refine ⟨rfl, ?_, pooled.unclosed, ?_, ?_, ?_, ?_, ?_, ?_⟩
  · rw [ids _ rfl]
    exact pooled.minds.within (List.mem_append_right _ List.mem_cons_self) within
  · rw [List.map_append, List.map_singleton]
    refine List.nodup_append.mpr ⟨pooled.numbered, List.nodup_singleton _, ?_⟩
    rintro call earlier _ new rfl
    obtain ⟨read, member, same⟩ := List.mem_map.mp earlier
    have given := pooled.given read member
    rw [same, List.mem_singleton.mp new] at given
    exact Nat.lt_irrefl _ given
  · intro read member
    rcases List.mem_append.mp member with earlier | new
    · exact Nat.lt_succ_of_lt (pooled.given read earlier)
    · rw [List.mem_singleton.mp new]
      exact Nat.lt_succ_self _
  · intro call fresh
    rw [reply?_append, pooled.silent call (Nat.le_of_succ_le fresh)]
    rfl
  · intro read member
    rcases List.mem_append.mp member with earlier | new
    · have apart := Ne.symm (pooled.idle_ne earlier List.mem_cons_self)
      exact (pooled.underway read earlier).aside (aside apart) within.1.2.extends rfl
    · rw [List.mem_singleton.mp new]
      exact asked
  · intro other rests
    have apart : other.1 ≠ scan.1 := fun same =>
      (List.nodup_cons.mp distinct).1 (same ▸ List.mem_map_of_mem rests)
    exact (pooled.rests other (List.mem_cons_of_mem _ rests)).aside (aside apart) within.1.2.extends
  · intro task member
    rw [List.map_append]
    rcases List.mem_append.mp member with old | new
    · exact List.mem_append_left _ (pooled.owned task old)
    · rw [List.mem_singleton.mp new]
      exact List.mem_append_right _ (List.mem_singleton_self _)

private theorem alone (pooled : traffic.Pooled writes created mark reads idle past)
    (member : read ∈ reads) :
    (remaining read.call traffic.tasks).length ≤ 1 := by
  have theirs {task : Task} {other : Read} (listed : other ∈ reads) (present : task ∈ traffic.tasks)
      (own : other.id = task.id) : task.call = other.call := by
    obtain ⟨_, _, left, _, progress, poised, -⟩ := pooled.underway other listed
    refine progress.length_le.2 task (poised.tasks ▸ ?_)
    exact List.mem_filter.mpr ⟨present, decide_eq_true own.symm⟩
  have same : remaining read.call traffic.tasks = tasksOn read.id traffic.tasks := by
    refine List.filter_congr fun task present => ?_
    obtain ⟨other, listed, own⟩ := List.mem_map.mp (pooled.owned task present)
    rw [decide_eq_decide, theirs listed present own, ← own]
    constructor
    · exact fun called => congrArg Read.id (pooled.eq_of_call member listed called)
    · exact fun on => congrArg Read.call (pooled.eq_of_id member listed on)
  obtain ⟨_, _, left, _, progress, poised, -⟩ := pooled.underway read member
  rw [same, poised.tasks]
  exact progress.length_le.1

/-- A read that is answered is over, with the page that the scan reads next. -/
theorem answered (pooled : traffic.Pooled writes created mark reads idle past) (member : read ∈ reads)
    (told : reply? read.call past ≠ none) :
    reply? read.call past = some (.page (upcoming mark read.scan)) ∧
      traffic.Poised read.id .idle mark (turned mark read.scan).2 [] := by
  obtain ⟨phase, now, left, reply, progress, poised, said⟩ := pooled.underway read member
  cases reply with
  | none => exact absurd said told
  | some reply =>
    obtain ⟨rfl, rfl, answer⟩ := progress.answered
    cases answer
    exact ⟨said, poised⟩

theorem await (pooled : traffic.Pooled writes created mark reads idle past) (member : read ∈ reads) :
    (traffic.await read.call traffic.rank).2.Pooled writes created mark reads idle
        (past ++ (traffic.await read.call traffic.rank).1) ∧
      reply? read.call (past ++ (traffic.await read.call traffic.rank).1) =
        some (.page (upcoming mark read.scan)) := by
  obtain ⟨next, settled⟩ := await_keeps (Pooled writes created mark reads idle)
    (fun pooled => pooled.alone member) (fun place pooled => pooled.run place) pooled
    fun task present _ => rank_le present
  refine ⟨next, (next.answered member fun untold => ?_).1⟩
  obtain ⟨_, _, left, _, progress, poised, said⟩ := next.underway read member
  rw [untold] at said
  subst said
  obtain ⟨task, rfl, own, -⟩ := progress.pending
  have present : task ∈ tasksOn read.id _ := poised.tasks ▸ List.mem_singleton_self task
  exact settled task (List.mem_of_mem_filter present) own

/-- Once all reads are answered, nothing goes on. -/
theorem settles (pooled : traffic.Pooled writes created mark reads idle past)
    (told : ∀ read ∈ reads, reply? read.call past ≠ none) :
    traffic.isQuiet = true ∧
      traffic.service.Attends writes created mark
        ((reads.map Read.scan).map (turned mark) ++ idle) := by
  have tasks : traffic.tasks = [] := by
    refine List.eq_nil_iff_forall_not_mem.mpr fun task present => ?_
    obtain ⟨read, member, own⟩ := List.mem_map.mp (pooled.owned task present)
    have none := (pooled.answered member (told read member)).2.tasks
    have here : task ∈ tasksOn read.id traffic.tasks :=
      List.mem_filter.mpr ⟨present, decide_eq_true own.symm⟩
    rw [none] at here
    cases here
  refine ⟨by simp [isQuiet, tasks, pooled.unclosed], ?_, ?_⟩
  · have minds := pooled.minds
    rw [List.map_append, List.map_map, List.map_map]
    exact minds
  · intro scan member
    rcases List.mem_append.mp member with done | rests
    · rw [List.map_map] at done
      obtain ⟨read, listed, rfl⟩ := List.mem_map.mp done
      exact (pooled.answered listed (told read listed)).2.serves
    · exact (pooled.rests scan rests).serves

end Pooled

/-- Pages of idle scans can be asked for one after another, whatever the workers do after each call. -/
theorem askPages_ok (schedule : Schedule)
    (pooled : traffic.Pooled writes created mark reads (scans ++ idle) past) :
    ∃ new events after, traffic.askPages schedule (scans.map Prod.fst) =
        .ok (new.map Read.ticket, events, after) ∧
      new.map Read.scan = scans ∧
      after.Pooled writes created mark (reads ++ new) idle (past ++ events) := by
  induction scans generalizing traffic reads past with
  | nil => exact ⟨[], [], traffic, rfl, rfl, by simpa using pooled⟩
  | cons scan rest ih =>
    obtain ⟨mute, asked⟩ := pooled.ask
    rcases started : traffic.start (.scan .roster scan.1 (.advance .pooled)) with ⟨called, begun⟩
    rw [started] at mute asked
    have kept := asked.runs (schedule traffic.calls)
    rcases ran : begun.acts ((schedule traffic.calls).map .run) with ⟨meanwhile, later⟩
    rw [ran] at kept
    obtain ⟨new, events, after, asks, same, next⟩ := ih kept
    refine ⟨⟨scan.1, scan.2, traffic.calls⟩ :: new, called ++ meanwhile ++ events, after, ?_,
      congrArg (scan :: ·) same, ?_⟩
    · rw [List.map_cons, askPages]
      simp only [started, mute, ran, asks]
      rfl
    · rwa [List.append_assoc reads, List.append_assoc past, List.append_assoc past] at next

theorem awaitPages_ok {list : List Read}
    (pooled : traffic.Pooled writes created mark reads idle past) (listed : ∀ read ∈ list, read ∈ reads) :
    ∃ more after, traffic.awaitPages past (list.map Read.ticket) =
        .ok (list.map fun read => (read.id, upcoming mark read.scan), after) ∧
      after.Pooled writes created mark reads idle (past ++ more) ∧
      ∀ read ∈ list, reply? read.call (past ++ more) ≠ none := by
  induction list generalizing traffic past with
  | nil => exact ⟨[], traffic, rfl, by simpa using pooled, List.forall_mem_nil _⟩
  | cons read rest ih =>
    obtain ⟨member, others⟩ := List.forall_mem_cons.mp listed
    obtain ⟨next, told⟩ := pooled.await member
    obtain ⟨more, after, awaits, last, later⟩ := ih next others
    rw [List.append_assoc] at last later
    refine ⟨_, after, ?_, last, List.forall_mem_cons.mpr ⟨?_, later⟩⟩
    · rw [List.map_cons, List.map_cons, Read.ticket, awaitPages]
      simp only [told, Option.getD_some, awaits]
      rfl
    · rw [← List.append_assoc, reply?_append, told, Option.some_or]
      exact Option.some_ne_none _

/-- A round reads one page of each scan, however the workers are scheduled. -/
theorem readRound_ok (schedule : Schedule)
    (attends : traffic.service.Attends writes created mark (scans ++ idle))
    (quiet : traffic.isQuiet = true) :
    ∃ after, traffic.readRound schedule (scans.map Prod.fst) =
        .ok (scans.map fun scan => (scan.1, upcoming mark scan), after) ∧
      after.isQuiet = true ∧
      after.service.Attends writes created mark (scans.map (turned mark) ++ idle) := by
  obtain ⟨reads, past, middle, asks, rfl, asked⟩ :=
    askPages_ok schedule (pooled_of_attends attends quiet)
  have pooled : middle.Pooled writes created mark reads idle past := asked
  obtain ⟨more, after, awaits, last, told⟩ := awaitPages_ok pooled fun read member => member
  obtain ⟨settled, left⟩ := last.settles told
  refine ⟨after, ?_, settled, left⟩
  rw [readRound, asks]
  change middle.awaitPages past (reads.map Read.ticket) = _
  rw [awaits, List.map_map]
  rfl

end KeyScan.Traffic
