import KeyScan.Proofs.Service.Standing
import KeyScan.Proofs.Service.Stability

namespace KeyScan

/-- Something done to a service over the engine in memory, as a whole: a write past the service, the
creation of a scan, or an action on one. -/
inductive Operation where
  | write (write : MemoryEngine.Write)
  | create (options : ScanOptions)
  | scan (route : Route) (id : ScanId) (action : Action)

namespace Operation

def creates : Operation → Bool
  | .create _ => true
  | _ => false

def write? : Operation → Option MemoryEngine.Write
  | .write entry => some entry
  | _ => none

def action? (id : ScanId) : Operation → Option Action
  | .scan _ other action => if other = id then some action else none
  | _ => none

end Operation

namespace Service

def operate (operation : Operation) (service : Service MemoryEngine TableWalker) :
    Option Reply × Service MemoryEngine TableWalker :=
  match operation with
  | .write entry => (none, { service with engine := service.engine.apply entry })
  | .create options =>
    let (reply, service) := service.perform (.create options)
    (some reply, service)
  | .scan route id action =>
    let (reply, service) := service.perform (.scan route id action)
    (some reply, service)

def operateAll (operations : List Operation) (service : Service MemoryEngine TableWalker) :
    Service MemoryEngine TableWalker :=
  operations.foldl (fun service operation => (service.operate operation).2) service

/-- The replies to those of some operations that act on the scan of an id. -/
def repliesTo (id : ScanId) :
    List Operation → Service MemoryEngine TableWalker → List Reply
  | [], _ => []
  | operation :: rest, service =>
    let (reply, service) := service.operate operation
    (if (operation.action? id).isSome then reply.toList else []) ++ service.repliesTo id rest

end Service

/-- A run of a service that starts over an empty engine: some operations, the creation of a scan, and
more operations. -/
structure Run where
  workers : Nat
  before : List Operation
  options : ScanOptions
  after : List Operation

namespace Run

/-- What is written before the scan is created. -/
def past (run : Run) : List MemoryEngine.Write := run.before.filterMap Operation.write?

/-- The reply to the creation of the scan, and the service then. -/
def creation (run : Run) : Reply × Service MemoryEngine TableWalker :=
  Service.perform (.create run.options)
    (Service.operateAll run.before { workers := run.workers, engine := .empty })

/-- A run that creates the scan under an id and exhausts neither sequence numbers nor ids. -/
structure Fits (run : Run) (id : ScanId) : Prop where
  created : run.creation.1 = .created id
  writes : ((run.before ++ run.after).filterMap Operation.write?).length < 2 ^ 64
  scans : (run.before ++ run.after).countP Operation.creates + 1 < 2 ^ 32

def actions (run : Run) (id : ScanId) : List Action := run.after.filterMap (Operation.action? id)

def replies (run : Run) (id : ScanId) : List Reply := run.creation.2.repliesTo id run.after

end Run

/-- The replies to actions on a scan that stands somewhere. -/
def Standing.answers : List Action → Standing → List Reply
  | [], _ => []
  | action :: rest, standing =>
    let (reply, standing) := standing.answer action
    reply :: answers rest standing

namespace Service

variable {service after : Service MemoryEngine TableWalker} {id : ScanId} {standing : Standing}

/-- A service whose engine has taken some writes and that has created so many scans at most. -/
structure Sound (service : Service MemoryEngine TableWalker) (writes : List MemoryEngine.Write)
    (created : Nat) : Prop where
  holds : service.engine.Holds writes
  numbered : service.Numbered created

theorem Sound.create {writes : List MemoryEngine.Write} {created : Nat} {options : ScanOptions}
    (sound : service.Sound writes created) (room : created + 1 < 2 ^ 32)
    (opened : service.create options = (.ok id, after)) : after.Sound writes (created + 1) := by
  obtain ⟨_, _, _, _, _, engine⟩ := create_ok opened
  refine ⟨sound.holds.agrees ?_, sound.numbered.create room opened⟩
  rw [engine]
  exact service.engine.acquire_agrees

theorem operate_sound {writes : List MemoryEngine.Write} {created : Nat} (operation : Operation)
    (sound : service.Sound writes created)
    (written : (writes ++ operation.write?.toList).length < 2 ^ 64)
    (room : created + operation.creates.toNat < 2 ^ 32) :
    (service.operate operation).2.Sound (writes ++ operation.write?.toList)
      (created + operation.creates.toNat) := by
  obtain ⟨holds, numbered⟩ := sound
  cases operation with
  | write entry =>
    rw [List.length_append] at written
    exact ⟨holds.apply written, numbered.bounded, numbered.given⟩
  | create options =>
    simp only [operate, Operation.write?, Option.toList_none, List.append_nil]
    cases accepted : Window.ofOptions options with
    | error failure =>
      rw [perform_create_refused accepted]
      exact ⟨holds, Nat.le_succ_of_le numbered.bounded, numbered.given⟩
    | ok window =>
      obtain ⟨id, after, opened⟩ := create_accepted service accepted
      rw [perform_create opened]
      exact Sound.create ⟨holds, numbered⟩ room opened
  | scan route id action =>
    simp only [operate, Operation.write?, Option.toList_none, List.append_nil]
    exact ⟨holds.agrees (service.perform_agrees id route action),
      (service.perform_touches route id action).numbered numbered⟩

theorem operateAll_sound {writes : List MemoryEngine.Write} {created : Nat}
    (operations : List Operation) (sound : service.Sound writes created)
    (written : (writes ++ operations.filterMap Operation.write?).length < 2 ^ 64)
    (room : created + operations.countP Operation.creates < 2 ^ 32) :
    (service.operateAll operations).Sound (writes ++ operations.filterMap Operation.write?)
      (created + operations.countP Operation.creates) := by
  induction operations generalizing service writes created with
  | nil => simpa [operateAll] using sound
  | cons operation rest ih =>
    have count := countP_cons_toNat Operation.creates operation rest
    rw [filterMap_cons_toList, ← List.append_assoc] at written ⊢
    rw [count, ← Nat.add_assoc] at room ⊢
    refine ih (operate_sound operation sound ?_ ?_) written room
    · rw [List.length_append] at written
      omega
    · omega

/-- What a scan has to answer does not depend on anything that leaves its record, its id and the pairs
of its snapshot alone. -/
theorem Stands.kept (stands : service.Stands id standing) (scan : after.scan? id = service.scan? id)
    (live : after.roster.isLive id = service.roster.isLive id)
    (issued : after.roster.wasIssued id = true)
    (extended : service.engine.Extends after.engine) : after.Stands id standing := by
  refine ⟨issued, ?_⟩
  cases standing with
  | finished =>
    have ended := stands.2
    simp only [phase?] at ended ⊢
    rwa [scan]
  | «open» mark outlook => exact stands.2.kept scan live extended

theorem operate_other {writes : List MemoryEngine.Write} {created : Nat} {operation : Operation}
    (stands : service.Stands id standing) (sound : service.Sound writes created)
    (written : (writes ++ operation.write?.toList).length < 2 ^ 64)
    (room : created + operation.creates.toNat < 2 ^ 32) (other : operation.action? id = none) :
    (service.operate operation).2.Stands id standing := by
  have issued := stands.1
  cases operation with
  | write entry =>
    rw [List.length_append] at written
    have space : service.engine.sequence.toNat + 1 < 2 ^ 64 := sound.holds.counted ▸ written
    exact stands.kept rfl rfl issued (MemoryEngine.extends_apply entry space)
  | create options =>
    simp only [operate]
    cases accepted : Window.ofOptions options with
    | error failure =>
      rw [perform_create_refused accepted]
      exact stands
    | ok window =>
      obtain ⟨new, after, opened⟩ := create_accepted service accepted
      rw [perform_create opened]
      obtain ⟨_, _, rfl, _, roster, engine⟩ := create_ok opened
      have next := sound.numbered.toNat_next room
      simp only [Roster.wasIssued, Bool.and_eq_true, decide_eq_true_eq, UInt32.le_iff_toNat_le]
        at issued
      have apart : id ≠ service.roster.issued + 1 := by
        intro same
        rw [same] at issued
        omega
      obtain ⟨scan, live⟩ := create_others opened apart
      refine stands.kept scan live ?_ ?_
      · rw [roster]
        simp only [Roster.wasIssued, Roster.register, Roster.allocate, Bool.and_eq_true,
          decide_eq_true_eq, UInt32.le_iff_toNat_le]
        exact ⟨issued.1, by omega⟩
      · rw [engine]
        exact service.engine.acquire_agrees.extends
  | scan route target action =>
    have apart : id ≠ target := by
      intro same
      simp [Operation.action?, same] at other
    have touched := service.perform_touches route target action
    have agrees := service.perform_agrees target route action
    exact stands.kept (touched.scan id apart) (touched.live id apart)
      (wasIssued_of_eq touched.issued issued) agrees.extends

/-- What is done to a scan is answered as it stands. -/
theorem operate_own {operation : Operation} {action : Action}
    (stands : service.Stands id standing) (own : operation.action? id = some action) :
    (service.operate operation).1 = some (standing.answer action).1 ∧
      (service.operate operation).2.Stands id (standing.answer action).2 := by
  cases operation with
  | write entry => cases own
  | create options => cases own
  | scan route target asked =>
    simp only [Operation.action?] at own
    split at own
    · rename_i same
      cases own
      subst same
      obtain ⟨after, performed, next⟩ := perform_stands stands route action
      simp only [operate, performed]
      exact ⟨trivial, next⟩
    · cases own

/-- The replies to the actions on a scan follow from where it stands and the actions. -/
theorem repliesTo_eq {writes : List MemoryEngine.Write} {created : Nat}
    (operations : List Operation) (stands : service.Stands id standing)
    (sound : service.Sound writes created)
    (written : (writes ++ operations.filterMap Operation.write?).length < 2 ^ 64)
    (room : created + operations.countP Operation.creates < 2 ^ 32) :
    service.repliesTo id operations =
      standing.answers (operations.filterMap (Operation.action? id)) := by
  induction operations generalizing service standing writes created with
  | nil => rfl
  | cons operation rest ih =>
    have count := countP_cons_toNat Operation.creates operation rest
    rw [filterMap_cons_toList, ← List.append_assoc] at written
    rw [count, ← Nat.add_assoc] at room
    have small : (writes ++ operation.write?.toList).length < 2 ^ 64 := by
      rw [List.length_append] at written
      omega
    have space : created + operation.creates.toNat < 2 ^ 32 := by omega
    have next := operate_sound operation sound small space
    rw [filterMap_cons_toList]
    simp only [repliesTo]
    cases own : operation.action? id with
    | none =>
      have kept := operate_other stands sound small space own
      simpa using ih kept next written room
    | some action =>
      obtain ⟨reply, moved⟩ := operate_own stands own
      have later := ih moved next written room
      simp [reply, later, Standing.answers]

end Service

private theorem Run.before_sound {run : Run} {id : ScanId} (fits : run.Fits id) :
    (Service.operateAll run.before { workers := run.workers, engine := .empty }).Sound run.past
      (run.before.countP Operation.creates) := by
  have writes := fits.writes
  have scans := fits.scans
  rw [List.filterMap_append, List.length_append] at writes
  rw [List.countP_append] at scans
  have empty : Service.Sound { workers := run.workers, engine := .empty } [] 0 :=
    ⟨MemoryEngine.holds_empty, Nat.le_refl _, fun _ member => absurd member List.not_mem_nil⟩
  have few : ([] ++ run.before.filterMap Operation.write?).length < 2 ^ 64 := by
    rw [List.nil_append]
    omega
  have sound := Service.operateAll_sound run.before empty few (by omega)
  rwa [List.nil_append, Nat.zero_add] at sound

/-- A scan of a run, from its creation on, is answered as it stands at the start of its window over the
contents at that time. -/
theorem Run.replies_eq {run : Run} {id : ScanId} (fits : run.Fits id) :
    ∃ window, Window.ofOptions run.options = .ok window ∧
      run.replies id =
        (Standing.open run.options.highWaterMark
          (.start window (MemoryEngine.contents run.past))).answers (run.actions id) := by
  have sound := before_sound fits
  obtain ⟨created, writes, scans⟩ := fits
  rw [List.filterMap_append] at writes
  rw [List.countP_append] at scans
  unfold replies
  unfold creation at created ⊢
  generalize Service.operateAll run.before { workers := run.workers, engine := .empty } = service
    at sound created ⊢
  cases accepted : Window.ofOptions run.options with
  | error failure =>
    rw [Service.perform_create_refused accepted] at created
    cases created
  | ok window =>
    obtain ⟨new, after, opened⟩ := Service.create_accepted service accepted
    rw [Service.perform_create opened] at created ⊢
    cases created
    have room : run.before.countP Operation.creates + 1 < 2 ^ 32 := by omega
    obtain ⟨_, same, stands⟩ := Service.create_stands sound.numbered room opened
    cases same.symm.trans accepted
    refine ⟨window, rfl, ?_⟩
    rw [Service.repliesTo_eq run.after stands (sound.create room opened) writes (by omega),
      sound.holds.shown]
    rfl

/-- Take two runs, each with a scan. If the contents at the creation of the scans, their options and the
actions on them are the same, then so are the replies, whatever else is written, created, read, sought
or ended before, in between and after. -/
theorem Run.replies_isolated {first second : Run} {one other : ScanId} (fits : first.Fits one)
    (fits' : second.Fits other) (options : first.options = second.options)
    (contents : MemoryEngine.contents first.past = MemoryEngine.contents second.past)
    (actions : first.actions one = second.actions other) :
    first.replies one = second.replies other := by
  obtain ⟨window, accepted, replies⟩ := replies_eq fits
  obtain ⟨window', accepted', replies'⟩ := replies_eq fits'
  rw [options, accepted'] at accepted
  cases accepted
  rw [replies, replies', options, contents, actions]

/-- A scan under another id, with writes around its position and another scan beside it, gives the same
replies as one that is alone. -/
theorem Run.replies_isolated_amid_writes :
    let first : Run :=
      ⟨1, [.write ⟨[1], some [1]⟩, .write ⟨[2], some [2]⟩], { highWaterMark := 0 },
        [.scan .roster 1 (.advance .waiting), .scan .held 1 (.seek [2]),
          .scan .roster 1 (.advance .pooled), .scan .held 1 .endNow]⟩
    let second : Run :=
      ⟨4, [.write ⟨[2], some [2]⟩, .create { reverse := true }, .write ⟨[1], some [1]⟩],
        { highWaterMark := 0 },
        [.write ⟨[2], none⟩, .scan .held 2 (.advance .waiting), .write ⟨[1], some [7]⟩,
          .scan .roster 1 (.advance .pooled), .create {}, .scan .roster 2 (.seek [2]),
          .scan .roster 1 .endLater, .write ⟨[3], some [3]⟩, .scan .held 2 (.advance .pooled),
          .scan .roster 2 .endNow]⟩
    first.Fits 1 ∧ second.Fits 2 ∧
      MemoryEngine.contents first.past = MemoryEngine.contents second.past ∧
      first.actions 1 = second.actions 2 ∧ first.replies 1 = second.replies 2 := by
  intro first second
  have fits : first.Fits 1 := ⟨by rfl, by decide, by decide⟩
  have fits' : second.Fits 2 := ⟨by rfl, by decide, by decide⟩
  have contents : MemoryEngine.contents first.past = MemoryEngine.contents second.past := by decide
  have actions : first.actions 1 = second.actions 2 := by decide
  exact ⟨fits, fits', contents, actions, replies_isolated fits fits' rfl contents actions⟩

end KeyScan
