import KeyScan.Proofs.Traffic.Books

namespace KeyScan

def Failure.isBusy : Failure → Bool
  | .advancing | .seekWhileAdvancing => true
  | _ => false

def Failure.isReported : Failure → Bool
  | .engine _ => true
  | _ => false

/-- The page that an advance brought, with the mode of the advance. -/
def pageOf? : Request × Reply → Option (Mode × Page)
  | (request, .page page) => request.mode?.map (·, page)
  | _ => none

def pages (events : List Event) : List (Mode × Page) := (replies events).filterMap pageOf?

def isCreation : Request × Reply → Bool
  | (_, .created _) => true
  | _ => false

def isArrival : Request × Reply → Bool
  | (_, .ready) => true
  | _ => false

def isRefusal : Request × Reply → Bool
  | (request, .failed failure) => request.reads && failure.isBusy
  | _ => false

def isFault : Request × Reply → Bool
  | (request, .failed failure) => request.reads && failure.isReported
  | _ => false

/-- What a reply to a request shows adds to each count what can be told from the reply. -/
structure Weighs (item : Request × Reply) (occurrences : List Occurrence) : Prop where
  created : Counter.created.total occurrences = if isCreation item then 1 else 0
  ended : Counter.ended.total occurrences = 0
  deferred : Counter.deferred.total occurrences = 0
  waited : Counter.waited.total occurrences =
    if ((pageOf? item).map fun item => decide (item.1 = .waiting)).getD false then 1 else 0
  pooled : Counter.pooled.total occurrences =
    if ((pageOf? item).map fun item => decide (item.1 = .pooled)).getD false then 1 else 0
  entries : Counter.entries.total occurrences =
    ((pageOf? item).toList.map fun item => item.2.entries.length % 2 ^ 64).sum
  bytes : Counter.bytes.total occurrences =
    ((pageOf? item).toList.map fun item => item.2.size % 2 ^ 64).sum
  sought : Counter.sought.total occurrences = if isArrival item then 1 else 0
  refused : Counter.refused.total occurrences = if isRefusal item then 1 else 0
  failed : Counter.failed.total occurrences = if isFault item then 1 else 0

private theorem Failure.occurrence?_cases (failure : Failure) :
    (failure.occurrence? = some .refused ∧ failure.isBusy = true ∧ failure.isReported = false) ∨
      (failure.occurrence? = some .failed ∧ failure.isBusy = false ∧ failure.isReported = true) ∨
      failure.occurrence? = none ∧ failure.isBusy = false ∧ failure.isReported = false := by
  cases failure <;> simp [occurrence?, isBusy, isReported]

private theorem weighs_occurrence? (request : Request) (reply : Reply) :
    Weighs (request, reply) (request.occurrence? reply).toList := by
  cases reply with
  | created id => constructor <;> rfl
  | ready => constructor <;> rfl
  | ended flag => constructor <;> rfl
  | closed => constructor <;> rfl
  | page page =>
    cases advance : request.mode? with
    | none => constructor <;> simp [Request.occurrence?, pageOf?, advance] <;> rfl
    | some mode =>
      cases mode <;> constructor <;> simp [Request.occurrence?, pageOf?, advance] <;> rfl
  | failed failure =>
    cases reads : request.reads with
    | false => constructor <;> simp [Request.occurrence?, isRefusal, isFault, reads] <;> rfl
    | true =>
      obtain ⟨shows, busy, reported⟩ | ⟨shows, busy, reported⟩ | ⟨shows, busy, reported⟩ :=
        failure.occurrence?_cases
      all_goals
        constructor <;> simp [Request.occurrence?, isRefusal, isFault, reads, shows, busy, reported] <;>
          rfl

namespace Counter

variable {α β : Type} (counter : Counter)

private theorem total_filterMap_eq_countP {shows : α → Option Occurrence} {property : α → Bool}
    (each : ∀ item, counter.total (shows item).toList = if property item then 1 else 0)
    (items : List α) : counter.total (items.filterMap shows) = items.countP property := by
  induction items with
  | nil => rfl
  | cons item rest ih =>
    rw [filterMap_cons_toList, total_append, each, ih, List.countP_cons, Nat.add_comm]

private theorem total_map_eq_countP {shows : α → Occurrence} {property : α → Bool}
    (each : ∀ item, counter.total [shows item] = if property item then 1 else 0)
    (items : List α) : counter.total (items.map shows) = items.countP property := by
  rw [← List.filterMap_eq_map]
  exact counter.total_filterMap_eq_countP each items

/-- Amounts that are counted as words are added up as words. -/
theorem total_filterMap_mod {shows : α → Option Occurrence} {part? : α → Option β} {amount : β → Nat}
    (each : ∀ item, counter.total (shows item).toList =
      ((part? item).toList.map fun part => amount part % 2 ^ 64).sum)
    (items : List α) :
    counter.total (items.filterMap shows) % 2 ^ 64 =
      ((items.filterMap part?).map amount).sum % 2 ^ 64 := by
  induction items with
  | nil => rfl
  | cons item rest ih =>
    rw [filterMap_cons_toList, filterMap_cons_toList, total_append, Nat.add_mod, each, ih]
    cases part? item <;> simp

section Shown

variable {asked : Nat → Option Request} {events : List Event}

private theorem total_shown_of_replies (others : ∀ deferred, counter.amount (.ended deferred) = 0) :
    counter.total (shown asked events) =
      counter.total ((repliesTo asked events).filterMap fun item => item.1.occurrence? item.2) := by
  have nothing (grant : ScanId × Bool) :
      counter.total [.ended grant.2] = if false then 1 else 0 := by simp [others]
  have ends := counter.total_map_eq_countP nothing (grants events)
  rw [List.countP_eq_zero.mpr (by simp)] at ends
  rw [shown, total_append, ends, Nat.add_zero]

private theorem total_shown_of_grants {property : ScanId × Bool → Bool}
    (others : ∀ item : Request × Reply, counter.total (item.1.occurrence? item.2).toList = 0)
    (each : ∀ grant : ScanId × Bool,
      counter.total [.ended grant.2] = if property grant then 1 else 0) :
    counter.total (shown asked events) = (grants events).countP property := by
  have nothing (item : Request × Reply) :
      counter.total (item.1.occurrence? item.2).toList = if false then 1 else 0 := others item
  have told := counter.total_filterMap_eq_countP nothing (repliesTo asked events)
  rw [List.countP_eq_zero.mpr (by simp)] at told
  rw [shown, total_append, told, Nat.zero_add]
  exact counter.total_map_eq_countP each (grants events)

end Shown

end Counter

namespace Books

variable {σ ι : Type} {past : List Event} {start now : Service σ ι}
  (books : Books (requestOf? past) past start [] now []) (fresh : start.tally = {}) (counter : Counter)

include books fresh

/-- When nothing is in hand and nothing owed, a count is what the events show. -/
theorem toNat_read :
    (counter.read now.tally).toNat = counter.total (shown (requestOf? past) past) % 2 ^ 64 := by
  obtain ⟨occurrences, tally, balance⟩ := books
  have same := counter.total_perm balance
  simp only [List.filterMap_nil, List.append_nil, counter.total_plain] at same
  rw [← same, ← counter.toNat_read, tally, fresh]
  rfl

theorem read_replies {property : Request × Reply → Bool} (brief : (replies past).length < 2 ^ 64)
    (others : ∀ deferred, counter.amount (.ended deferred) = 0)
    (each : ∀ item : Request × Reply,
      counter.total (item.1.occurrence? item.2).toList = if property item then 1 else 0) :
    (counter.read now.tally).toNat = (replies past).countP property := by
  rw [books.toNat_read fresh, counter.total_shown_of_replies others,
    counter.total_filterMap_eq_countP each]
  exact Nat.mod_eq_of_lt (Nat.lt_of_le_of_lt List.countP_le_length brief)

theorem read_pages {property : Mode × Page → Bool} (brief : (replies past).length < 2 ^ 64)
    (others : ∀ deferred, counter.amount (.ended deferred) = 0)
    (each : ∀ item : Request × Reply, counter.total (item.1.occurrence? item.2).toList =
      if ((pageOf? item).map property).getD false then 1 else 0) :
    (counter.read now.tally).toNat = (pages past).countP property := by
  rw [pages, List.countP_filterMap]
  exact books.read_replies fresh counter brief others each

theorem read_amounts {amount : Mode × Page → Nat}
    (others : ∀ deferred, counter.amount (.ended deferred) = 0)
    (each : ∀ item : Request × Reply, counter.total (item.1.occurrence? item.2).toList =
      ((pageOf? item).toList.map fun page => amount page % 2 ^ 64).sum) :
    (counter.read now.tally).toNat = ((pages past).map amount).sum % 2 ^ 64 := by
  rw [books.toNat_read fresh, counter.total_shown_of_replies others]
  exact counter.total_filterMap_mod each _

theorem read_grants {property : ScanId × Bool → Bool} (brief : (grants past).length < 2 ^ 64)
    (others : ∀ item : Request × Reply, counter.total (item.1.occurrence? item.2).toList = 0)
    (each : ∀ grant : ScanId × Bool,
      counter.total [.ended grant.2] = if property grant then 1 else 0) :
    (counter.read now.tally).toNat = (grants past).countP property := by
  rw [books.toNat_read fresh, counter.total_shown_of_grants others each]
  exact Nat.mod_eq_of_lt (Nat.lt_of_le_of_lt List.countP_le_length brief)

end Books

private theorem Errand.called_of_answered {call : Nat} {events : List Event} {tasks : List Task}
    {pause : Pause}
    {reply : Reply} (errand : Errand call events tasks pause) (answered : .answered call reply ∈ events)
    (other : ∀ flag, reply ≠ .ended flag) : ∃ request, .called call request ∈ events := by
  cases errand with
  | waits awaits | told awaits => cases awaits <;> simp_all
  | release brings | withdraw brings | conclude brings | settle brings | done brings =>
    cases brings <;> simp_all [Pause.told]
  | _ => simp_all

/-- A scan to which nothing is owed was granted its end exactly if it is withdrawn. -/
theorem Life.count_granted {before : Option Condition} {past : List Milestone}
    (life : Life before [] past) : past.count .granted = if .withdrawn ∈ past then 1 else 0 := by
  cases life <;> rfl

private theorem count_grants (id : ScanId) (events : List Event) :
    ((grants events).map Prod.fst).count id = (milestones id events).count .granted := by
  induction events with
  | nil => rfl
  | cons event rest ih =>
    rw [milestones_cons, List.count_append, ← ih]
    cases event with
    | granted call other deferred =>
      by_cases own : other = id <;> simp [grants, Event.milestone?, own, Nat.add_comm]
    | released call other | withdrawn call other | concluded call other =>
      by_cases own : other = id <;> simp [grants, Event.milestone?, own]
    | called call request | begun call other | left call other | answered call reply =>
      simp [grants, Event.milestone?]

private theorem length_createdIds {asked : Nat → Option Request} {events : List Event}
    (known : ∀ call id, .answered call (.created id) ∈ events → ∃ request, asked call = some request) :
    (repliesTo asked events).countP isCreation = (createdIds events).length := by
  induction events with
  | nil => rfl
  | cons event rest ih =>
    have same := ih fun call id member => known call id (List.mem_cons_of_mem _ member)
    rw [createdIds_cons, List.length_append, ← same]
    unfold repliesTo
    rw [filterMap_cons_toList, List.countP_append]
    congr 1
    cases event with
    | answered call reply =>
      cases reply with
      | created id =>
        obtain ⟨request, own⟩ := known call id List.mem_cons_self
        simp [own, isCreation, Event.created?]
      | _ => cases own : asked call <;> simp [own, isCreation, Event.created?]
    | _ => rfl

namespace Traffic

variable {σ ι : Type} {traffic : Traffic σ ι} {past : List Event}

theorem Ledger.requestOf?_eq {call : Nat} {request : Request} (ledger : traffic.Ledger past)
    (called : .called call request ∈ past) : requestOf? past call = some request := by
  cases found : requestOf? past call with
  | none =>
    have missed := List.findSome?_eq_none_iff.mp found _ called
    simp at missed
  | some other =>
    obtain ⟨event, member, own⟩ := List.exists_of_findSome?_eq_some found
    split at own
    · rename_i number made
      split at own <;> cases own
      rename_i same
      subst same
      obtain ⟨pause, kept⟩ := ledger number
      exact congrArg some (kept.errand.called_unique (mem_seen.mpr member) (mem_seen.mpr called))
    · cases own

/-- Scans that were created are live or were granted their ends, when no task is in progress. -/
theorem Sound.size_add_grants (sound : traffic.Sound past) (still : traffic.tasks = []) :
    traffic.service.roster.size + (grants past).length = (createdIds past).length := by
  have same : (traffic.service.roster.live ++ (grants past).map Prod.fst).Perm (createdIds past) := by
    refine List.perm_iff_count.mpr fun id => ?_
    have life := (sound.regular.orderly id).life
    rw [still] at life
    rw [List.count_append, count_grants, life.count_granted, sound.live_eq]
    split
    · rename_i withdrawn
      have created := sound.created_of_milestone withdrawn
      rw [List.count_eq_one_of_mem sound.catalogued.nodup created]
      simp [List.count_eq_zero, withdrawn]
    · rename_i here
      rw [List.count_filter (by simpa using here), Nat.add_zero]
  simpa [Roster.size] using same.length_eq

/-- The counts of a service are those of the events so far. The entries and bytes of the pages are
added up as words, so their sums are modulo 2^64. -/
structure Accounts (past : List Event) (service : Service σ ι) : Prop where
  created : service.tally.created.toNat = (createdIds past).length
  /-- the scans that are live were created and are not counted as ended -/
  live : service.tally.created.toNat = service.tally.ended.toNat + service.roster.size
  deferred : service.tally.deferred.toNat = (grants past).countP fun grant => grant.2
  /-- an end is put off exactly if an advance is under way when it is granted -/
  deferral : Deferral past
  waited : service.tally.waited.toNat = (pages past).countP fun page => page.1 = .waiting
  pooled : service.tally.pooled.toNat = (pages past).countP fun page => page.1 = .pooled
  entries : service.tally.entries.toNat =
    ((pages past).map fun page => page.2.entries.length).sum % 2 ^ 64
  bytes : service.tally.bytes.toNat = ((pages past).map fun page => page.2.size).sum % 2 ^ 64
  sought : service.tally.sought.toNat = (replies past).countP isArrival
  refused : service.tally.refused.toNat = (replies past).countP isRefusal
  failed : service.tally.failed.toNat = (replies past).countP isFault
  /-- a read is turned down as busy exactly if it would be admitted but for an advance under way, and a
  seek that is admitted succeeds or fails at the engine -/
  opens : Opens past
  /-- an advance that is admitted brings a page or fails at the engine -/
  outcomes : Outcomes past

theorem Sound.countP_isCreation (sound : traffic.Sound past) :
    (replies past).countP isCreation = (createdIds past).length := by
  refine length_createdIds fun call id answered => ?_
  obtain ⟨pause, kept⟩ := sound.regular.ledger call
  obtain ⟨request, called⟩ := kept.errand.called_of_answered (mem_seen.mpr answered) (by simp)
  exact ⟨request, sound.regular.ledger.requestOf?_eq (mem_seen.mp called)⟩

/-- What the books say of the counts when no task is in progress. -/
theorem Sound.accounts {start : Service σ ι} (sound : traffic.Sound past)
    (books : Books (requestOf? past) past start [] traffic.service []) (fresh : start.tally = {})
    (few : (createdIds past).length < 2 ^ 32) (brief : (replies past).length < 2 ^ 64)
    (still : traffic.tasks = []) (deferral : Deferral past) (opens : Opens past)
    (outcomes : Outcomes past) : Accounts past traffic.service := by
  have size := sound.size_add_grants still
  have rare : (grants past).length < 2 ^ 64 := by omega
  have weighs (item : Request × Reply) := weighs_occurrence? item.1 item.2
  have created : traffic.service.tally.created.toNat = (createdIds past).length := by
    rw [← sound.countP_isCreation]
    exact books.read_replies fresh .created brief (fun _ => rfl) fun item => (weighs item).created
  have ended : traffic.service.tally.ended.toNat = (grants past).countP fun _ => true :=
    books.read_grants fresh .ended rare (fun item => (weighs item).ended) fun _ => rfl
  rw [List.countP_true] at ended
  exact
    { created
      live := by omega
      deferred :=
        books.read_grants fresh .deferred rare (fun item => (weighs item).deferred) fun ⟨_, deferred⟩ => by
          cases deferred <;> rfl
      deferral
      waited :=
        books.read_pages fresh .waited brief (fun _ => rfl) fun item => (weighs item).waited
      pooled :=
        books.read_pages fresh .pooled brief (fun _ => rfl) fun item => (weighs item).pooled
      entries := books.read_amounts fresh .entries (fun _ => rfl) fun item => (weighs item).entries
      bytes := books.read_amounts fresh .bytes (fun _ => rfl) fun item => (weighs item).bytes
      sought :=
        books.read_replies fresh .sought brief (fun _ => rfl) fun item => (weighs item).sought
      refused :=
        books.read_replies fresh .refused brief (fun _ => rfl) fun item => (weighs item).refused
      failed :=
        books.read_replies fresh .failed brief (fun _ => rfl) fun item => (weighs item).failed
      opens
      outcomes }

variable [Engine σ ι]

theorem turns_deferral (turns : List (Turn σ)) (sound : traffic.Sound past)
    (few : (createdIds (past ++ (traffic.turns turns).1)).length < 2 ^ 32) (deferral : Deferral past) :
    Deferral (past ++ (traffic.turns turns).1) := by
  refine (turns_keep (fun past _ => Deferral past) turns ?_ sound few deferral).2
  intro past traffic turn _ sound _ deferral
  cases turn with
  | outside change =>
    rw [Traffic.turn, List.append_nil]
    exact deferral
  | act act => exact sound.regular.deferral (act_moves act traffic) deferral

/-- On a fresh service, after whatever calls and sections in whatever order, and whatever becomes of the
engine in between: when no task is in progress, the counts are those of the events. Ids are 32-bit
words and counts 64-bit words, so fewer creations are assumed than there are ids and fewer replies
than a count can hold. -/
theorem turns_accounts (workers : Nat) (engine : σ) (turns : List (Turn σ))
    (few : (createdIds (Traffic.turns turns { service := { workers, engine } }).1).length < 2 ^ 32)
    (brief : (replies (Traffic.turns turns { service := { workers, engine } }).1).length < 2 ^ 64)
    (still : (Traffic.turns turns { service := { workers, engine } }).2.tasks = []) :
    let run := Traffic.turns turns { service := { workers, engine } }
    Accounts run.1 run.2.service := by
  intro run
  have start : ({ service := { workers, engine } } : Traffic σ ι).Sound [] := sound_fresh workers engine
  have sound : run.2.Sound run.1 := turns_sound turns start few
  have noGrant : Deferral [] := fun _ _ _ _ _ split => absurd split (by simp)
  have blank : Books (requestOf? run.1) [] ({ workers, engine } : Service σ ι) []
      { workers, engine } [] := .idle rfl rfl fun _ _ => rfl
  have books := turns_books turns start few
    (fun call request called => sound.regular.ledger.requestOf?_eq called) blank
  obtain ⟨opens, outcomes⟩ := fresh_admit workers engine turns few
  rw [still] at books
  exact sound.accounts books rfl few brief still (turns_deferral turns start few noGrant) opens outcomes

/-- Two scans, of which one is advanced when it is asked to end: two reads are turned down meanwhile, and
its end is the only one that is put off. -/
theorem turns_accounts_of_deferred :
    let turns : List (Turn MemoryEngine) :=
      [.act (.call (.create {})), .act (.call (.create { lt := some [1], lte := some [1] })),
        .outside fun engine => engine.put [1] [7, 7], .act (.call (.create {})),
        .act (.call (.scan .roster 2 (.seek [1]))), .act (.call (.scan .roster 1 (.advance .pooled))),
        .act (.call (.scan .held 1 (.seek [1]))), .act (.call (.scan .roster 1 (.advance .waiting))),
        .act (.call (.scan .roster 1 .endNow)), .act (.call (.scan .roster 2 (.advance .waiting))),
        .act (.run 1), .act (.run 1), .act (.run 0), .act (.run 0), .act (.run 0), .act (.run 0),
        .act (.run 0), .act (.run 0), .act (.run 0)]
    let run := Traffic.turns turns { service := { workers := 4, engine := MemoryEngine.empty } }
    (createdIds run.1).length < 2 ^ 32 ∧ (replies run.1).length < 2 ^ 64 ∧ run.2.tasks = [] ∧
      Accounts run.1 run.2.service ∧ run.2.service.tally =
        { created := 2, ended := 1, deferred := 1, waited := 1, pooled := 1, refused := 2, entries := 1,
          bytes := 3, sought := 1 } := by
  intro turns run
  have few : (createdIds run.1).length < 2 ^ 32 := by decide
  have brief : (replies run.1).length < 2 ^ 64 := by decide
  have still : run.2.tasks = [] := by decide
  exact ⟨few, brief, still, turns_accounts 4 MemoryEngine.empty turns few brief still, by decide⟩

end Traffic
end KeyScan
