import KeyScan.Proofs.Table.Visibility
import KeyScan.Table.Walker

/-! The moves of a walker are moves among the live pairs of its table. Forward scans find the live
pairs by the order of versions, backward scans by lookups; both give the same. -/
namespace KeyScan

namespace VersionTable

variable {table : VersionTable} {sequence : Sequence} {version : Version}

/-- A version that is not too new decides about its key if all earlier ones of that key are. -/
theorem isNewest_of_split {before rest : List Version}
    (split : table.versions = before ++ version :: rest)
    (seen : version.stamp.sequence ≤ sequence)
    (first : ∀ other ∈ before, other.stamp.key = version.stamp.key →
      ¬ other.stamp.sequence ≤ sequence) :
    version.IsNewest table.versions version.stamp.key sequence := by
  have ordered := table.ordered
  rw [split, List.pairwise_append, List.pairwise_cons] at ordered
  refine ⟨split ▸ List.mem_append_right before List.mem_cons_self, rfl, seen, ?_⟩
  intro other member same old
  rw [split, List.mem_append, List.mem_cons] at member
  rcases member with early | rfl | late
  · exact absurd old (first other early same)
  · exact UInt64.le_refl _
  · have later := ordered.2.1.1 other late
    grind [VersionKey.lt_iff]

private theorem livePair?_eq_none_of_new (new : sequence < version.stamp.sequence) :
    table.livePair? sequence version = none := by
  refine Option.eq_none_iff_forall_ne_some.mpr ?_
  intro pair found
  exact UInt64.not_le.mpr new (livePair?_eq_some_iff.mp found).1.seen

private theorem livePair?_eq_none_of_older {other : Version} (member : other ∈ table.versions)
    (same : other.stamp.key = version.stamp.key) (earlier : other.stamp < version.stamp)
    (seen : other.stamp.sequence ≤ sequence) : table.livePair? sequence version = none := by
  refine Option.eq_none_iff_forall_ne_some.mpr ?_
  intro pair found
  have newest := (livePair?_eq_some_iff.mp found).1
  have bound := newest.newest other member (same.trans newest.ofKey) seen
  grind [VersionKey.lt_iff]

private theorem livePair?_eq_none_of_barren
    (barren : table.valueAt? version.stamp.key sequence = none) :
    table.livePair? sequence version = none := by
  refine Option.eq_none_iff_forall_ne_some.mpr ?_
  intro pair found
  have ⟨newest, present⟩ := livePair?_eq_some_iff.mp found
  have value := valueAt?_eq_some_iff.mpr ⟨version, newest, present⟩
  rw [← newest.ofKey, barren] at value
  exact absurd value (by simp)

private theorem livePair?_of_newest
    (newest : version.IsNewest table.versions version.stamp.key sequence) :
    table.livePair? sequence version =
      version.value.map fun value => (version.stamp.key, value) := by
  rw [livePair?, visible?_eq_some_iff.mpr newest]
  simp

end VersionTable

namespace TableWalker

open VersionTable

variable {table : VersionTable} {sequence : Sequence}

/-- A forward scan of a rest of the versions finds the first of its live pairs, provided that the
remembered key is the one with a seen version before the rest. -/
theorem scanForward_eq {before rest : List Version} {deleted : Option Bytes}
    (split : table.versions = before ++ rest)
    (hides : ∀ version ∈ rest, (∃ other ∈ before, other.stamp.key = version.stamp.key ∧
      other.stamp.sequence ≤ sequence) ↔ deleted = some version.stamp.key) :
    scanForward sequence deleted rest =
      (rest.filterMap (table.livePair? sequence)).head? := by
  induction rest generalizing before deleted with
  | nil => rfl
  | cons version rest ih =>
    have ordered := table.ordered
    rw [split, List.pairwise_append, List.pairwise_cons] at ordered
    have next : table.versions = (before ++ [version]) ++ rest := by
      rw [split, List.append_assoc, List.singleton_append]
    have here := hides version List.mem_cons_self
    rw [scanForward]
    split
    · rename_i new
      rw [List.filterMap_cons_none (livePair?_eq_none_of_new new)]
      refine ih next ?_
      intro other member
      have := hides other (List.mem_cons_of_mem version member)
      grind
    · rename_i old
      have seen := UInt64.not_lt.mp old
      split
      · rename_i hidden
        obtain ⟨other, early, same, otherSeen⟩ := here.mpr hidden
        have older : table.livePair? sequence version = none :=
          livePair?_eq_none_of_older (split ▸ List.mem_append_left _ early) same
            (ordered.2.2 other early version List.mem_cons_self) otherSeen
        rw [List.filterMap_cons_none older]
        refine ih next ?_
        intro later member
        have := hides later (List.mem_cons_of_mem version member)
        grind
      · rename_i visible
        have newest := isNewest_of_split split seen fun other early same otherSeen =>
          visible (here.mp ⟨other, early, same, otherSeen⟩)
        have entry := livePair?_of_newest newest
        cases present : version.value with
        | some value =>
          rw [present] at entry
          rw [List.filterMap_cons_some entry]
          rfl
        | none =>
          rw [present] at entry
          rw [List.filterMap_cons_none entry]
          refine ih next ?_
          intro later member
          have follows := ordered.2.1.1 later member
          constructor
          · rintro ⟨other, early, same, otherSeen⟩
            rcases List.mem_append.mp early with early | own
            · have precedes := ordered.2.2 other early version List.mem_cons_self
              grind [VersionKey.lt_iff]
            · grind
          · intro same
            exact ⟨version, by simp, Option.some.inj same, seen⟩

/-- A backward scan finds the last live pair of a beginning of the versions, provided that a key cut
in two by the end of the beginning was looked up before and is not live. -/
theorem scanBackward_eq {reversed after : List Version} {checked : Option Bytes}
    (split : table.versions = reversed.reverse ++ after)
    (closed : ∀ version ∈ reversed, ∀ other ∈ after, other.stamp.key = version.stamp.key →
      checked = some version.stamp.key)
    (barren : ∀ key, checked = some key → table.valueAt? key sequence = none) :
    scanBackward table sequence checked reversed =
      (reversed.filterMap (table.livePair? sequence)).head? := by
  induction reversed generalizing after checked with
  | nil => rfl
  | cons version earlier ih =>
    have next : table.versions = earlier.reverse ++ version :: after := by
      rw [split, List.reverse_cons, List.append_assoc, List.singleton_append]
    rw [scanBackward]
    split
    · rename_i known
      rw [List.filterMap_cons_none (livePair?_eq_none_of_barren (barren _ known))]
      refine ih next ?_ barren
      intro other member second late same
      rcases List.mem_cons.mp late with rfl | late
      · exact same ▸ known
      · exact closed other (List.mem_cons_of_mem version member) second late same
    · rename_i unknown
      split
      · rename_i value found
        obtain ⟨newest, isNewest, present⟩ := valueAt?_eq_some_iff.mp found
        have member : newest ∈ version :: earlier := by
          have held := isNewest.member
          rw [split, List.mem_append, List.mem_reverse] at held
          rcases held with inside | outside
          · exact inside
          · exact absurd (closed version List.mem_cons_self newest outside isNewest.ofKey) unknown
        obtain ⟨later, rest, parts⟩ := List.append_of_mem member
        have descending : (version :: earlier).Pairwise fun a b => b.stamp < a.stamp := by
          have ordered := table.ordered
          rw [split, List.pairwise_append, List.pairwise_reverse] at ordered
          exact ordered.1
        rw [List.head?_filterMap, eq_comm, List.findSome?_eq_some_iff]
        refine ⟨later, newest, rest, parts,
          livePair?_eq_some_iff.mpr ⟨isNewest, present⟩, ?_⟩
        intro other between
        have above : newest.stamp < other.stamp := by
          rw [parts, List.pairwise_append] at descending
          exact descending.2.2 other between newest List.mem_cons_self
        have below : other.stamp.key ≤ version.stamp.key := by
          have inside : other ∈ version :: earlier := parts ▸ List.mem_append_left _ between
          rcases List.mem_cons.mp inside with rfl | inside
          · exact List.le_refl _
          · have less := (List.pairwise_cons.mp descending).1 other inside
            grind [VersionKey.lt_iff]
        have same : newest.stamp.key = other.stamp.key := by
          have ofKey := isNewest.ofKey
          grind [VersionKey.lt_iff]
        exact livePair?_eq_none_of_older isNewest.member same above isNewest.seen
      · rename_i nothing
        rw [List.filterMap_cons_none (livePair?_eq_none_of_barren nothing)]
        refine ih next ?_ ?_
        · intro other member second late same
          rcases List.mem_cons.mp late with rfl | late
          · rw [same]
          · have ordered := table.ordered
            rw [next, List.pairwise_append, List.pairwise_cons] at ordered
            have precedes := ordered.2.2 other (List.mem_reverse.mpr member) version
              List.mem_cons_self
            have follows := ordered.2.1.1 second late
            have between : version.stamp.key = other.stamp.key := by
              grind [VersionKey.lt_iff]
            have cut := closed other (List.mem_cons_of_mem version member) second late same
            exact absurd (between ▸ cut) unknown
        · intro key known
          exact Option.some.inj known ▸ nothing

private theorem live_filter (p : Bytes → Bool) :
    (table.live sequence).filter (fun pair => p pair.1) =
      (table.versions.filter fun version => p version.stamp.key).filterMap
        (table.livePair? sequence) := by
  rw [live_eq, List.filter_filterMap, List.filterMap_filter]
  congr 1
  funext version
  cases found : table.livePair? sequence version with
  | none => simp
  | some pair =>
    have same := (livePair?_eq_some_iff.mp found).1.ofKey
    simp [Option.filter, same]

theorem firstFrom_eq {walker : TableWalker} {bound : Bound} {p : Bytes → Bool}
    (cut : ∀ version, bound.isAfter version = !p version.stamp.key)
    (absorbs : Direction.forward.Absorbs p) :
    walker.firstFrom table bound =
      (table.live walker.sequence).find? fun pair => p pair.1 := by
  have lost : table.versions.Pairwise fun a b => bound.isAfter b = true → bound.isAfter a = true := by
    refine List.Pairwise.imp ?_ table.ordered
    intro a b earlier
    simp only [cut, Bool.not_eq_true']
    intro short
    by_cases reached : p a.stamp.key = true
    · rcases VersionKey.lt_iff.mp earlier with less | ⟨same, _⟩
      · exact absurd (absorbs _ _ less reached) (by simp [short])
      · exact same ▸ short
    · simpa using reached
  have rest : table.versionsFrom bound = table.versions.filter fun version => p version.stamp.key := by
    rw [VersionTable.versionsFrom, dropWhile_eq_filter lost]
    simp only [cut, Bool.not_not]
  have split : table.versions = table.versions.takeWhile bound.isAfter ++ table.versionsFrom bound :=
    List.takeWhile_append_dropWhile.symm
  rw [firstFrom, scanForward_eq split, rest, ← live_filter p, List.head?_filter]
  intro version member
  rw [rest, List.mem_filter] at member
  have reached := member.2
  constructor
  · rintro ⟨other, early, same, _⟩
    have short := List.all_eq_true.mp List.all_takeWhile other early
    rw [cut, same, reached] at short
    exact absurd short (by simp)
  · intro impossible
    exact absurd impossible (by simp)

theorem lastTo_eq {walker : TableWalker} {bound : Bound} {p : Bytes → Bool}
    (cut : ∀ version, bound.covers version = p version.stamp.key)
    (absorbs : Direction.backward.Absorbs p) :
    walker.lastTo table bound =
      (table.live walker.sequence).reverse.find? fun pair => p pair.1 := by
  have lost : table.versions.Pairwise fun a b => bound.covers b = true → bound.covers a = true := by
    refine List.Pairwise.imp ?_ table.ordered
    intro a b earlier
    simp only [cut]
    intro reached
    rcases VersionKey.lt_iff.mp earlier with less | ⟨same, _⟩
    · exact absorbs _ _ less reached
    · exact same ▸ reached
  have start : table.versions.takeWhile bound.covers =
      table.versions.filter fun version => p version.stamp.key := by
    rw [takeWhile_eq_filter lost]
    exact congrArg (List.filter · table.versions) (funext cut)
  have split : table.versions =
      (table.versionsTo bound).reverse ++ table.versions.dropWhile bound.covers := by
    rw [VersionTable.versionsTo, List.reverse_reverse, List.takeWhile_append_dropWhile]
  rw [lastTo, scanBackward_eq split, VersionTable.versionsTo, start, List.filterMap_reverse,
    ← live_filter p, ← List.filter_reverse, List.head?_filter]
  · intro version member other late same
    rw [VersionTable.versionsTo, List.mem_reverse, start, List.mem_filter] at member
    rw [dropWhile_eq_filter lost, List.mem_filter, cut, same] at late
    exact absurd late.2 (by simp [member.2])
  · intro key impossible
    exact absurd impossible (by simp)

/-- A walker moves among the live pairs of its table at its sequence number. -/
theorem destination_eq (walker : TableWalker) (table : VersionTable) (move : Move) :
    walker.destination table move =
      move.landing (table.live walker.sequence) walker.current := by
  cases move with
  | first =>
    have found : walker.firstFrom table .unbounded =
        (table.live walker.sequence).find? fun _ => true :=
      firstFrom_eq (p := fun _ => true) (fun _ => rfl) (fun _ _ _ reached => reached)
    rw [destination, found, Move.landing]
    cases table.live walker.sequence <;> rfl
  | last =>
    have found : walker.lastTo table .unbounded =
        (table.live walker.sequence).reverse.find? fun _ => true :=
      lastTo_eq (p := fun _ => true) (fun _ => rfl) (fun _ _ _ reached => reached)
    rw [destination, found, Move.landing, ← List.head?_reverse]
    cases (table.live walker.sequence).reverse <;> rfl
  | seek target =>
    refine firstFrom_eq (p := fun key => decide (target ≤ key)) ?_ ?_
    · intro version
      simp only [Bound.isAfter, VersionKey.lt_firstOf_iff]
      grind
    · intro a b less reached
      simp only [Direction.before] at less
      grind
  | next =>
    rw [destination, Move.landing]
    congr 1
    funext entry
    refine firstFrom_eq ?_ (Direction.absorbs_beyond .forward entry.1)
    intro version
    simp only [Bound.isAfter, VersionKey.lastOf_lt_iff]
    rfl
  | prev =>
    rw [destination, Move.landing]
    congr 1
    funext entry
    refine lastTo_eq ?_ (Direction.absorbs_beyond .backward entry.1)
    intro version
    simp only [Bound.covers, VersionKey.lt_firstOf_iff]
    rfl

end TableWalker
end KeyScan
