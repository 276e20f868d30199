import KeyScan.Direction

/-! Ascending pairs and travel through them. A predicate that, once it holds of a key, holds of all
later ones cuts the pairs at one place; what lies ahead of an iterator is always such a rest. -/
namespace KeyScan

section Prefix

variable {α : Type} {p : α → Bool} {items : List α}

/-- Where a predicate is not regained once it is lost, its longest prefix holds all it is true of. -/
theorem takeWhile_eq_filter (lost : items.Pairwise fun a b => p b = true → p a = true) :
    items.takeWhile p = items.filter p := by
  induction items with
  | nil => rfl
  | cons item rest ih =>
    have ⟨head, tail⟩ := List.pairwise_cons.mp lost
    by_cases holds : p item = true
    · rw [List.takeWhile_cons_of_pos holds, List.filter_cons_of_pos holds, ih tail]
    · rw [List.takeWhile_cons_of_neg holds, eq_comm, List.filter_eq_nil_iff]
      intro other member regained
      rcases List.mem_cons.mp member with rfl | member
      · exact holds regained
      · exact holds (head other member regained)

theorem dropWhile_eq_filter (lost : items.Pairwise fun a b => p b = true → p a = true) :
    items.dropWhile p = items.filter fun item => !p item := by
  induction items with
  | nil => rfl
  | cons item rest ih =>
    have ⟨head, tail⟩ := List.pairwise_cons.mp lost
    by_cases holds : p item = true
    · rw [List.dropWhile_cons_of_pos holds, List.filter_cons_of_neg (by simp [holds]), ih tail]
    · rw [List.dropWhile_cons_of_neg holds, eq_comm, List.filter_eq_self]
      intro other member
      rcases List.mem_cons.mp member with rfl | member
      · simpa using holds
      · by_cases regained : p other = true
        · exact absurd (head other member regained) holds
        · simpa using regained

end Prefix

/-- Pairs in strictly ascending order of keys, so that no key is repeated. -/
def Ascending (pairs : List (Bytes × Bytes)) : Prop := pairs.Pairwise fun a b => a.1 < b.1

theorem Ascending.filter {pairs : List (Bytes × Bytes)} (ascending : Ascending pairs)
    (p : Bytes × Bytes → Bool) : Ascending (pairs.filter p) :=
  List.Pairwise.filter p ascending

private theorem Ascending.nodup {pairs : List (Bytes × Bytes)} (ascending : Ascending pairs) :
    pairs.Nodup := by
  refine List.Pairwise.imp ?_ ascending
  intro a b less same
  exact List.lt_irrefl a.1 (same ▸ less)

/-- Ascending pairs are known by their members. -/
theorem Ascending.ext {first second : List (Bytes × Bytes)} (one : Ascending first)
    (two : Ascending second) (same : ∀ pair, pair ∈ first ↔ pair ∈ second) : first = second := by
  refine List.Perm.eq_of_pairwise ?_ one two
    ((List.perm_ext_iff_of_nodup one.nodup two.nodup).mpr same)
  intro a b _ _ less greater
  exact absurd (List.lt_trans less greater) (List.lt_irrefl a.1)

/-- Where a move leads among pairs. -/
def Move.landing (pairs : List (Bytes × Bytes)) (current : Option (Bytes × Bytes)) :
    Move → Option (Bytes × Bytes)
  | .first => pairs.head?
  | .last => pairs.getLast?
  | .seek target => pairs.find? fun pair => decide (target ≤ pair.1)
  | .next => current.bind fun here => pairs.find? fun pair => decide (here.1 < pair.1)
  | .prev => current.bind fun here => pairs.reverse.find? fun pair => decide (pair.1 < here.1)

theorem Move.mem_of_landing {pairs : List (Bytes × Bytes)} {current : Option (Bytes × Bytes)}
    {move : Move} {here : Bytes × Bytes} (lands : move.landing pairs current = some here) :
    here ∈ pairs := by
  cases move with
  | first => exact List.mem_of_head? lands
  | last => exact List.mem_of_getLast? lands
  | seek target => exact List.mem_of_find?_eq_some lands
  | next =>
    obtain ⟨_, -, found⟩ := Option.bind_eq_some_iff.mp lands
    exact List.mem_of_find?_eq_some found
  | prev =>
    obtain ⟨_, -, found⟩ := Option.bind_eq_some_iff.mp lands
    exact List.mem_reverse.mp (List.mem_of_find?_eq_some found)

namespace Direction

variable {direction : Direction} {pairs : List (Bytes × Bytes)}

theorem before_irrefl (direction : Direction) (key : Bytes) : ¬ direction.before key key := by
  cases direction <;> exact List.lt_irrefl key

theorem before_trans {a b c : Bytes} (first : direction.before a b)
    (second : direction.before b c) : direction.before a c := by
  cases direction with
  | forward => exact List.lt_trans first second
  | backward => exact List.lt_trans second first

theorem before_of_not_before {a b : Bytes} (notBefore : ¬ direction.before a b) (apart : a ≠ b) :
    direction.before b a := by
  cases direction with
  | forward => exact Std.lt_of_le_of_ne (List.not_lt.mp notBefore) (Ne.symm apart)
  | backward => exact Std.lt_of_le_of_ne (List.not_lt.mp notBefore) apart

/-- Pairs in ascending order of keys, as travel meets them. -/
def arrange (direction : Direction) (pairs : List (Bytes × Bytes)) : List (Bytes × Bytes) :=
  match direction with
  | .forward => pairs
  | .backward => pairs.reverse

theorem mem_arrange {pair : Bytes × Bytes} :
    pair ∈ direction.arrange pairs ↔ pair ∈ pairs := by
  cases direction with
  | forward => exact Iff.rfl
  | backward => exact List.mem_reverse

private theorem length_arrange : (direction.arrange pairs).length = pairs.length := by
  cases direction with
  | forward => rfl
  | backward => exact List.length_reverse

theorem arrange_filter (p : Bytes × Bytes → Bool) :
    direction.arrange (pairs.filter p) = (direction.arrange pairs).filter p := by
  cases direction with
  | forward => rfl
  | backward => exact List.filter_reverse.symm

theorem arrange_pairwise (ascending : Ascending pairs) :
    (direction.arrange pairs).Pairwise fun a b => direction.before a.1 b.1 := by
  cases direction with
  | forward => exact ascending
  | backward => exact List.pairwise_reverse.mpr ascending

/-- The pairs whose keys satisfy a predicate, in the order of travel. -/
def ahead (direction : Direction) (pairs : List (Bytes × Bytes)) (p : Bytes → Bool) :
    List (Bytes × Bytes) :=
  (direction.arrange pairs).filter fun pair => p pair.1

def beyond (direction : Direction) (pairs : List (Bytes × Bytes)) (key : Bytes) :
    List (Bytes × Bytes) :=
  direction.ahead pairs fun other => decide (direction.before key other)

def since (direction : Direction) (pairs : List (Bytes × Bytes)) (key : Bytes) :
    List (Bytes × Bytes) :=
  direction.ahead pairs fun other => !decide (direction.before other key)

theorem mem_ahead {p : Bytes → Bool} {pair : Bytes × Bytes} :
    pair ∈ direction.ahead pairs p ↔ pair ∈ pairs ∧ p pair.1 = true := by
  rw [ahead, List.mem_filter, mem_arrange]

theorem length_ahead_le (p : Bytes → Bool) :
    (direction.ahead pairs p).length ≤ pairs.length := by
  have bound := List.length_filter_le (fun pair : Bytes × Bytes => p pair.1)
    (direction.arrange pairs)
  rwa [length_arrange] at bound

theorem ahead_pairwise (ascending : Ascending pairs) (p : Bytes → Bool) :
    (direction.ahead pairs p).Pairwise fun a b => direction.before a.1 b.1 :=
  List.Pairwise.filter _ (arrange_pairwise ascending)

/-- A predicate that travel does not leave once it has reached it. -/
def Absorbs (direction : Direction) (p : Bytes → Bool) : Prop :=
  ∀ a b, direction.before a b → p a = true → p b = true

theorem absorbs_beyond (direction : Direction) (key : Bytes) :
    direction.Absorbs fun other => decide (direction.before key other) := by
  intro a b earlier reached
  exact decide_eq_true (before_trans (of_decide_eq_true reached) earlier)

theorem absorbs_since (direction : Direction) (key : Bytes) :
    direction.Absorbs fun other => !decide (direction.before other key) := by
  intro a b earlier reached
  simp only [Bool.not_eq_true', decide_eq_false_iff_not] at reached ⊢
  intro later
  exact reached (before_trans earlier later)

/-- Once travel is in the pairs of an absorbing predicate, what follows the first of them is
whatever lies beyond it. -/
theorem ahead_eq_cons {p : Bytes → Bool} {pair : Bytes × Bytes} (ascending : Ascending pairs)
    (absorbs : direction.Absorbs p) (head : (direction.ahead pairs p).head? = some pair) :
    direction.ahead pairs p = pair :: direction.beyond pairs pair.1 := by
  obtain ⟨rest, same⟩ := List.head?_eq_some_iff.mp head
  have ordered : (direction.ahead pairs p).Pairwise fun a b => direction.before a.1 b.1 :=
    ahead_pairwise ascending p
  rw [same, List.pairwise_cons] at ordered
  have reached : p pair.1 = true :=
    (mem_ahead.mp (same ▸ List.mem_cons_self : pair ∈ direction.ahead pairs p)).2
  have kept : rest.filter (fun other => decide (direction.before pair.1 other.1)) = rest := by
    refine List.filter_eq_self.mpr ?_
    intro other member
    exact decide_eq_true (ordered.1 other member)
  have narrowed : (direction.ahead pairs p).filter
      (fun other => decide (direction.before pair.1 other.1)) =
        direction.beyond pairs pair.1 := by
    rw [ahead, List.filter_filter]
    refine List.filter_congr ?_
    intro other _
    by_cases later : direction.before pair.1 other.1
    · simp [later, absorbs pair.1 other.1 later reached]
    · simp [later]
  rw [same, List.filter_cons_of_neg (by simpa using before_irrefl direction pair.1), kept]
    at narrowed
  rw [same, narrowed]

/-! The moves of travel, whatever the direction. -/

theorem landing_outset (current : Option (Bytes × Bytes)) :
    direction.outset.landing pairs current = (direction.arrange pairs).head? := by
  cases direction with
  | forward => rfl
  | backward => exact List.head?_reverse.symm

theorem landing_step (pair : Bytes × Bytes) :
    direction.step.landing pairs (some pair) = (direction.beyond pairs pair.1).head? := by
  cases direction with
  | forward => exact List.head?_filter.symm
  | backward => exact List.head?_filter.symm

theorem landing_step_none : direction.step.landing pairs none = none := by
  cases direction <;> rfl

/-- What lies beyond a pair is what travel meets after it. -/
theorem beyond_eq_drop {place : Nat} {pair : Bytes × Bytes} (ascending : Ascending pairs)
    (found : (direction.arrange pairs)[place]? = some pair) :
    direction.beyond pairs pair.1 = (direction.arrange pairs).drop (place + 1) := by
  obtain ⟨inside, same⟩ := List.getElem?_eq_some_iff.mp found
  have split : direction.arrange pairs =
      (direction.arrange pairs).take place ++ pair :: (direction.arrange pairs).drop (place + 1) := by
    rw [← same, List.getElem_cons_drop, List.take_append_drop]
  have ordered : (direction.arrange pairs).Pairwise fun a b => direction.before a.1 b.1 :=
    arrange_pairwise ascending
  rw [split, List.pairwise_append, List.pairwise_cons] at ordered
  have passed : ((direction.arrange pairs).take place).filter
      (fun other => decide (direction.before pair.1 other.1)) = [] := by
    refine List.filter_eq_nil_iff.mpr ?_
    intro other early later
    have earlier := ordered.2.2 other early pair List.mem_cons_self
    exact before_irrefl direction pair.1 (before_trans (of_decide_eq_true later) earlier)
  have kept : ((direction.arrange pairs).drop (place + 1)).filter
      (fun other => decide (direction.before pair.1 other.1)) =
        (direction.arrange pairs).drop (place + 1) := by
    refine List.filter_eq_self.mpr ?_
    intro other late
    exact decide_eq_true (ordered.2.1.1 other late)
  calc direction.beyond pairs pair.1
      = ((direction.arrange pairs).take place ++
          pair :: (direction.arrange pairs).drop (place + 1)).filter
            fun other => decide (direction.before pair.1 other.1) := by rw [← split]; rfl
    _ = (direction.arrange pairs).drop (place + 1) := by
      rw [List.filter_append, passed, List.nil_append,
        List.filter_cons_of_neg (by simpa using before_irrefl direction pair.1), kept]

/-- A step leads from one place of travel to the next. -/
theorem landing_step_getElem? (ascending : Ascending pairs) (place : Nat) :
    direction.step.landing pairs (direction.arrange pairs)[place]? =
      (direction.arrange pairs)[place + 1]? := by
  cases found : (direction.arrange pairs)[place]? with
  | none =>
    have short := List.getElem?_eq_none_iff.mp found
    rw [landing_step_none, List.getElem?_eq_none (by omega)]
  | some pair => rw [landing_step, beyond_eq_drop ascending found, List.head?_drop]

theorem landing_step_terminus (ascending : Ascending pairs) (current : Option (Bytes × Bytes)) :
    direction.step.landing pairs (direction.terminus.landing pairs current) = none := by
  have last : direction.terminus.landing pairs current = (direction.arrange pairs).getLast? := by
    cases direction with
    | forward => rfl
    | backward => exact List.getLast?_reverse.symm
  cases found : (direction.arrange pairs).getLast? with
  | none => rw [last, found, landing_step_none]
  | some pair =>
    obtain ⟨init, same⟩ := List.getLast?_eq_some_iff.mp found
    have ordered : (direction.arrange pairs).Pairwise fun a b => direction.before a.1 b.1 :=
      arrange_pairwise ascending
    rw [same, List.pairwise_append] at ordered
    have nothing : direction.beyond pairs pair.1 = [] := by
      refine List.filter_eq_nil_iff.mpr ?_
      intro other member later
      have later := of_decide_eq_true later
      rw [same, List.mem_append, List.mem_singleton] at member
      rcases member with early | equal
      · exact before_irrefl direction pair.1
          (before_trans later (ordered.2.2 other early pair (List.mem_singleton_self pair)))
      · exact before_irrefl direction pair.1 (equal ▸ later)
    rw [last, found, landing_step, nothing]
    rfl

end Direction
end KeyScan
