import Mathlib.Logic.Function.Defs
import KeyScan.Text.Grouped

namespace KeyScan.Text

/-- A text in thousands: a first group of one to three digits, then groups of exactly three, each after a
comma. -/
structure Thousands (text : String) (first : List Char) (rest : List (List Char)) : Prop where
  written : text.toList = first ++ rest.flatMap (',' :: ·)
  first_pos : 0 < first.length
  first_le : first.length ≤ 3
  rest_eq : ∀ group ∈ rest, group.length = 3
  digits : ∀ c ∈ first ++ rest.flatten, c.isDigit = true

def withoutCommas (text : String) : String := String.ofList (text.toList.filter (· ≠ ','))

private theorem exists_triples_eq {α : Type} {items : List α} (occupied : items ≠ []) :
    ∃ full last, triples items = full ++ [last] ∧ (∀ group ∈ full, group.length = 3) ∧
      0 < last.length ∧ last.length ≤ 3 := by
  fun_induction triples items with
  | case1 => exact absurd rfl occupied
  | case2 a => exact ⟨[], [a], rfl, by simp, by simp, by simp⟩
  | case3 a b => exact ⟨[], [a, b], rfl, by simp, by simp, by simp⟩
  | case4 a b c rest ih =>
    by_cases done : rest = []
    · subst done
      exact ⟨[], [a, b, c], rfl, by simp, by simp, by simp⟩
    · obtain ⟨full, last, parted, threes, atLeast, atMost⟩ := ih done
      exact ⟨[a, b, c] :: full, last, by rw [parted, List.cons_append],
        List.forall_mem_cons.mpr ⟨rfl, threes⟩, atLeast, atMost⟩

private theorem flatten_digitGroups (n : Nat) : (digitGroups n).flatten = Nat.toDigits 10 n := by
  rw [digitGroups, ← List.reverse_flatten, flatten_triples, List.reverse_reverse]

/-- The groups cut off from the right, as they stand from the left. -/
theorem exists_digitGroups_eq (n : Nat) :
    ∃ first rest, digitGroups n = first :: rest ∧ 0 < first.length ∧ first.length ≤ 3 ∧
      ∀ group ∈ rest, group.length = 3 := by
  have occupied : (Nat.toDigits 10 n).reverse ≠ [] := by
    rw [ne_eq, List.reverse_eq_nil_iff]
    exact Nat.toDigits_ne_nil
  obtain ⟨full, last, parted, threes, atLeast, atMost⟩ := exists_triples_eq occupied
  refine ⟨last.reverse, (full.map List.reverse).reverse, ?_, ?_, ?_, ?_⟩
  · rw [digitGroups, parted, List.map_append, List.reverse_append]
    rfl
  · rwa [List.length_reverse]
  · rwa [List.length_reverse]
  · intro group member
    obtain ⟨turned, place, rfl⟩ := List.mem_map.mp (List.mem_reverse.mp member)
    rw [List.length_reverse]
    exact threes turned place

private theorem flatten_intersperse {α : Type} (item : α) (first : List α) (rest : List (List α)) :
    ((first :: rest).intersperse [item]).flatten = first ++ rest.flatMap (item :: ·) := by
  induction rest generalizing first with
  | nil => simp
  | cons next rest ih =>
    rw [List.intersperse_cons_cons, List.flatten_cons, List.flatten_cons, ih, List.flatMap_cons]
    rfl

theorem exists_thousands_grouped (n : Nat) :
    ∃ first rest, Thousands (grouped n) first rest ∧ first ++ rest.flatten = Nat.toDigits 10 n := by
  obtain ⟨first, rest, parted, atLeast, atMost, threes⟩ := exists_digitGroups_eq n
  have joined : first ++ rest.flatten = Nat.toDigits 10 n := by
    rw [← flatten_digitGroups, parted, List.flatten_cons]
  refine ⟨first, rest, ⟨?_, atLeast, atMost, threes, fun c member => ?_⟩, joined⟩
  · rw [grouped, String.toList_ofList, parted, flatten_intersperse]
  · rw [joined] at member
    exact Nat.isDigit_of_mem_toDigits (by decide) (by decide) member

section
variable {text text' : String} {first first' : List Char} {rest rest' : List (List Char)}

private theorem ne_comma {c : Char} (digit : c.isDigit = true) : c ≠ ',' := by
  rintro rfl
  exact absurd digit (by decide)

theorem Thousands.ne_empty (thousands : Thousands text first rest) : text ≠ "" := by
  rintro rfl
  have nothing : [] = first ++ rest.flatMap (',' :: ·) := thousands.written
  have none : first = [] := (List.append_eq_nil_iff.mp nothing.symm).1
  exact absurd thousands.first_pos (by simp [none])

private theorem filter_digits {digits : List Char} (allDigits : ∀ c ∈ digits, c.isDigit = true) :
    digits.filter (· ≠ ',') = digits :=
  List.filter_eq_self.mpr fun c member => decide_eq_true (ne_comma (allDigits c member))

private theorem filter_flatMap_comma (digits : ∀ c ∈ rest.flatten, c.isDigit = true) :
    (rest.flatMap (',' :: ·)).filter (· ≠ ',') = rest.flatten := by
  induction rest with
  | nil => rfl
  | cons group rest ih =>
    rw [List.flatten_cons, List.forall_mem_append] at digits
    rw [List.flatMap_cons, List.cons_append, List.filter_cons_of_neg (by decide), List.filter_append,
      filter_digits digits.1, ih digits.2, List.flatten_cons]

theorem Thousands.withoutCommas_eq (thousands : Thousands text first rest) :
    withoutCommas text = String.ofList (first ++ rest.flatten) := by
  obtain ⟨inFirst, inRest⟩ := List.forall_mem_append.mp thousands.digits
  rw [withoutCommas, thousands.written, List.filter_append, filter_digits inFirst,
    filter_flatMap_comma inRest]

/-- There is one way only to put digits into thousands. -/
theorem Thousands.unique (thousands : Thousands text first rest)
    (thousands' : Thousands text' first' rest')
    (same : first ++ rest.flatten = first' ++ rest'.flatten) : text = text' := by
  have threes := List.map_eq_replicate_iff.mpr thousands.rest_eq
  have threes' := List.map_eq_replicate_iff.mpr thousands'.rest_eq
  have total := congrArg List.length same
  rw [List.length_append, List.length_append, List.length_flatten, List.length_flatten, threes, threes',
    List.sum_replicate_nat, List.sum_replicate_nat] at total
  have atLeast := thousands.first_pos
  have atMost := thousands.first_le
  have atLeast' := thousands'.first_pos
  have atMost' := thousands'.first_le
  -- the first groups have as many digits as each other, for both counts are from one to three
  obtain ⟨sameFirst, sameOthers⟩ := List.append_inj same (by omega)
  have sameRest : rest = rest' := by
    refine List.eq_iff_flatten_eq.mpr ⟨sameOthers, ?_⟩
    rw [threes, threes', (by omega : rest.length = rest'.length)]
  rw [← String.toList_inj, thousands.written, thousands'.written, sameFirst, sameRest]

end

/-- A number in groups is the only text in thousands that is its decimal text without the commas. -/
theorem eq_grouped_iff {text : String} {n : Nat} :
    text = grouped n ↔ (∃ first rest, Thousands text first rest) ∧ withoutCommas text = Nat.repr n := by
  obtain ⟨first, rest, thousands, joined⟩ := exists_thousands_grouped n
  have digits : withoutCommas (grouped n) = Nat.repr n := by
    rw [thousands.withoutCommas_eq, joined, Nat.repr_eq_ofList_toDigits]
  constructor
  · rintro rfl
    exact ⟨⟨first, rest, thousands⟩, digits⟩
  · rintro ⟨⟨first', rest', thousands'⟩, digits'⟩
    refine thousands'.unique thousands (String.ofList_injective ?_)
    rw [← thousands'.withoutCommas_eq, ← thousands.withoutCommas_eq, digits, digits']

/-- A number in groups is never the empty text, it is in thousands, and without its commas it is the decimal
text of the number; so no two numbers are written alike. -/
theorem grouped_in_thousands :
    (∀ n, grouped n ≠ "" ∧ (∃ first rest, Thousands (grouped n) first rest) ∧
      withoutCommas (grouped n) = Nat.repr n) ∧
    Function.Injective grouped := by
  refine ⟨fun n => ?_, fun m n same => ?_⟩
  · obtain ⟨⟨first, rest, thousands⟩, digits⟩ := eq_grouped_iff.mp (rfl : grouped n = grouped n)
    exact ⟨thousands.ne_empty, ⟨first, rest, thousands⟩, digits⟩
  · have left := (eq_grouped_iff.mp (rfl : grouped m = grouped m)).2
    have right := (eq_grouped_iff.mp (rfl : grouped n = grouped n)).2
    have digits : Nat.toDigits 10 m = Nat.toDigits 10 n := by
      rw [← Nat.toList_repr, ← Nat.toList_repr, ← left, ← right, same]
    -- the digits read back give the number
    calc
      m = Nat.ofDigitChars 10 (Nat.toDigits 10 m) 0 := Nat.ofDigitChars_ten_toDigits.symm
      _ = Nat.ofDigitChars 10 (Nat.toDigits 10 n) 0 := by rw [digits]
      _ = n := Nat.ofDigitChars_ten_toDigits

/-- A comma stands before the last three digits from a thousand on. -/
example : grouped 0 = "0" ∧ grouped 999 = "999" ∧ grouped 1000 = "1,000" ∧
    grouped 18446744073709551615 = "18,446,744,073,709,551,615" := by decide

end KeyScan.Text
