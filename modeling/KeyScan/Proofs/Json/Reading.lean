import Mathlib.Algebra.Group.Nat.Defs
import Mathlib.Data.Fintype.Basic
import Mathlib.Data.List.DropRight
import Mathlib.Tactic.FinCases
import KeyScan.Json.Reader
import KeyScan.Proofs.Json.Spelling

namespace KeyScan.Json

variable {cs rest : List Char}

/-! Blanks. -/

private theorem isBlank_iff {c : Char} :
    isBlank c = true ↔ c = ' ' ∨ c = '\t' ∨ c = '\n' ∨ c = '\r' := by
  simp [isBlank, or_assoc]

private theorem skipBlanks_append {blanks : List Char} (blank : Blank blanks) (cs : List Char) :
    skipBlanks (blanks ++ cs) = skipBlanks cs := by
  unfold skipBlanks
  rw [List.dropWhile_append_of_pos fun c member => isBlank_iff.mpr (blank c member)]

private theorem skipBlanks_skipBlanks (cs : List Char) : skipBlanks (skipBlanks cs) = skipBlanks cs :=
  List.dropWhile_idempotent ..

private theorem skipBlanks_cons {c : Char} (token : isBlank c = false) (cs : List Char) :
    skipBlanks (c :: cs) = c :: cs := List.dropWhile_cons_of_neg (by simp [token])

/-! Digits. -/

def Undigited (rest : List Char) : Prop := ∀ c ∈ rest.head?, c.isDigit = false

private theorem digit?_digitChar (digit : Fin 10) : digit? (Nat.digitChar digit.val) = some digit := by
  revert digit
  decide

private theorem digit?_of_not_isDigit {c : Char} (other : c.isDigit = false) : digit? c = none := by
  simp [digit?, other]

private theorem readDigits_append (digits : List (Fin 10)) (ends : Undigited rest) :
    readDigits (digits.map (fun digit => Nat.digitChar digit.val) ++ rest) = (digits, rest) := by
  induction digits with
  | nil =>
    cases rest with
    | nil => rfl
    | cons c rest =>
      have other : c.isDigit = false := ends c rfl
      simp [readDigits, digit?_of_not_isDigit other]
  | cons digit digits ih => simp [readDigits, digit?_digitChar, ih]

private theorem ofDigits_concat (digits : List (Fin 10)) (digit : Fin 10) :
    ofDigits (digits ++ [digit]) = ofDigits digits * 10 + digit.val := by
  simp [ofDigits]

/-- The decimal text of a number is made of digits that denote it, and starts with a zero only if it
has no other digit. -/
theorem exists_digits (n : Nat) :
    ∃ first more, Nat.toDigits 10 n = (first :: more).map (fun digit : Fin 10 => Nat.digitChar digit.val) ∧
      ofDigits (first :: more) = n ∧ (first = 0 → more = []) := by
  induction n using Nat.strongRecOn with
  | ind n ih =>
    by_cases small : n < 10
    · refine ⟨⟨n, small⟩, [], ?_, ?_, fun _ => rfl⟩
      · rw [Nat.toDigits_of_lt_base small]
        rfl
      · simp [ofDigits]
    · obtain ⟨first, more, text, value, leading⟩ := ih (n / 10) (by omega)
      refine ⟨first, more ++ [⟨n % 10, Nat.mod_lt n (by decide)⟩], ?_, ?_, fun zero => ?_⟩
      · rw [Nat.toDigits_of_base_le (by decide) (by omega), text]
        simp
      · rw [← List.cons_append, ofDigits_concat, value]
        exact Nat.div_add_mod' n 10
      · -- a quotient that starts with a zero is zero, but there is a ten in the number
        rw [leading zero, zero] at value
        have nothing : n / 10 = 0 := value.symm
        omega

private theorem ofDigits_zeros (zeros : Nat) (digits : List (Fin 10)) :
    ofDigits (List.replicate zeros 0 ++ digits) = ofDigits digits := by
  induction zeros with
  | zero => rfl
  | succ zeros ih => simpa [List.replicate_succ, ofDigits] using ih

/-! Numbers. -/

/-- A text that does not go on with what could belong to a number. -/
def Unnumbered (rest : List Char) : Prop :=
  ∀ c ∈ rest.head?, c.isDigit = false ∧ c ≠ '.' ∧ c ≠ 'e' ∧ c ≠ 'E'

private theorem Unnumbered.undigited (ends : Unnumbered rest) :
    Undigited rest := fun c first => (ends c first).1

private theorem readWhole_append (whole : Nat) (ends : Undigited rest) :
    readWhole (Nat.toDigits 10 whole ++ rest) = some (whole, rest) := by
  obtain ⟨first, more, text, value, leading⟩ := exists_digits whole
  unfold readWhole
  rw [text, readDigits_append _ ends]
  have proper : ¬ (first = 0 ∧ more ≠ []) := fun both => both.2 (leading both.1)
  simp only [if_neg proper, value]

private theorem readFraction_append {fraction : List (Fin 10)} (spelled : SpellsFraction fraction cs)
    (ends : Undigited rest) (noPoint : ∀ c ∈ rest.head?, c ≠ '.') :
    readFraction (cs ++ rest) = some (fraction, rest) := by
  cases spelled with
  | absent =>
    cases rest with
    | nil => rfl
    | cons c rest =>
      have other : c ≠ '.' := noPoint c rfl
      simp [readFraction, other]
  | present some =>
    simp only [List.cons_append, readFraction, readDigits_append _ ends]

/-- The decimal text of a number after any zeros is made of digits that denote the number. -/
theorem exists_digits_padded (zeros n : Nat) :
    ∃ first more, List.replicate zeros '0' ++ Nat.toDigits 10 n =
        (first :: more).map (fun digit : Fin 10 => Nat.digitChar digit.val) ∧
      ofDigits (first :: more) = n := by
  obtain ⟨first, more, text, value, -⟩ := exists_digits n
  have all : List.replicate zeros '0' ++ Nat.toDigits 10 n =
      (List.replicate zeros 0 ++ first :: more).map fun digit : Fin 10 => Nat.digitChar digit.val := by
    rw [text, List.map_append, List.map_replicate]
    rfl
  have same := (ofDigits_zeros zeros (first :: more)).trans value
  obtain ⟨one, others, digits⟩ :=
    List.exists_cons_of_ne_nil (List.append_ne_nil_of_right_ne_nil (List.replicate zeros 0)
      (List.cons_ne_nil first more))
  rw [digits] at all same
  exact ⟨one, others, all, same⟩

private theorem digitChar_ne_sign (digit : Fin 10) :
    Nat.digitChar digit.val ≠ '-' ∧ Nat.digitChar digit.val ≠ '+' := by
  revert digit
  decide

private theorem readExponentDigits_append (negative : Bool) (zeros n : Nat) (ends : Undigited rest) :
    readExponentDigits negative (List.replicate zeros '0' ++ Nat.toDigits 10 n ++ rest) =
      some (some (if negative then -(n : Int) else n), rest) := by
  obtain ⟨first, more, text, value⟩ := exists_digits_padded zeros n
  unfold readExponentDigits
  rw [text, readDigits_append _ ends]
  simp only [value]

private theorem readExponent_append {exponent : Option Int} (spelled : SpellsExponent exponent cs)
    (ends : Unnumbered rest) : readExponent (cs ++ rest) = some (exponent, rest) := by
  cases spelled with
  | absent =>
    cases rest with
    | nil => rfl
    | cons c rest =>
      have other := ends c rfl
      simp [readExponent, other]
  | unsigned isMark zeros n =>
    have read := readExponentDigits_append false zeros n ends.undigited
    obtain ⟨first, more, text, -⟩ := exists_digits_padded zeros n
    have unsigned := digitChar_ne_sign first
    rw [text] at read ⊢
    simp only [List.cons_append, List.map_cons, readExponent, if_pos isMark] at read ⊢
    split
    · rename_i same
      exact absurd (List.cons.inj same).1 unsigned.1
    · rename_i same
      exact absurd (List.cons.inj same).1 unsigned.2
    · exact read
  | plus isMark zeros n =>
    simp only [List.cons_append, readExponent, if_pos isMark]
    exact readExponentDigits_append false zeros n ends.undigited
  | minus isMark zeros n =>
    simp only [List.cons_append, readExponent, if_pos isMark]
    exact readExponentDigits_append true zeros n ends.undigited

/-! What follows a part of a number cannot belong to an earlier part. -/

private theorem SpellsExponent.unnumbered {exponent : Option Int} (spelled : SpellsExponent exponent cs)
    (ends : Unnumbered rest) : ∀ c ∈ (cs ++ rest).head?, c.isDigit = false ∧ c ≠ '.' := by
  intro c first
  cases spelled with
  | absent => exact ⟨(ends c first).1, (ends c first).2.1⟩
  | unsigned isMark | plus isMark | minus isMark =>
    rw [List.cons_append, List.head?_cons, Option.mem_some_iff] at first
    rcases isMark with rfl | rfl <;> exact first ▸ by decide

private theorem SpellsFraction.undigited {fraction : List (Fin 10)} {after : List Char}
    (spelled : SpellsFraction fraction cs) (ends : Undigited after) : Undigited (cs ++ after) := by
  cases spelled with
  | absent => exact ends
  | present some =>
    intro c first
    rw [List.cons_append, List.head?_cons, Option.mem_some_iff] at first
    exact first ▸ by decide

theorem readNumeral_append {numeral : Numeral} (spelled : SpellsNumeral numeral cs)
    (ends : Unnumbered rest) : readNumeral (cs ++ rest) = some (numeral, rest) := by
  cases spelled with
  | @parts whole fraction exponent after mark negative point power =>
    have noDigit : Undigited (mark ++ rest) := fun c first => (power.unnumbered ends c first).1
    have noPoint : ∀ c ∈ (mark ++ rest).head?, c ≠ '.' := fun c first => (power.unnumbered ends c first).2
    have magnitude : readMagnitude negative (Nat.toDigits 10 whole ++ after ++ mark ++ rest) =
        some (⟨negative, whole, fraction, exponent⟩, rest) := by
      unfold readMagnitude
      rw [List.append_assoc, List.append_assoc, readWhole_append whole (point.undigited noDigit)]
      simp only [Option.bind_eq_bind, Option.bind_some, readFraction_append point noDigit noPoint,
        readExponent_append power ends]
    cases negative with
    | true => exact magnitude
    | false =>
      obtain ⟨first, more, text, -⟩ := exists_digits whole
      have unsigned := digitChar_ne_sign first
      rw [text] at magnitude ⊢
      simp only [Bool.false_eq_true, ↓reduceIte, List.nil_append, List.map_cons, List.cons_append] at magnitude ⊢
      unfold readNumeral
      split
      · rename_i same
        exact absurd (List.cons.inj same).1 unsigned.1
      · exact magnitude

/-! Strings. -/

private theorem hexDigit?_eq {c : Char} {n : Nat} (digit : HexDigit c n) : hexDigit? c = some n := by
  cases digit with
  | lower small =>
    revert n
    decide
  | upper small =>
    revert n
    decide

theorem readString_append {units : List UInt16} (spelled : SpellsUnits units cs) (rest : List Char) :
    readString (cs ++ '"' :: rest) = some (units, rest) := by
  induction spelled with
  | none => simp [readString]
  | plain printable noQuote noBackslash _ ih =>
    have proper := Nat.not_lt.mpr printable
    simp [readString, noBackslash, ih, proper]
  | short escape _ ih =>
    cases escape <;> simp [readString, ih, shortEscape?]
  | numbered first second third fourth _ ih =>
    simp [readString, unit?, hexDigit?_eq first, hexDigit?_eq second, hexDigit?_eq third,
      hexDigit?_eq fourth, ih]

/-! Values. Leading blanks make no difference. -/

private theorem readValue_congr {other : List Char} (same : skipBlanks cs = skipBlanks other)
    (bound : Nat) :
    readValue bound cs = readValue bound other := by
  cases bound with
  | zero => rfl
  | succ bound => simp only [readValue, same]

private theorem readMember_congr {other : List Char} (same : skipBlanks cs = skipBlanks other)
    (bound : Nat) :
    readMember bound cs = readMember bound other := by
  cases bound with
  | zero => rfl
  | succ bound => simp only [readMember, same]

private theorem readItems_congr {other : List Char} (same : skipBlanks cs = skipBlanks other)
    (bound : Nat) :
    readItems bound cs = readItems bound other := by
  cases bound with
  | zero => rfl
  | succ bound => simp only [readItems, readValue_congr same]

private theorem readMembers_congr {other : List Char} (same : skipBlanks cs = skipBlanks other)
    (bound : Nat) :
    readMembers bound cs = readMembers bound other := by
  cases bound with
  | zero => rfl
  | succ bound => simp only [readMembers, readMember_congr same]

private theorem SpellsNumeral.first {numeral : Numeral} (spelled : SpellsNumeral numeral cs) :
    ∃ c tail, cs = c :: tail ∧ (c = '-' ∨ ∃ digit : Fin 10, c = Nat.digitChar digit.val) := by
  cases spelled with
  | @parts whole _ _ after mark negative _ _ =>
    obtain ⟨first, more, text, -⟩ := exists_digits whole
    rw [text]
    cases negative with
    | true => exact ⟨_, _, rfl, .inl rfl⟩
    | false => exact ⟨_, _, rfl, .inr ⟨first, rfl⟩⟩

private theorem readValue_numeral {c : Char} {tail : List Char} (bound : Nat)
    (start : c = '-' ∨ ∃ digit : Fin 10, c = Nat.digitChar digit.val) :
    readValue (bound + 1) (c :: tail) =
      (readNumeral (c :: tail)).map fun (numeral, rest) => (.number numeral, rest) := by
  rcases start with rfl | ⟨digit, rfl⟩
  · rfl
  · fin_cases digit <;> rfl

/-- What is spelled starts with a token that closes nothing. -/
theorem Spells.first {phrase : Phrase} (spelled : Spells phrase cs) (rest : List Char) :
    ∃ c tail, skipBlanks (cs ++ rest) = c :: tail ∧ c ≠ ']' ∧ c ≠ '\x7d' := by
  induction spelled generalizing rest with
  | null | yes | no | string | emptyArray | array | emptyObject | object =>
    exact ⟨_, _, rfl, by decide, by decide⟩
  | number spelled =>
    obtain ⟨c, tail, rfl, start⟩ := spelled.first
    have token : isBlank c = false ∧ c ≠ ']' ∧ c ≠ '\x7d' := by
      rcases start with rfl | ⟨digit, rfl⟩
      · decide
      · clear spelled
        revert digit
        decide
    exact ⟨c, _, skipBlanks_cons token.1 _, token.2⟩
  | lastItem blank _ _ ih =>
    rw [List.append_assoc, List.append_assoc, skipBlanks_append blank]
    exact ih _
  | nextItem blank _ _ _ ih =>
    rw [List.append_assoc, List.append_assoc, List.append_assoc, skipBlanks_append blank]
    exact ih _
  | lastMember _ _ ih =>
    rw [List.append_assoc]
    exact ih _
  | nextMember _ _ _ ih =>
    rw [List.append_assoc, List.append_assoc]
    exact ih _
  | member blank =>
    rw [List.append_assoc, skipBlanks_append blank]
    exact ⟨_, _, rfl, by decide, by decide⟩

private theorem unnumbered_append {blanks : List Char} (blank : Blank blanks) (ends : Unnumbered rest) :
    Unnumbered (blanks ++ rest) := by
  cases blanks with
  | nil => exact ends
  | cons c blanks =>
    intro other first
    rw [List.cons_append, List.head?_cons, Option.mem_some_iff] at first
    subst first
    rcases blank c List.mem_cons_self with rfl | rfl | rfl | rfl <;> decide

private theorem unnumbered_cons {c : Char} (closes : c = ',' ∨ c = ']' ∨ c = '\x7d') (tail : List Char) :
    Unnumbered (c :: tail) := by
  intro other first
  rw [List.head?_cons, Option.mem_some_iff] at first
  subst first
  rcases closes with rfl | rfl | rfl <;> decide

private theorem skipBlanks_append_cons {blanks : List Char} (blank : Blank blanks) {c : Char}
    (token : isBlank c = false) (tail : List Char) : skipBlanks (blanks ++ c :: tail) = c :: tail := by
  rw [skipBlanks_append blank, skipBlanks_cons token]

/-- That reading a phrase takes it and leaves a rest. What is read between brackets or braces is taken
with the one that closes it. -/
def Phrase.Reads (phrase : Phrase) (bound : Nat) (cs rest : List Char) : Prop :=
  match phrase with
  | .value json => readValue bound (cs ++ rest) = some (json, rest)
  | .items list => readItems bound (cs ++ ']' :: rest) = some (list, rest)
  | .members list => readMembers bound (cs ++ '\x7d' :: rest) = some (list, rest)
  | .member named => readMember bound (cs ++ rest) = some (named, rest)

/-- How deep the calls may nest by which a phrase of some length is read. What stands between brackets or
braces costs one call more than the first thing in it. -/
def Phrase.depth (phrase : Phrase) (length : Nat) : Nat :=
  match phrase with
  | .value _ | .member _ => 2 * length
  | .items _ | .members _ => 2 * length + 1

private theorem Spells.positive {phrase : Phrase} (spelled : Spells phrase cs) {bound : Nat}
    (enough : phrase.depth cs.length ≤ bound) : ∃ less, bound = less + 1 := by
  obtain ⟨c, tail, start, -⟩ := spelled.first []
  have some : 0 < cs.length := by
    cases cs with
    | nil => cases start
    | cons => exact Nat.succ_pos _
  refine ⟨bound - 1, ?_⟩
  cases phrase <;> simp only [Phrase.depth] at enough <;> omega

/-- Reading takes what is spelled, given a bound that its calls do not exceed. -/
theorem Spells.reads {phrase : Phrase} (spelled : Spells phrase cs) {bound : Nat}
    (enough : phrase.depth cs.length ≤ bound) (ends : Unnumbered rest) : phrase.Reads bound cs rest := by
  induction spelled generalizing bound rest with
  | null | yes | no =>
    obtain ⟨bound, rfl⟩ := Nat.exists_eq_add_of_le' (Nat.le_trans (by decide : 1 ≤ _) enough)
    simp only [Phrase.Reads]
    rfl
  | @number numeral cs spelled =>
    obtain ⟨bound, rfl⟩ := (Spells.number spelled).positive enough
    have read := readNumeral_append spelled ends
    obtain ⟨c, tail, rfl, start⟩ := spelled.first
    simp only [Phrase.Reads]
    rw [List.cons_append] at read ⊢
    simp only [readValue_numeral bound start, read, Option.map_some]
  | string spelled =>
    obtain ⟨bound, rfl⟩ := (Spells.string spelled).positive enough
    have read := readString_append spelled rest
    simp [Phrase.Reads, readValue, skipBlanks_cons (by decide : isBlank '"' = false), read]
  | emptyArray blank =>
    obtain ⟨bound, rfl⟩ := (Spells.emptyArray blank).positive enough
    simp [Phrase.Reads, readValue, skipBlanks_cons (by decide : isBlank '[' = false),
      skipBlanks_append_cons blank (by decide : isBlank ']' = false)]
  | @array items cs spelled ih =>
    obtain ⟨bound, rfl⟩ := (Spells.array spelled).positive enough
    simp only [Phrase.depth, List.length_cons, List.length_append] at enough ih
    have read : readItems bound (cs ++ ']' :: rest) = some (items, rest) := ih (by omega) ends
    obtain ⟨c, tail, start, more, -⟩ := spelled.first (']' :: rest)
    rw [readItems_congr (skipBlanks_skipBlanks _).symm, start] at read
    simp [Phrase.Reads, readValue, skipBlanks_cons (by decide : isBlank '[' = false), start, read, more]
  | emptyObject blank =>
    obtain ⟨bound, rfl⟩ := (Spells.emptyObject blank).positive enough
    simp [Phrase.Reads, readValue, skipBlanks_cons (by decide : isBlank '\x7b' = false),
      skipBlanks_append_cons blank (by decide : isBlank '\x7d' = false)]
  | @object members cs spelled ih =>
    obtain ⟨bound, rfl⟩ := (Spells.object spelled).positive enough
    simp only [Phrase.depth, List.length_cons, List.length_append] at enough ih
    have read : readMembers bound (cs ++ '\x7d' :: rest) = some (members, rest) := ih (by omega) ends
    obtain ⟨c, tail, start, -, more⟩ := spelled.first ('\x7d' :: rest)
    rw [readMembers_congr (skipBlanks_skipBlanks _).symm, start] at read
    simp [Phrase.Reads, readValue, skipBlanks_cons (by decide : isBlank '\x7b' = false), start, read, more]
  | @lastItem item before cs after blank spelled blank' ih =>
    obtain ⟨bound, rfl⟩ := (Spells.lastItem blank spelled blank').positive enough
    simp only [Phrase.depth, List.length_append] at enough ih
    have read : readValue bound (cs ++ (after ++ ']' :: rest)) = some (item, after ++ ']' :: rest) :=
      ih (by omega) (unnumbered_append blank' (unnumbered_cons (by decide) rest))
    rw [← readValue_congr (skipBlanks_append blank _)] at read
    simp [Phrase.Reads, readItems, read, skipBlanks_append_cons blank' (by decide : isBlank ']' = false)]
  | @nextItem item items before cs after more blank spelled blank' others ih ih' =>
    obtain ⟨bound, rfl⟩ := (Spells.nextItem blank spelled blank' others).positive enough
    simp only [Phrase.depth, List.length_append, List.length_cons] at enough ih ih'
    have read : readValue bound (cs ++ (after ++ ',' :: (more ++ ']' :: rest))) =
        some (item, after ++ ',' :: (more ++ ']' :: rest)) :=
      ih (by omega) (unnumbered_append blank' (unnumbered_cons (by decide) _))
    rw [← readValue_congr (skipBlanks_append blank _)] at read
    have later : readItems bound (more ++ ']' :: rest) = some (items, rest) := ih' (by omega) ends
    simp [Phrase.Reads, readItems, read, skipBlanks_append_cons blank' (by decide : isBlank ',' = false),
      later]
  | @lastMember member cs after spelled blank ih =>
    obtain ⟨bound, rfl⟩ := (Spells.lastMember spelled blank).positive enough
    simp only [Phrase.depth, List.length_append] at enough ih
    have read : readMember bound (cs ++ (after ++ '\x7d' :: rest)) = some (member, after ++ '\x7d' :: rest) :=
      ih (by omega) (unnumbered_append blank (unnumbered_cons (by decide) rest))
    simp [Phrase.Reads, readMembers, read, skipBlanks_append_cons blank (by decide : isBlank '\x7d' = false)]
  | @nextMember member members cs after more spelled blank others ih ih' =>
    obtain ⟨bound, rfl⟩ := (Spells.nextMember spelled blank others).positive enough
    simp only [Phrase.depth, List.length_append, List.length_cons] at enough ih ih'
    have read : readMember bound (cs ++ (after ++ ',' :: (more ++ '\x7d' :: rest))) =
        some (member, after ++ ',' :: (more ++ '\x7d' :: rest)) :=
      ih (by omega) (unnumbered_append blank (unnumbered_cons (by decide) _))
    have later : readMembers bound (more ++ '\x7d' :: rest) = some (members, rest) := ih' (by omega) ends
    simp [Phrase.Reads, readMembers, read, skipBlanks_append_cons blank (by decide : isBlank ',' = false),
      later]
  | @member name value before quoted between gap cs blank named blank' blank'' spelled ih =>
    obtain ⟨bound, rfl⟩ := (Spells.member blank named blank' blank'' spelled).positive enough
    simp only [Phrase.depth, List.length_append, List.length_cons] at enough ih
    have read : readValue bound (cs ++ rest) = some (value, rest) := ih (by omega) ends
    rw [← readValue_congr (skipBlanks_append blank'' _)] at read
    have text := readString_append named (between ++ ':' :: (gap ++ (cs ++ rest)))
    simp [Phrase.Reads, readMember, skipBlanks_append_cons blank (by decide : isBlank '"' = false), text,
      skipBlanks_append_cons blank' (by decide : isBlank ':' = false), read]

private theorem unnumbered_nil : Unnumbered [] := fun _ first => nomatch first

/-- The value of a text that spells one is found. -/
theorem read?_of_spelled {text : String} {value : Json} (spelled : Spelled text value) :
    read? text = some value := by
  obtain ⟨before, cs, after, blank, value, blank', same⟩ := spelled
  have enough : 2 * cs.length ≤ 2 * text.length + 2 := by
    rw [← String.length_toList, same, List.length_append, List.length_append]
    omega
  have read : readValue (2 * text.length + 2) (cs ++ after) = some (_, after) :=
    value.reads enough (by simpa using unnumbered_append blank' unnumbered_nil)
  have nothing : skipBlanks after = [] := by simpa [skipBlanks] using skipBlanks_append blank' []
  rw [← readValue_congr (skipBlanks_append blank _)] at read
  unfold read?
  rw [same, List.append_assoc, read]
  simp only [nothing, if_true]

end KeyScan.Json
