namespace KeyScan.Text

/-- Cuts a list into groups of three; only the last group may be shorter. -/
def triples {α : Type} : List α → List (List α)
  | [] => []
  | [a] => [[a]]
  | [a, b] => [[a, b]]
  | a :: b :: c :: rest => [a, b, c] :: triples rest

theorem flatten_triples {α : Type} (items : List α) : (triples items).flatten = items := by
  fun_induction triples items with
  | case1 => rfl
  | case2 => rfl
  | case3 => rfl
  | case4 a b c rest ih => simp [ih]

/-- The groups of a number's decimal digits, most significant first. -/
def digitGroups (n : Nat) : List (List Char) :=
  ((triples (Nat.toDigits 10 n).reverse).map List.reverse).reverse

/-- The decimal text of a number with a comma between groups of three digits. -/
def grouped (n : Nat) : String :=
  String.ofList ((digitGroups n).intersperse [',']).flatten

end KeyScan.Text
