import ImageDerivative.Text.CaseTable

/-! Text in small letters, by the case mappings of Unicode. -/
namespace ImageDerivative.Text

def runOf? (n : Nat) : Option CaseTable.Run :=
  CaseTable.capitals.find? fun run =>
    run.first ≤ n && n ≤ run.last && (n - run.first) % run.step = 0

/-- The small form of a character by itself. The dotted capital I keeps its dot as
a combining one. -/
def lowerChar (c : Char) : List Char :=
  if c = '\u0130' then ['i', '\u0307']
  else
    match runOf? c.toNat with
    | some run => [Char.ofNat (c.toNat + run.offset).toNat]
    | none => [c]

/-- Whether the nearest character that case does not pass over is a letter with case. -/
def leadsToCased (cs : List Char) : Bool :=
  let rest := cs.dropWhile (CaseTable.holds CaseTable.caseIgnorable)
  rest.head?.any (CaseTable.holds CaseTable.cased)

/-- A capital sigma that ends a word has a small form of its own. `before` is the
text in front, from its end. -/
def lowerIn (before : List Char) (c : Char) (after : List Char) : List Char :=
  if c = 'Σ' ∧ leadsToCased before ∧ !leadsToCased after then ['ς'] else lowerChar c

def lowerFrom (before : List Char) : List Char → List Char
  | [] => []
  | c :: rest => lowerIn before c rest ++ lowerFrom (c :: before) rest

def lower (text : String) : String := String.ofList (lowerFrom [] text.toList)

end ImageDerivative.Text
