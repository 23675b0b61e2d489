import ConstraintSearch.Text.CaseTable

/-!
# Letter case

Lowercase texts, and the comparison of a text with a keyword without regard to case.

Lowercasing is the full Unicode mapping of texts, which depends on the context of a letter in
one place: a capital sigma becomes the final form `ς` at the end of a word, and `σ` elsewhere.
-/

namespace ConstraintSearch.Text

/-- Whether a character lies in one of the ranges. -/
private def inRanges (ranges : List (Nat × Nat)) (c : Char) : Bool :=
  ranges.any fun r ↦ r.1 ≤ c.toNat && c.toNat ≤ r.2

/-- The lowercase form of a character, out of context. -/
def lowerChar (c : Char) : List Char :=
  let n := c.toNat
  if n = 0x130 then ['i', Char.ofNat 0x307]
  else
    match lowercaseRuns.find? fun r ↦ r.first ≤ n && n ≤ r.last && (n - r.first) % r.step == 0 with
    | some r => [Char.ofNat (n + r.offset).toNat]
    | none => [c]

/-- Whether the text goes on with a letter that has case, when characters that do not count
for case are skipped. -/
def reachesCased (cs : List Char) : Bool :=
  match cs.dropWhile (inRanges caseIgnorableRanges) with
  | c :: _ => inRanges casedRanges c
  | [] => false

/-- The lowercase form of a text that stands behind another one, given backwards: a capital
sigma is final if there is a letter before it and none behind it. -/
def lowerAfter : List Char → List Char → List Char
  | _, [] => []
  | before, c :: cs =>
    let lowered :=
      if c = 'Σ' then [if reachesCased before && !reachesCased cs then 'ς' else 'σ']
      else lowerChar c
    lowered ++ lowerAfter (c :: before) cs

/-- The lowercase form of a text. -/
def lowercase (s : String) : String :=
  String.ofList (lowerAfter [] s.toList)

/-- The uppercase form of a character, as far as it is a text of ASCII letters; every other
character is left as it is. -/
def upperLetters (c : Char) : List Char :=
  if c.isLower then [c.toUpper]
  else
    match c with
    | 'ß' => ['S', 'S']
    | 'ı' => ['I']
    | 'ſ' => ['S']
    | 'ﬀ' => ['F', 'F']
    | 'ﬁ' => ['F', 'I']
    | 'ﬂ' => ['F', 'L']
    | 'ﬃ' => ['F', 'F', 'I']
    | 'ﬄ' => ['F', 'F', 'L']
    | 'ﬅ' => ['S', 'T']
    | 'ﬆ' => ['S', 'T']
    | _ => [c]

/-- The uppercase form of a text, for comparison with a keyword in ASCII: letters whose
uppercase form is not ASCII keep their form, and agree with no keyword either way. -/
def keyword (s : String) : String :=
  String.ofList (s.toList.flatMap upperLetters)

end ConstraintSearch.Text
