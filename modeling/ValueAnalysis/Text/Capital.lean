/-!
Capital letters, as far as they decide whether two words are equal up to case when one of them is made of
the capitals A to Z.
-/

namespace ValueAnalysis.Text

/-- The capitals of a character. Beyond ASCII these are the characters whose capitals are all among A to
Z; every other character stays as it is. -/
def capitals (c : Char) : List Char :=
  match c.toNat with
  | 0xdf => ['S', 'S']
  | 0x131 => ['I']
  | 0x17f => ['S']
  | 0xfb00 => ['F', 'F']
  | 0xfb01 => ['F', 'I']
  | 0xfb02 => ['F', 'L']
  | 0xfb03 => ['F', 'F', 'I']
  | 0xfb04 => ['F', 'F', 'L']
  | 0xfb05 => ['S', 'T']
  | 0xfb06 => ['S', 'T']
  | _ => [c.toUpper]

def capitalized (s : String) : String :=
  String.ofList (s.toList.flatMap capitals)

end ValueAnalysis.Text
