namespace ValueAnalysis.Text

def ordinalSuffix (n : Int) : String :=
  if 10 ≤ n % 100 ∧ n % 100 ≤ 20 then "th"
  else if n % 10 = 1 then "st"
  else if n % 10 = 2 then "nd"
  else if n % 10 = 3 then "rd"
  else "th"

def ordinal (n : Int) : String :=
  toString n ++ ordinalSuffix n

end ValueAnalysis.Text
