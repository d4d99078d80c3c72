import SchemaGo.Text.CaseTable

/-!
# Case mapping

Full upper and lower case mapping.  A mapping may lengthen the text, and a capital sigma at the end
of a word becomes the final small sigma.
-/

namespace SchemaGo.Text

def inRanges (ranges : List (Nat × Nat)) (c : Char) : Bool :=
  ranges.any fun (first, last) => first ≤ c.toNat && c.toNat ≤ last

def CaseRun.covers (run : CaseRun) (n : Nat) : Bool :=
  run.first ≤ n && n ≤ run.last && (n - run.first) % run.step == 0

def mapByRuns (runs : List CaseRun) (c : Char) : Char :=
  match runs.find? fun run => run.covers c.toNat with
  | some run => Char.ofNat (c.toNat + run.shift).toNat
  | none => c

/-! ## Upper case -/

def upperChar (c : Char) : List Char :=
  if c.toNat < 128 then [c.toUpper]
  else match upperExpansions.find? fun (n, _) => n == c.toNat with
    | some (_, expansion) => expansion.map Char.ofNat
    | none => [mapByRuns upperRuns c]

/-! ## Lower case -/

def isCased (c : Char) : Bool := inRanges casedRanges c

def isCaseIgnorable (c : Char) : Bool := inRanges caseIgnorableRanges c

def nextIsCased (cs : List Char) : Bool :=
  match cs.dropWhile isCaseIgnorable with
  | [] => false
  | c :: _ => isCased c

def lowerSigma (before after : List Char) : Char :=
  if nextIsCased before && !nextIsCased after then 'ς' else 'σ'

def lowerChar (c : Char) : List Char :=
  if c.toNat < 128 then [c.toLower]
  else if c = 'İ' then ['i', '\u0307']
  else [mapByRuns lowerRuns c]

def lowerFrom (before : List Char) : List Char → List Char
  | [] => []
  | c :: rest =>
    (if c = 'Σ' then [lowerSigma before rest] else lowerChar c) ++ lowerFrom (c :: before) rest

def lower (s : String) : String := String.ofList (lowerFrom [] s.toList)

def upper (s : String) : String := String.ofList (s.toList.flatMap upperChar)

/-! ## Capitals and small letters -/

def isCapital (c : Char) : Bool :=
  (lowerChar c != [c] && !inRanges titleRanges c) || inRanges unpairedCapitalRanges c

/-- A small letter has case and is no capital, not even in part. -/
def isSmall (c : Char) : Bool := isCased c && !isCapital c && !inRanges titleRanges c

end SchemaGo.Text
