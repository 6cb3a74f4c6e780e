import Workflow.Text.CaseTable

/-!
# Words with capitals

A text is put into title case letter by letter: a letter after anything that has no case takes
its form for the start of a word, and a letter after one with case takes its small form. So an
apostrophe or a digit starts a new word.
-/

namespace Workflow.Text

/-- Whether a character has case. -/
def isCased (c : Char) : Bool :=
  if c.toNat < 128 then c.isAlpha
  else casedRanges.any fun (low, high) => low ≤ c.toNat && c.toNat ≤ high

/-- What a character becomes by a table of runs and one of sequences; any other stays as it is. -/
def mapCase (runs : List CaseRun) (sequences : List (Nat × List Nat)) (c : Char) :
    List Char :=
  match runs.find? (·.has c.toNat) with
  | some run => [Char.ofNat ((c.toNat : Int) + run.distance).toNat]
  | none =>
    match sequences.lookup c.toNat with
    | some ns => ns.map Char.ofNat
    | none => [c]

/-- The form of a character at the start of a word. -/
def titleForm (c : Char) : List Char :=
  if c.toNat < 128 then [c.toUpper] else mapCase titleRuns titleSequences c

/-- The small form of a character. -/
def lowerForm (c : Char) : List Char :=
  if c.toNat < 128 then [c.toLower] else mapCase lowerRuns lowerSequences c

/-- Whether a character is passed over where case depends on what stands around. -/
def isIgnorable (c : Char) : Bool :=
  (ignorableRanges.find? fun (_, high) => c.toNat ≤ high).any fun (low, _) => low ≤ c.toNat

/-- Whether what stands before is a character with case, after one more character; those that are
passed over do not count. -/
def followsCased (before : Bool) (c : Char) : Bool := if isIgnorable c then before else isCased c

/-- The small sigma after a character with case: the final form where none follows. -/
def smallSigma (rest : List Char) : Char :=
  match rest.dropWhile isIgnorable with
  | c :: _ => if isCased c then 'σ' else 'ς'
  | [] => 'ς'

/-- The small form of a character by what stands before and behind it. -/
def smallForm (before : Bool) (c : Char) (rest : List Char) : List Char :=
  if c = 'Σ' then [if before then smallSigma rest else 'σ'] else lowerForm c

/-- The letters of a text in title case, after a character with case or not. What is passed over
does not count for the form of a sigma. -/
def titleLetters : Bool → Bool → List Char → List Char
  | _, _, [] => []
  | afterCased, before, c :: rest =>
    (if afterCased then smallForm before c rest else titleForm c) ++
      titleLetters (isCased c) (followsCased before c) rest

/-- A text in title case. -/
def title (s : String) : String := String.ofList (titleLetters false false s.toList)

/-- The letters of a text in small form, after a character with case or not. -/
def smallLetters : Bool → List Char → List Char
  | _, [] => []
  | before, c :: rest => smallForm before c rest ++ smallLetters (followsCased before c) rest

/-- A text with its first character as at the start of a word and all others small. -/
def capitalize (s : String) : String :=
  match s.toList with
  | [] => ""
  | c :: rest => String.ofList (titleForm c ++ smallLetters (followsCased false c) rest)

end Workflow.Text
