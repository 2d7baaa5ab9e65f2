/-!
# Styled text

A terminal takes an escape character, an opening bracket, parameters and a letter as a command, for
instance to change the colour. Where text does not go to a terminal, these commands are left out.
-/

namespace ApiBindings.Text

/-- Whether a character can stand among the parameters of a command. -/
def isParameter (c : Char) : Bool :=
  c.isDigit || c = ';' || c = '?'

/-- What follows a command whose parameters begin here; none if no letter ends them. -/
def afterCommand? (text : List Char) : Option (List Char) :=
  match text.dropWhile isParameter with
  | c :: rest => if c.isAlpha then some rest else none
  | [] => none

theorem length_lt_of_afterCommand? {text rest : List Char} (h : afterCommand? text = some rest) :
    rest.length < text.length := by
  unfold afterCommand? at h
  split at h
  · next c tail hdrop =>
    have hle := (List.dropWhile_suffix isParameter (l := text)).length_le
    rw [hdrop] at hle
    split at h
    · cases h
      simp only [List.length_cons] at hle
      omega
    · cases h
  · cases h

/-- A text without its commands to a terminal. -/
def unstyled : List Char → List Char
  | [] => []
  | '\x1b' :: '[' :: rest =>
    match h : afterCommand? rest with
    | some tail =>
      have := length_lt_of_afterCommand? h
      unstyled tail
    | none => '\x1b' :: '[' :: unstyled rest
  | c :: rest => c :: unstyled rest
  termination_by text => text.length
  decreasing_by all_goals simp only [List.length_cons]; omega

end ApiBindings.Text
