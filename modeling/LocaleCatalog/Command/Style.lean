/-!
# Styled output

A text is styled by a code before it and a reset behind it, and left as it is on a terminal that
shows no colours. A reset inside a styled text is followed by the code again, so that the style
holds to the end.
-/

namespace LocaleCatalog.Command

/-- The styles that reports use. -/
inductive Style where
  | green
  | red
  | yellow
  | cyan
  | bold
  | dimmed
  | boldRed
  | boldGreen
  | boldYellow

/-- The numbers of a style. -/
def Style.code : Style → String
  | .green => "32"
  | .red => "31"
  | .yellow => "33"
  | .cyan => "36"
  | .bold => "1"
  | .dimmed => "2"
  | .boldRed => "1;31"
  | .boldGreen => "1;32"
  | .boldYellow => "1;33"

/-- What ends every style. -/
def reset : List Char := ['\x1b', '[', '0', 'm']

/-- Puts `code` behind every reset. -/
def restartBehindResets (code : List Char) : List Char → List Char
  | '\x1b' :: '[' :: '0' :: 'm' :: rest => reset ++ code ++ restartBehindResets code rest
  | c :: rest => c :: restartBehindResets code rest
  | [] => []

/-- The text in a style. -/
def Style.apply (style : Style) (text : String) : String :=
  let code := '\x1b' :: '[' :: (style.code.toList ++ ['m'])
  String.ofList (code ++ restartBehindResets code text.toList ++ reset)

/-- Whether colours are shown. What forces them wins over what refuses them, and both win over what
    the terminal can show. A refusal counts whatever its value; `0` forces nothing, and as a wish
    it means no colours. -/
def coloursShown (forced refused wish : Option String) (terminal : Bool) : Bool :=
  if forced.any (· ≠ "0") then true
  else if refused.isSome then false
  else wish ≠ some "0" && terminal

/-- The text in a style, if colours are shown. -/
def paint (colours : Bool) (style : Style) (text : String) : String :=
  if colours then style.apply text else text

end LocaleCatalog.Command
