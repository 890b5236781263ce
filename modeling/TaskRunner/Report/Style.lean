/-!
# Terminal styles

Text in a weight and a color, by escape sequences. With colors off a style leaves no mark.
-/

namespace TaskRunner.Report

/-- The colors in use. -/
inductive Color where
  | red
  | green
  | yellow
  | blue
  | cyan
deriving DecidableEq, Repr

/-- The escape code of a color. -/
def Color.code : Color → String
  | red => "31"
  | green => "32"
  | yellow => "33"
  | blue => "34"
  | cyan => "36"

/-- A weight and a color. -/
structure Style where
  bold : Bool
  dimmed : Bool
  color : Option Color
deriving DecidableEq, Repr

namespace Style

/-- Colored text. -/
def of (color : Color) : Style := ⟨false, false, some color⟩

/-- Bold and colored text. -/
def strong (color : Color) : Style := ⟨true, false, some color⟩

/-- Bold text. -/
def heavy : Style := ⟨true, false, none⟩

/-- Dimmed text. -/
def faint : Style := ⟨false, true, none⟩

/-- The sequence that ends a style. -/
def reset : String := "\x1b[0m"

/-- The sequence that starts the style. -/
def opening (s : Style) : String :=
  let codes := (if s.bold then ["1"] else []) ++ (if s.dimmed then ["2"] else []) ++
    s.color.toList.map Color.code
  "\x1b[" ++ ";".intercalate codes ++ "m"

/-- Text in the style, if colors are on. The style is taken up again behind a reset in the text. -/
def paint (s : Style) (colors : Bool) (text : String) : String :=
  if colors then
    s.opening ++ (reset ++ s.opening).intercalate (text.splitOn reset) ++ reset
  else text

end Style

end TaskRunner.Report
