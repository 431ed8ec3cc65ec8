/-!
Terminal colours (`detect`, `colored`, `plain`). A painted text stands between the escape
sequence of its style and the one that ends all styles. Left out is that the theme is
found once and kept for the rest of the run.
-/
namespace TreeNav

/-- A style: the numbers that select its colour and then its effect. -/
abbrev Style := List Nat

namespace Style

def cyan : Nat := 36
def green : Nat := 32
def yellow : Nat := 33
def magenta : Nat := 35
def blue : Nat := 34
def brightBlack : Nat := 90
def white : Nat := 37
def bold : Nat := 1
def dimmed : Nat := 2

end Style

/-- What the parts of a report look like. -/
structure Theme where
  header : Style
  success : Style
  warn : Style
  kind : Style
  range : Style
  trivial : Style
  dim : Style
deriving DecidableEq, Repr

namespace Theme

/-- The theme of a terminal. -/
def colored : Theme where
  header := [Style.cyan, Style.bold]
  success := [Style.green, Style.bold]
  warn := [Style.yellow, Style.bold]
  kind := [Style.magenta]
  range := [Style.blue]
  trivial := [Style.brightBlack]
  dim := [Style.white, Style.dimmed]

/-- The theme without any colour. -/
def plain : Theme := ⟨[], [], [], [], [], [], []⟩

/-- Colours are for terminals only. -/
def detect (terminal : Bool) : Theme := if terminal then colored else plain

end Theme

/-- Paints a text. A style without numbers leaves it alone. -/
def Style.paint (style : Style) (text : String) : String :=
  if style.isEmpty then text
  else "\x1b[" ++ String.intercalate ";" (style.map Nat.repr) ++ "m" ++ text ++ "\x1b[0m"

end TreeNav
