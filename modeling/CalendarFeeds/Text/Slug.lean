import CalendarFeeds.Text.Runs

/-! # Slugs — names that are safe in files and addresses

    A slug holds the ASCII letters and digits of a name in small letters; whatever else stands
    between them becomes one hyphen.  A name without any gets a fixed slug. -/

namespace CalendarFeeds.Text

/-- The characters of a slug besides the hyphen. -/
def isSlugChar (c : Char) : Bool :=
  c.isLower || c.isDigit

/-- The small form of a character, as far as slugs can tell: besides the capitals of ASCII, only
    the Kelvin sign and the I with a dot have a small form with an ASCII letter in it. -/
def smallForm (c : Char) : List Char :=
  if c = '\u212a' then ['k']
  else if c = '\u0130' then ['i', '\u0307']
  else [c.toLower]

/-- The slug of a name without any ASCII letter or digit. -/
def slugFallback : String := "untitled"

/-- The runs of letters and digits of a name in small letters. -/
def slugRuns (name : List Char) : List (List Char) :=
  runs isSlugChar (name.flatMap smallForm)

def slug (name : String) : String :=
  match slugRuns name.toList with
  | [] => slugFallback
  | w :: ws => String.ofList (List.intercalate ['-'] (w :: ws))

end CalendarFeeds.Text
