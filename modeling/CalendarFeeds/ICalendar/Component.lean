import CalendarFeeds.ICalendar.Escape
import CalendarFeeds.ICalendar.Fold
import CalendarFeeds.Text.AsciiCase

/-! # Components — calendars and events as trees of properties

    A component has properties and other components.  Its text is one content line per property
    between its BEGIN and END lines.  Properties are written in a fixed order for each kind of
    component, those without a place in it last; components inside keep their order. -/

namespace CalendarFeeds.ICalendar

structure Parameter where
  name : String
  values : List String
  deriving DecidableEq, Repr

/-- A parameter with one value; its name is written in capitals. -/
def Parameter.single (name value : String) : Parameter :=
  ⟨Text.uppered name, [value]⟩

inductive Value where
  /-- Text that is escaped. -/
  | text (content : String)
  /-- Texts that are escaped and joined by commas. -/
  | texts (contents : List String)
  /-- A value in a form of its own, such as a time or an address. -/
  | raw (content : String)
  deriving DecidableEq, Repr

structure Property where
  name : String
  parameters : List Parameter
  value : Value
  deriving DecidableEq, Repr

namespace Property

/-- A property without parameters; its name is written in capitals. -/
def ofValue (name : String) (value : Value) : Property :=
  ⟨Text.uppered name, [], value⟩

def text (name content : String) : Property := ofValue name (.text content)

def raw (name content : String) : Property := ofValue name (.raw content)

end Property

inductive Kind where
  | calendar
  | event
  deriving DecidableEq, Repr

namespace Kind

/-- The name of a kind in BEGIN and END lines. -/
def name : Kind → String
  | calendar => "VCALENDAR"
  | event => "VEVENT"

/-- The order in which the properties of a kind are written. -/
def propertyOrder : Kind → List String
  | calendar =>
    ["VERSION", "PRODID", "CALSCALE", "METHOD", "X-WR-CALNAME", "X-WR-CALDESC", "X-WR-TIMEZONE"]
  | event =>
    ["UID", "DTSTAMP", "DTSTART", "DTEND", "DURATION", "RRULE", "SUMMARY", "DESCRIPTION",
      "LOCATION", "URL", "CATEGORIES"]

end Kind

/-- A component and those inside it. -/
inductive Component where
  | node (kind : Kind) (properties : List Property) (children : List Component)

/-- Items joined by commas. -/
def joinComma (items : List (List Char)) : List Char :=
  List.intercalate [','] items

/-- The part of a content line after the name and parameters. -/
def Value.content : Value → List Char
  | text s => escapeText s.toList
  | texts ss => joinComma (ss.map fun s => escapeText s.toList)
  | raw s => stripControls s.toList

/-- A parameter as it stands in a content line. -/
def Parameter.content (p : Parameter) : List Char :=
  p.name.toList ++ '=' :: joinComma (p.values.map fun v => quoteParameter v.toList)

/-- The content line of a property, before folding. -/
def Property.line (p : Property) : List Char :=
  p.name.toList ++ (p.parameters.flatMap fun q => ';' :: q.content) ++ ':' :: p.value.content

def Property.folded (p : Property) : List Char :=
  foldLine p.line

/-- Whether a property has a name, in any ASCII case. -/
def Property.isNamed (p : Property) (name : String) : Bool :=
  Text.sameIgnoringCase p.name name

def Kind.inOrder (k : Kind) (ps : List Property) : List Property :=
  (k.propertyOrder.flatMap fun name => ps.filter (·.isNamed name))
    ++ ps.filter fun p => !k.propertyOrder.any p.isNamed

mutual

def Component.folded : Component → List Char
  | .node kind properties children =>
    foldLine ("BEGIN:".toList ++ kind.name.toList)
      ++ (kind.inOrder properties).flatMap Property.folded
      ++ Component.foldedAll children
      ++ foldLine ("END:".toList ++ kind.name.toList)

/-- The folded content lines of components in a row. -/
def Component.foldedAll : List Component → List Char
  | [] => []
  | c :: cs => c.folded ++ Component.foldedAll cs

end

namespace Component

def text (c : Component) : String :=
  String.ofList c.folded

def addProperty (c : Component) (p : Property) : Component :=
  match c with
  | .node kind properties children => .node kind (properties ++ [p]) children

def addChild (c child : Component) : Component :=
  match c with
  | .node kind properties children => .node kind properties (children ++ [child])

/-- The properties that every calendar of a product begins with. -/
def calendarProperties (product : String) : List Property :=
  [.raw "VERSION" "2.0", .text "PRODID" product, .raw "CALSCALE" "GREGORIAN"]

/-- A calendar of a product, without events. -/
def calendar (product : String) : Component :=
  .node .calendar (calendarProperties product) []

end Component

end CalendarFeeds.ICalendar
