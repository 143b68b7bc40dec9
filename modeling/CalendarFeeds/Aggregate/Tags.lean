import CalendarFeeds.Distinct
import CalendarFeeds.Event.Basic
import CalendarFeeds.Text.Blank

/-! # Effective tags — what a calendar is filed under

    A calendar of a source has its own tags and, after them, those of the source.  An external
    calendar has its own; a disabled one takes part in nothing.  Blank tags do not count, and a
    tag that is there already is not added again. -/

namespace CalendarFeeds

/-- Whether a tag says anything. -/
def isTag (tag : String) : Bool :=
  !tag.toList.all Text.isBlank

/-- Tags of one's own and inherited ones, without blanks and repeats. -/
def mergeTags (own inherited : List String) : List String :=
  distinctBy id ((own ++ inherited).filter isTag)

/-- A calendar of a source with its effective tags. -/
structure TaggedCalendar where
  source : Source
  calendar : SourceCalendar
  tags : List String

structure TaggedExternal where
  calendar : ExternalCalendar
  tags : List String

/-- The calendars of a source with their effective tags. -/
def Source.tagged (s : Source) : List TaggedCalendar :=
  s.calendars.map fun c => ⟨s, c, mergeTags c.tags s.tags⟩

/-- The calendars of all sources with their effective tags. -/
def tagSources (sources : List Source) : List TaggedCalendar :=
  sources.flatMap Source.tagged

def tagExternals (externals : List ExternalCalendar) : List TaggedExternal :=
  (externals.filter fun c => !c.disabled).map fun c => ⟨c, mergeTags c.tags []⟩

end CalendarFeeds
