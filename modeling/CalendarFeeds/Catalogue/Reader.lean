import CalendarFeeds.Catalogue.External
import CalendarFeeds.Catalogue.Recurring

/-! # Document readers — from files to declarations

    How a file is read is a matter of its format.  Whatever the format, no name may be declared
    twice, and external calendars come without events.  The standard reader takes files for YAML
    documents. -/

namespace CalendarFeeds

/-- What the files of a run declare, or why they cannot be read. -/
structure DocumentReader where
  definitions : TextFile → Except DocumentError (List Definition)
  externals : TextFile → Except DocumentError (List ExternalDeclaration)

/-- YAML documents, with the lists under `events` and under `calendars`. -/
def DocumentReader.standard : DocumentReader :=
  ⟨fun file => Catalogue.listedDefinitions (Catalogue.rootOfFile file),
    fun file => Catalogue.listedExternals (Catalogue.rootOfFile file)⟩

namespace Catalogue

/-- The definitions that a reader finds in a file. -/
def definitionsBy (reader : DocumentReader) (file : TextFile) :
    Except LoadError (List Definition) :=
  checkedDefinitions (reader.definitions file)

/-- The external calendars that a reader finds in a file. -/
def externalsBy (reader : DocumentReader) (file : TextFile) :
    Except LoadError (List ExternalCalendar) :=
  checkedExternals (reader.externals file)

def definitionsOfFile (file : TextFile) : Except LoadError (List Definition) :=
  definitionsBy .standard file

def externalsOfFile (file : TextFile) : Except LoadError (List ExternalCalendar) :=
  externalsBy .standard file

end Catalogue

end CalendarFeeds
