import CalendarFeeds.Catalogue.Basic
import CalendarFeeds.Event.Basic

/-! # Catalogues of external calendars — the list under `calendars`

    A declaration says where a calendar is to be found.  Its events are not part of it. -/

namespace CalendarFeeds.Catalogue

open Decode

def external : Reader ExternalDeclaration := fun place v => do
  let r ← record "ExternalCalendar" 7 place v
  let name ← r.field? 0 "name" string
  let friendlyName ← r.field? 1 "friendly_name" string
  let url ← r.field? 2 "url" string
  let infoUrl ← r.field? 3 "info_url" (option string)
  let description ← r.field? 4 "description" (option string)
  let disabled ← r.field? 5 "disabled" boolean
  let tags ← r.field? 6 "tags" (list string)
  return {
    name := ← r.need 0 "name" name
    friendlyName := ← r.need 1 "friendly_name" friendlyName
    url := ← r.need 2 "url" url
    infoUrl := infoUrl.join
    description := description.join
    disabled := disabled.getD false
    tags := tags.getD [] }

/-- What a root lists under `calendars`. -/
def listedExternals (root : Except DocumentError Value) :
    Except DocumentError (List ExternalDeclaration) :=
  root.bind (declarations "ExternalDocument" "calendars" external)

/-- The calendars of declarations that can be read. -/
def checkedExternals (read : Except DocumentError (List ExternalDeclaration)) :
    Except LoadError (List ExternalCalendar) :=
  checked .externalCalendar (·.name) (read.map (List.map ExternalDeclaration.calendar))

def externalsOfText (text : String) : Except LoadError (List ExternalCalendar) :=
  checkedExternals (listedExternals (rootOfText none text))

end CalendarFeeds.Catalogue
