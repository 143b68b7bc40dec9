import CalendarFeeds.Catalogue.Basic
import CalendarFeeds.Event.Definition

/-! # Catalogues of recurring definitions — the list under `events` -/

namespace CalendarFeeds.Catalogue

open Decode

def definition : Reader Definition := fun place v => do
  let r ← record "RecurringEventDefinition" 12 place v
  let name ← r.field? 0 "name" string
  let friendlyName ← r.field? 1 "friendly_name" (option string)
  let description ← r.field? 2 "description" (option string)
  let schedule ← r.field? 3 "schedule" string
  let timezone ← r.field? 4 "timezone" string
  let duration ← r.field? 5 "duration" string
  let startTime ← r.field? 6 "start_time" string
  let location ← r.field? 7 "location" (option string)
  let url ← r.field? 8 "url" (option string)
  let seasonal ← r.field? 9 "seasonal" (option string)
  let months ← r.field? 10 "months" (option (list (unsigned 8)))
  let tags ← r.field? 11 "tags" (list string)
  return {
    name := ← r.need 0 "name" name
    friendlyName := friendlyName.join
    description := description.join
    schedule := ← r.need 3 "schedule" schedule
    timezone := ← r.need 4 "timezone" timezone
    duration := ← r.need 5 "duration" duration
    startTime := ← r.need 6 "start_time" startTime
    location := location.join
    url := url.join
    seasonal := seasonal.join
    months := months.join
    tags := tags.getD [] }

/-- What a root lists under `events`. -/
def listedDefinitions (root : Except DocumentError Value) :
    Except DocumentError (List Definition) :=
  root.bind (declarations "RecurringDocument" "events" definition)

def checkedDefinitions (read : Except DocumentError (List Definition)) :
    Except LoadError (List Definition) :=
  checked .recurringEvent Definition.name read

def definitionsOfText (text : String) : Except LoadError (List Definition) :=
  checkedDefinitions (listedDefinitions (rootOfText none text))

end CalendarFeeds.Catalogue
