import CalendarFeeds.Aggregate.Basic
import CalendarFeeds.Aggregate.Tags
import CalendarFeeds.Ascending
import CalendarFeeds.Calendar.Civil
import CalendarFeeds.Calendar.Date
import CalendarFeeds.Calendar.Month
import CalendarFeeds.Calendar.TimeOfDay
import CalendarFeeds.Calendar.Weekday
import CalendarFeeds.Catalogue.Basic
import CalendarFeeds.Catalogue.External
import CalendarFeeds.Catalogue.Reader
import CalendarFeeds.Catalogue.Recurring
import CalendarFeeds.Digest.Sha1
import CalendarFeeds.Distinct
import CalendarFeeds.Document.Decode
import CalendarFeeds.Document.Error
import CalendarFeeds.Document.Path
import CalendarFeeds.Document.Value
import CalendarFeeds.Duration
import CalendarFeeds.Environment.Assignments
import CalendarFeeds.Environment.Variables
import CalendarFeeds.Event.Basic
import CalendarFeeds.Event.Definition
import CalendarFeeds.Event.Identifier
import CalendarFeeds.Event.Materialize
import CalendarFeeds.Feed
import CalendarFeeds.Generation
import CalendarFeeds.ICalendar.Component
import CalendarFeeds.ICalendar.Escape
import CalendarFeeds.ICalendar.Fold
import CalendarFeeds.Json
import CalendarFeeds.Main
import CalendarFeeds.Manifest
import CalendarFeeds.Naming
import CalendarFeeds.Number.Binary64
import CalendarFeeds.Number.Shortest
import CalendarFeeds.Rule.Basic
import CalendarFeeds.Rule.Check
import CalendarFeeds.Rule.Occurrence
import CalendarFeeds.Run
import CalendarFeeds.Schedule.AllowedMonths
import CalendarFeeds.Schedule.Anchor
import CalendarFeeds.Schedule.Error
import CalendarFeeds.Schedule.Phrase
import CalendarFeeds.Schedule.Recurrence
import CalendarFeeds.Schedule.RuleOf
import CalendarFeeds.Schedule.Window
import CalendarFeeds.Season
import CalendarFeeds.Settings
import CalendarFeeds.Text.AsciiCase
import CalendarFeeds.Text.Blank
import CalendarFeeds.Text.Numeral
import CalendarFeeds.Text.Quoted
import CalendarFeeds.Text.Runs
import CalendarFeeds.Text.Slug
import CalendarFeeds.Text.Unshown
import CalendarFeeds.Toml.Bare
import CalendarFeeds.Toml.Document
import CalendarFeeds.Toml.Lexeme
import CalendarFeeds.Toml.Moment
import CalendarFeeds.Toml.Tree
import CalendarFeeds.Yaml.Cursor
import CalendarFeeds.Yaml.Datum
import CalendarFeeds.Yaml.Document
import CalendarFeeds.Yaml.Layout
import CalendarFeeds.Yaml.Node
import CalendarFeeds.Yaml.Scalar
import CalendarFeeds.Yaml.Tag
import CalendarFeeds.Yaml.Token
import CalendarFeeds.Zone.Basic
import CalendarFeeds.Zone.Change
import CalendarFeeds.Zone.Instant
import CalendarFeeds.Zone.Table
import CalendarFeeds.Calendar.Partition
import CalendarFeeds.Proofs.MonthsAhead
import CalendarFeeds.Proofs.Anchor
import CalendarFeeds.Proofs.RuleDays
import CalendarFeeds.Proofs.LocalTime
import CalendarFeeds.Proofs.RecurrenceSet
import CalendarFeeds.Proofs.Materialize
import CalendarFeeds.Proofs.Aggregate
import CalendarFeeds.Proofs.Components
import CalendarFeeds.Proofs.Numerals
import CalendarFeeds.Proofs.PlainText
import CalendarFeeds.Proofs.FeedLines
import CalendarFeeds.Proofs.LineReader
import CalendarFeeds.Proofs.ComponentReader
import CalendarFeeds.Proofs.Naming
import CalendarFeeds.Proofs.Catalogue
import CalendarFeeds.Proofs.Generation
import CalendarFeeds.Proofs.Publication
import CalendarFeeds.Proofs.Occurrences
import CalendarFeeds.Proofs.Contributors
import CalendarFeeds.Proofs.Reordering
import CalendarFeeds.Proofs.EventDay
import CalendarFeeds.Proofs.ClockChanges
import CalendarFeeds.Proofs.Opening
import CalendarFeeds.Proofs.EventProperties
import CalendarFeeds.Proofs.Stamps
import CalendarFeeds.Proofs.EventStart
import CalendarFeeds.Proofs.DurationText
import CalendarFeeds.Proofs.EventLength
import CalendarFeeds.Proofs.Words
import CalendarFeeds.Proofs.LetterCase
import CalendarFeeds.Proofs.PhraseGrammar
import CalendarFeeds.Proofs.SeasonNames
import CalendarFeeds.Proofs.MonthLimits
import CalendarFeeds.Proofs.ParameterValues
import CalendarFeeds.Proofs.Folding
import CalendarFeeds.Proofs.CanonicalOrder
import CalendarFeeds.Proofs.DurationForms
import CalendarFeeds.Proofs.MonthPrecedence
import CalendarFeeds.Proofs.NameRequests
import CalendarFeeds.Proofs.RuleText
import CalendarFeeds.Proofs.ControlCharacters
import CalendarFeeds.Proofs.Runs
import CalendarFeeds.Proofs.Slugs
import CalendarFeeds.Proofs.TextValues
