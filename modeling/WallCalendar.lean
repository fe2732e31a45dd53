import WallCalendar.Agenda.Basic
import WallCalendar.Agenda.Document
import WallCalendar.Command.Arguments
import WallCalendar.Command.Request
import WallCalendar.Command.Run
import WallCalendar.Command.Settings
import WallCalendar.Date.Basic
import WallCalendar.Date.Text
import WallCalendar.DayStack
import WallCalendar.Event.Basic
import WallCalendar.Grid
import WallCalendar.Json.Draft
import WallCalendar.Json.Numeral
import WallCalendar.Json.Token
import WallCalendar.Json.Value
import WallCalendar.Lane.Edge
import WallCalendar.Lane.Order
import WallCalendar.Lane.Sweep
import WallCalendar.Layout.Basic
import WallCalendar.Layout.Page
import WallCalendar.Layout.Record
import WallCalendar.Layout.Report
import WallCalendar.Main
import WallCalendar.Markup
import WallCalendar.Moment
import WallCalendar.Offset
import WallCalendar.Picture
import WallCalendar.Template.Basic
import WallCalendar.Template.Default
import WallCalendar.Text.Basic
import WallCalendar.Text.Quoted
import WallCalendar.Text.Shortest
import WallCalendar.TimeOfDay
import WallCalendar.Timestamp.Pattern
import WallCalendar.Timestamp.Reading
import WallCalendar.Proofs.Event.Order
import WallCalendar.Proofs.Lane.Order
import WallCalendar.Proofs.Lane.Canonical
import WallCalendar.Proofs.Lane.Busy
import WallCalendar.Proofs.Lane.Sweep
import WallCalendar.Proofs.Event.Span
import WallCalendar.Proofs.Lane.Piece
import WallCalendar.Proofs.DayStack
import WallCalendar.Proofs.Grid
import WallCalendar.Proofs.Lane.Assignment
import WallCalendar.Proofs.Layout.Basic
import WallCalendar.Proofs.Layout.Coverage
import WallCalendar.Proofs.Layout.Lanes
import WallCalendar.Proofs.Lane.Matching
import WallCalendar.Proofs.Layout.Order
import WallCalendar.Proofs.Picture
import WallCalendar.Proofs.Lane.Finish
import WallCalendar.Proofs.Layout.Reserved
import WallCalendar.Proofs.Layout.Week
import WallCalendar.Proofs.Picture.Outcome
import WallCalendar.Proofs.Text.Blank
import WallCalendar.Proofs.Text.Decimal
import WallCalendar.Proofs.Json.Token
import WallCalendar.Proofs.Json.Draft
import WallCalendar.Proofs.Agenda.Document
import WallCalendar.Proofs.Agenda.Merge
import WallCalendar.Proofs.Command.Staged
import WallCalendar.Proofs.Markup.Escape
import WallCalendar.Proofs.Markup.Unescape
import WallCalendar.Proofs.Markup.Token
import WallCalendar.Proofs.Markup.Tree
import WallCalendar.Proofs.Layout.Tree
import WallCalendar.Proofs.Layout.Page
import WallCalendar.Proofs.Layout.WellFormed
import WallCalendar.Proofs.Layout.Report
import WallCalendar.Proofs.Date.Civil
import WallCalendar.Proofs.Moment
import WallCalendar.Proofs.Timestamp.Scan
import WallCalendar.Proofs.Timestamp.Form
import WallCalendar.Proofs.Timestamp.Spelling
import WallCalendar.Proofs.Offset
import WallCalendar.Proofs.Timestamp.Letters
import WallCalendar.Proofs.Timestamp.Unambiguous
import WallCalendar.Proofs.Event.Reading
import WallCalendar.Proofs.Event.Noon
import WallCalendar.Proofs.Event.Reach
import WallCalendar.Proofs.Timestamp.DateText
import WallCalendar.Proofs.Layout.Rank
import WallCalendar.Proofs.Lane.Tiling
import WallCalendar.Proofs.DayStack.Drain
import WallCalendar.Proofs.Grid.Year
import WallCalendar.Proofs.Template.Filling
