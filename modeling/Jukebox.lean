import Jukebox.Assoc
import Jukebox.Calendar.Date
import Jukebox.Calendar.Instant
import Jukebox.Calendar.InstantText
import Jukebox.Calendar.Layout.Basic
import Jukebox.Calendar.Layout.Parts
import Jukebox.Calendar.Layout.Reader
import Jukebox.Calendar.Shift
import Jukebox.Calendar.Week
import Jukebox.Calendar.Weekday
import Jukebox.Calendar.Year
import Jukebox.CommandLine.Arguments
import Jukebox.CommandLine.Directory
import Jukebox.CommandLine.Reply
import Jukebox.Decimal.Binary64
import Jukebox.Decimal.Shortest
import Jukebox.History.Basic
import Jukebox.History.Prehistory
import Jukebox.History.Serial
import Jukebox.Json.Basic
import Jukebox.Json.Lexeme
import Jukebox.Json.Number
import Jukebox.Json.Reader
import Jukebox.Library.File
import Jukebox.Library.Record
import Jukebox.Library.Snapshot
import Jukebox.Main
import Jukebox.Playlist.Definition
import Jukebox.Playlist.Ranking
import Jukebox.Run.Basic
import Jukebox.Run.Plan
import Jukebox.Run.Report
import Jukebox.Settings.Basic
import Jukebox.Settings.Environment
import Jukebox.Settings.Problem
import Jukebox.Settings.Reader
import Jukebox.Settings.Sample
import Jukebox.Statistics.Basic
import Jukebox.Statistics.Evaluate
import Jukebox.Statistics.Group
import Jukebox.Text.Blank
import Jukebox.Text.CaseTable
import Jukebox.Text.Lowercase
import Jukebox.Text.Numeral
import Jukebox.Text.Separator
import Jukebox.Token.Basic
import Jukebox.Token.Canonical
import Jukebox.Token.Error
import Jukebox.Token.Expr
import Jukebox.Token.Reader
import Jukebox.Token.Resolve
import Jukebox.Token.Set
import Jukebox.Token.Template
import Jukebox.Token.Window
import Jukebox.Toml.Basic
import Jukebox.Toml.Number
import Jukebox.Toml.Reader
import Jukebox.Toml.Text
import Jukebox.Proofs.Calendar.Months
import Jukebox.Proofs.Calendar.Period
import Jukebox.Proofs.Traversal
import Jukebox.Proofs.Token.AnchorWindow
import Jukebox.Proofs.History.Spread
import Jukebox.Proofs.Text.Lowering
import Jukebox.Proofs.Text.Pieces
import Jukebox.Proofs.Token.Canonical
import Jukebox.Proofs.Statistics.Group
import Jukebox.Proofs.Statistics.Sum
import Jukebox.Proofs.Statistics.Sharing
import Jukebox.Proofs.Statistics.Edits
import Jukebox.Proofs.Statistics.Writing
import Jukebox.Proofs.Token.Lookup
import Jukebox.Proofs.Token.Collection
import Jukebox.Proofs.Token.Insertion
import Jukebox.Proofs.Token.Grammar
import Jukebox.Proofs.Token.Pieces
import Jukebox.Proofs.Token.Reading
import Jukebox.Proofs.Token.Spelling
import Jukebox.Proofs.Token.Rereading
import Jukebox.Proofs.Playlist.Years
import Jukebox.Proofs.Playlist.Ranking
import Jukebox.Proofs.Playlist.Alike
import Jukebox.Proofs.Statistics.Series
import Jukebox.Proofs.Run.Plan
import Jukebox.Proofs.History.Plays
import Jukebox.Proofs.Run.Evaluation
import Jukebox.Proofs.Run.Outcome
import Jukebox.Proofs.Run.Accounts
import Jukebox.Proofs.Run.Precedence
import Jukebox.Proofs.Run.Reordering
import Jukebox.Proofs.Run.WriteBack
import Jukebox.Proofs.Run.Yearly
import Jukebox.Proofs.Run.Rerun
import Jukebox.Proofs.Run.Stages
import Jukebox.Proofs.Run.Total
import Jukebox.Proofs.Calendar.Shift
import Jukebox.Proofs.Token.Range
import Jukebox.Proofs.History.Evenness
import Jukebox.Proofs.Run.Influence
import Jukebox.Proofs.Token.WeekPlaces
import Jukebox.Proofs.Calendar.MonthsAgo
import Jukebox.Proofs.Statistics.Ageing
import Jukebox.Proofs.Calendar.Layout
import Jukebox.Proofs.History.Unordered
import Jukebox.Proofs.History.Configured
import Jukebox.Proofs.Statistics.Totals
import Jukebox.Proofs.Token.Template
import Jukebox.Proofs.Statistics.Filling
import Jukebox.Proofs.Calendar.Writing
import Jukebox.Proofs.History.Written
import Jukebox.Proofs.Playlist.Names
import Jukebox.Proofs.Library.Merging
import Jukebox.Proofs.Token.AsWritten
import Jukebox.Proofs.Library.Members
import Jukebox.Proofs.Text.LetterCase
import Jukebox.Proofs.Library.Snapshot
