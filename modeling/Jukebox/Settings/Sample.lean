/-!
The settings file that a user starts from: it shows every setting with its meaning.
-/

set_option autoImplicit false
set_option relaxedAutoImplicit false

namespace Jukebox.Settings

/-- The lines of the file. -/
def sampleLines : List String :=
  [
    "# Playstats Configuration",
    "#",
    "# Environment variables override these settings:",
    "# - PLAYSTATS_WEEK_START",
    "# - PLAYSTATS_MIDNIGHT_OFFSET",
    "# - PLAYSTATS_HISTORY_FORMAT",
    "# - PLAYSTATS_LOG_LEVEL",
    "# - PLAYSTATS_LOG_FORMAT",
    "",
    "[engine]",
    "# First day of the week: 0 = Sunday .. 6 = Saturday",
    "week_start = 0",
    "",
    "# Minutes subtracted from every play timestamp (late-night plays count",
    "# towards the previous day)",
    "midnight_offset = 0",
    "",
    "# Library field holding the play history",
    "history_field = \"Play History\"",
    "",
    "# strftime pattern for history entries; leave empty to try common layouts.",
    "# Spreadsheet serial dates are detected automatically.",
    "history_format = \"\"",
    "",
    "# Separator between history entries",
    "history_separator = \";\"",
    "",
    "# Separator used when rendering per-period series",
    "series_separator = \",\"",
    "",
    "# Spread plays counted by the library but missing from the history",
    "# between the import date and the oldest recorded play",
    "infer_prehistory = true",
    "",
    "# First year of per-year playlists without an explicit start year",
    "yearly_base = 2020",
    "",
    "# Run stages",
    "update_stats = true",
    "update_playlists = true",
    "",
    "[[stats]]",
    "enabled = true",
    "",
    "# Append to the current field value instead of replacing it",
    "append = false",
    "",
    "# Field receiving the filled template",
    "update_field = \"Play Stats\"",
    "",
    "# Group files sharing this field; \"key\" fills each file on its own",
    "group_by_field = \"key\"",
    "",
    "template = \"[total];[year];[month];[week];[today];[today-1];[year-1];[month-1];[week-1]\"",
    "",
    "[[playlists]]",
    "name = \"Recently Played\"",
    "token = \"[recent]\"",
    "max = 100",
    "",
    "[[playlists]]",
    "name = \"Top [year]\"",
    "token = \"[peryear]\"",
    "max = 100",
    "",
    "[logging]",
    "# Log level: trace, debug, info, warn, error",
    "level = \"info\"",
    "",
    "# Log format: pretty (for development) or json (for production)",
    "format = \"pretty\""
  ]

/-- The text of the file. -/
def sample : String := String.join (sampleLines.map fun line ↦ line ++ "\n")

end Jukebox.Settings
