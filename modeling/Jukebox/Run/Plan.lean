import Jukebox.Library.Snapshot
import Jukebox.Playlist.Ranking
import Jukebox.Settings.Problem

/-!
# Plans

A plan is what settings come to at one instant: every token has been resolved, every playlist has a
definition, and every playlist can be ranked.
-/

set_option autoImplicit false
set_option relaxedAutoImplicit false

namespace Jukebox

open Calendar

/-- Why there is no report. -/
inductive RunError where
  | settings (e : SettingsError)
  | token (e : TokenError)
  /-- All that is wrong with the tokens of the settings. -/
  | tokens (es : List TokenError)
  | history (e : HistoryError)
  | statistic (e : StatisticError)
  | snapshot (e : SnapshotError)
  deriving DecidableEq, Repr

def RunError.message : RunError → String
  | settings e => e.message
  | token e => e.message
  | tokens es => TokenError.summary es
  | history e => e.message
  | statistic e => e.message
  | snapshot e => e.message

structure Plan where
  settings : Settings.Engine
  reference : Reference
  tokens : TokenSet
  groups : List Group
  playlists : List Definition

namespace Plan

/-- Accepts playlists that can all be ranked. -/
def checkPlaylists (tokens : TokenSet) : List Definition → Except StatisticError Unit
  | [] => .ok ()
  | d :: rest => do
    let _ ← d.rankingToken tokens
    checkPlaylists tokens rest

/-- The plan of some settings at an instant. -/
def of (s : Settings) (now : Instant) : Except RunError Plan := do
  s.check.mapError .settings
  let reference : Reference := ⟨now, s.engine.weekStartDay⟩
  let tokens ← (TokenSet.ofTexts s.tokenTexts reference).mapError .tokens
  let playlists ← (s.definitions now.year).mapError .token
  let ranking ← (TokenSet.ofTexts (playlists.map Definition.token) reference).mapError .tokens
  let tokens := tokens.insertAll ranking
  (checkPlaylists tokens playlists).mapError .statistic
  .ok ⟨s.engine, reference, tokens, s.groups, playlists⟩

end Plan

end Jukebox
