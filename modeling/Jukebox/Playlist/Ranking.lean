import Jukebox.Playlist.Definition

/-!
# Ranking

A playlist takes the files that its token makes eligible, in the order that the token gives them,
up to its greatest size. Files that the token does not tell apart stay as they came: most recent
oldest play first, files without plays last (`sortByOldest`).
-/

set_option autoImplicit false
set_option relaxedAutoImplicit false

namespace Jukebox

open Calendar

/-- A playlist with the keys of its files. -/
structure Playlist where
  definition : Definition
  files : List Nat
  deriving DecidableEq, Repr

namespace Record

/-- The oldest play of `a` is not before that of `b`; having none comes before all. -/
def notOlder (a b : Record) : Bool :=
  match a.earliest?, b.earliest? with
  | _, none => true
  | none, some _ => false
  | some s, some t => decide (t ≤ s)

/-- Files by oldest play, most recent first, files without plays last. -/
def sortByOldest (records : List Record) : List Record := records.mergeSort notOlder

end Record

namespace Playlist

/-- The eligible records in the order of a token, from records sorted by their oldest play. -/
def ranked (token : NamedToken) (records : List Record) : Except StatisticError (List Record) :=
  match token.token with
  | .unplayed => .ok <| (records.filter fun r ↦ !r.hasPlays).mergeSort
      fun a b ↦ decide (b.file.imported ≤ a.file.imported)
  | .recent => .ok <| (records.filter Record.hasPlays).mergeSort Record.notOlder
  | .unpopular => .ok <| (records.filter Record.hasPlays).mergeSort fun a b ↦ b.notOlder a
  | .prehistory => .ok <| (records.filter fun r ↦ decide (0 < r.prehistory)).mergeSort
      fun a b ↦ decide (b.prehistory ≤ a.prehistory)
  | _ => do
    let numbered ← records.mapM fun r ↦ do
      let v ← r.statistics.require token.text
      .ok (v.number, r)
    let eligible := numbered.filter fun p ↦ decide (0 < p.1)
    .ok ((eligible.mergeSort fun p q ↦ decide (q.1 ≤ p.1)).map Prod.snd)

end Playlist

namespace Definition

/-- The token that ranks the files, which must be known and no series. -/
def rankingToken (d : Definition) (tokens : TokenSet) : Except StatisticError NamedToken :=
  match tokens.get? d.token with
  | none => .error (.unknownToken d.token)
  | some t => if t.token.isSeries then .error (.notSortable d.name d.token) else .ok t

/-- The playlist of a definition, from records sorted by their oldest play. -/
def build (d : Definition) (tokens : TokenSet) (records : List Record) :
    Except StatisticError Playlist := do
  let token ← d.rankingToken tokens
  let members ← Playlist.ranked token records
  let members := if d.max = 0 then members else members.take d.max
  .ok ⟨d, members.map fun r ↦ r.file.key⟩

end Definition

end Jukebox
