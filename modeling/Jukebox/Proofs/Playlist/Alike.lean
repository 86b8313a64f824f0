import Jukebox.Proofs.Playlist.Ranking

/-!
What a playlist looks at. Of a record, ranking by a token sees the key and the import of the file,
the plays, and the statistic of this token alone (`Playlist.Alike`). So records that are changed in
nothing else come in the same order (`Playlist.ranked_map`) and make the same playlist
(`Definition.build_map`), also by another set of tokens that has the ranking one.
-/

set_option autoImplicit false
set_option relaxedAutoImplicit false

namespace Jukebox

theorem Record.notOlder_congr {a b a' b' : Record} (ha : a'.events = a.events)
    (hb : b'.events = b.events) : a'.notOlder b' = a.notOlder b := by
  unfold notOlder earliest?
  rw [ha, hb]

theorem Record.sortByOldest_map {f : Record → Record} {records : List Record}
    (h : ∀ r ∈ records, (f r).events = r.events) :
    sortByOldest (records.map f) = (sortByOldest records).map f :=
  (List.map_mergeSort fun a ha b hb ↦ (notOlder_congr (h a ha) (h b hb)).symm).symm

namespace Playlist

/-- A token sees no difference between two records. -/
structure Alike (token : NamedToken) (q r : Record) : Prop where
  key : q.file.key = r.file.key
  imported : q.file.imported = r.file.imported
  events : q.events = r.events
  prehistory : q.prehistory = r.prehistory
  statistic : q.statistics.get? token.text = r.statistics.get? token.text

variable {token : NamedToken} {a b a' b' : Record} {f : Record → Record} {records : List Record}

theorem Alike.number (h : Alike token a' a) :
    a'.statistics.number token.text = a.statistics.number token.text := by
  rw [Statistics.number, h.statistic, Statistics.number]

theorem Alike.eligible_eq (h : Alike token a' a) : eligible token a' = eligible token a := by
  unfold eligible
  rw [h.events, h.prehistory, h.number]

theorem Alike.notBehind_eq (ha : Alike token a' a) (hb : Alike token b' b) :
    notBehind token a' b' = notBehind token a b := by
  unfold notBehind
  rw [ha.imported, hb.imported, ha.prehistory, hb.prehistory, ha.number, hb.number,
    Record.notOlder_congr ha.events hb.events, Record.notOlder_congr hb.events ha.events]

theorem ranked_map (halike : ∀ r ∈ records, Alike token (f r) r)
    (h : ∀ r ∈ records, r.statistics.Has token.text) :
    ranked token (records.map f) = (ranked token records).map (List.map f) := by
  have hmapped : ∀ r ∈ records.map f, r.statistics.Has token.text := by
    refine List.forall_mem_map.2 fun r hr ↦ ?_
    rw [Statistics.Has, (halike r hr).statistic]
    exact h r hr
  have heligible : records.filter (eligible token ∘ f) = records.filter (eligible token) :=
    List.filter_congr fun r hr ↦ (halike r hr).eligible_eq
  rw [ranked_eq_ok h, ranked_eq_ok hmapped, List.filter_map, heligible]
  refine congrArg Except.ok (List.map_mergeSort fun a ha b hb ↦ ?_).symm
  exact ((halike a (List.mem_of_mem_filter ha)).notBehind_eq
    (halike b (List.mem_of_mem_filter hb))).symm

end Playlist

theorem Definition.listed_sublist {α : Type} (d : Definition) (members : List α) :
    (d.listed members).Sublist members := by
  unfold listed
  split
  · exact .refl _
  · exact List.take_sublist _ _

/-- A playlist of records in which its token sees no difference lists the same keys. -/
theorem Definition.build_map {d : Definition} {tokens tokens' : TokenSet} {token : NamedToken}
    {f : Record → Record} {records : List Record} (htoken : d.rankingToken tokens = .ok token)
    (htoken' : d.rankingToken tokens' = .ok token)
    (halike : ∀ r ∈ records, Playlist.Alike token (f r) r)
    (h : ∀ r ∈ records, r.statistics.Has token.text) :
    d.build tokens' (Record.sortByOldest (records.map f)) =
      d.build tokens (Record.sortByOldest records) := by
  have hsorted : ∀ r ∈ Record.sortByOldest records, r ∈ records := fun r ↦
    (List.mergeSort_perm _ _).mem_iff.1
  have hranked := Playlist.ranked_eq_ok fun r hr ↦ h r (hsorted r hr)
  have hmapped := Playlist.ranked_map (fun r hr ↦ halike r (hsorted r hr))
    fun r hr ↦ h r (hsorted r hr)
  rw [hranked, ← Record.sortByOldest_map fun r hr ↦ (halike r hr).events] at hmapped
  rw [build_eq_ok htoken hranked, build_eq_ok htoken' hmapped, listed_map, List.map_map]
  refine congrArg (fun keys ↦ Except.ok (Playlist.mk d keys)) (List.map_congr_left fun r hr ↦ ?_)
  have hmember := (List.mergeSort_perm _ _).mem_iff.1 ((d.listed_sublist _).mem hr)
  exact (halike r (hsorted r (List.mem_of_mem_filter hmember))).key

end Jukebox
