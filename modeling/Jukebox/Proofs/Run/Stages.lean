import Jukebox.Proofs.Playlist.Alike
import Jukebox.Proofs.Run.Outcome
import Jukebox.Proofs.Statistics.Sharing

/-!
# The two stages of a run

Groups and playlists share one set of tokens and one set of statistics for each file. Plans that
are made at one instant of settings with the same engine evaluate files to the same records, but for
the statistics (`Plan.evaluate_countedBy`), and where both have a token of some text, this is the
same token with the same value (`Plan.get?_eq_of_get?`). A playlist only looks at its own token
(`Plan.build_countedBy`), and a group at those of its template, also where it adds up
(`Plan.apply_countedBy`). So neither stage has a say in what the other one reports
(`Plan.stages_apart`).
-/

set_option autoImplicit false
set_option relaxedAutoImplicit false

namespace Jukebox

open Calendar

/-! ### Counting again -/

/-- The record with the statistics of some tokens. -/
def Record.countedBy (tokens : TokenSet) (c : Context) (r : Record) : Record :=
  { r with statistics := tokens.evaluate r c }

@[simp] theorem Record.statistics_countedBy (tokens : TokenSet) (c : Context) (r : Record) :
    (r.countedBy tokens c).statistics = tokens.evaluate r c := rfl

/-- Tokens are counted from the plays, not from other statistics. -/
theorem TokenSet.evaluate_with_statistics (tokens : TokenSet) (r : Record)
    (statistics : Statistics) (c : Context) :
    tokens.evaluate { r with statistics } c = tokens.evaluate r c := by
  simp only [TokenSet.evaluate, Plan.evaluate_with_statistics]

namespace Plan

variable {s s' : Settings} {now : Instant} {p p' : Plan} {files : List File}
  {records : List Record} {c : Context}

/-- A plan with the same engine makes the same record, counted by its own tokens. -/
theorem record_countedBy (hsettings : p'.settings = p.settings) (c : Context) (f : File)
    (plays : List Instant) :
    p'.record c f plays = (p.record c f plays).countedBy p'.tokens c := by
  rw [Record.countedBy]
  unfold record
  rw [TokenSet.evaluate_with_statistics, hsettings]

/-- So does the evaluation of files. -/
theorem evaluate_countedBy (hsettings : p'.settings = p.settings)
    (hreference : p'.reference = p.reference) (h : p.evaluate files = .ok (records, c)) :
    p'.evaluate files = .ok (records.map (Record.countedBy p'.tokens c), c) := by
  obtain ⟨format, hformat⟩ := exists_format_of_evaluate h
  have hformat' : p'.format = .ok format := by
    rw [Plan.format, hsettings]
    exact hformat
  obtain ⟨hplays, hc, hrecords⟩ := (evaluate_eq_ok_iff hformat).1 h
  refine (evaluate_eq_ok_iff hformat').2 ⟨hplays, by rw [hreference, hc], ?_⟩
  rw [hrecords, List.map_map]
  exact List.map_congr_left fun f _ ↦ (record_countedBy hsettings c f _).symm

/-- Each token has its value in every record. -/
theorem get?_of_evaluate (h : p.evaluate files = .ok (records, c)) {t : NamedToken}
    (ht : t ∈ p.tokens.tokens) :
    ∀ r ∈ records, r.statistics.get? t.text = some (t.token.evaluate r c) := by
  obtain ⟨format, hformat⟩ := exists_format_of_evaluate h
  obtain ⟨_, _, rfl⟩ := (evaluate_eq_ok_iff hformat).1 h
  exact List.forall_mem_map.2 fun f _ ↦ get?_statistics p c f (format.observed f) ht

/-- Each text has at most one value in a record. -/
theorem nodup_keys_of_evaluate (h : p.evaluate files = .ok (records, c)) :
    ∀ r ∈ records, (Assoc.keys r.statistics).Nodup := by
  obtain ⟨format, hformat⟩ := exists_format_of_evaluate h
  obtain ⟨_, _, rfl⟩ := (evaluate_eq_ok_iff hformat).1 h
  refine List.forall_mem_map.2 fun f _ ↦ ?_
  unfold record
  exact TokenSet.nodup_keys_evaluate _ _ c

/-! ### Plans with the same engine -/

/-- Settings with the same engine read histories alike and have the same reference. -/
theorem settings_and_reference_eq (hplan : Plan.of s now = .ok p) (hplan' : Plan.of s' now = .ok p')
    (hengine : s'.engine = s.engine) :
    p'.settings = p.settings ∧ p'.reference = p.reference := by
  obtain ⟨_, hsettings, hreference, _⟩ := settings_of_eq_ok hplan
  obtain ⟨_, hsettings', hreference', _⟩ := settings_of_eq_ok hplan'
  rw [hsettings, hsettings', hreference, hreference', hengine]
  exact ⟨rfl, rfl⟩

/-- What two plans find under one text is the same token. -/
theorem eq_of_get?_eq_some (hplan : Plan.of s now = .ok p) (hplan' : Plan.of s' now = .ok p')
    (hreference : p'.reference = p.reference) {text : String} {t t' : NamedToken}
    (ht : p.tokens.get? text = some t) (ht' : p'.tokens.get? text = some t') : t' = t :=
  TokenSet.eq_of_get?_eq_some (canonical_of_mem_texts hplan) (canonical_of_mem_texts hplan')
    (resolves hplan) (hreference ▸ resolves hplan') ht ht'

/-- Counting again leaves the value of a token that both plans have. -/
theorem get?_countedBy (heval : p.evaluate files = .ok (records, c)) {t : NamedToken}
    (ht : t ∈ p.tokens.tokens) (ht' : t ∈ p'.tokens.tokens) {r : Record} (hr : r ∈ records) :
    (r.countedBy p'.tokens c).statistics.get? t.text = r.statistics.get? t.text := by
  rw [get?_of_evaluate heval ht r hr]
  exact TokenSet.get?_evaluate r c ht'

/-! ### Playlists -/

/-- A playlist of both plans lists the same files. -/
theorem build_countedBy (hplan : Plan.of s now = .ok p) (hplan' : Plan.of s' now = .ok p')
    (hreference : p'.reference = p.reference) (heval : p.evaluate files = .ok (records, c))
    {d : Definition} (hd : d ∈ p.playlists) (hd' : d ∈ p'.playlists) :
    d.build p'.tokens (Record.sortByOldest (records.map (Record.countedBy p'.tokens c))) =
      d.build p.tokens (Record.sortByOldest records) := by
  obtain ⟨t, htoken⟩ := exists_rankingToken hplan d hd
  obtain ⟨t', htoken'⟩ := exists_rankingToken hplan' d hd'
  have ht := (Definition.rankingToken_eq_ok_iff.1 htoken).1
  have ht' := (Definition.rankingToken_eq_ok_iff.1 htoken').1
  obtain rfl := eq_of_get?_eq_some hplan hplan' hreference ht ht'
  have hmem := TokenSet.mem_of_get?_eq_some ht
  have hmem' := TokenSet.mem_of_get?_eq_some ht'
  refine Definition.build_map htoken htoken' (fun r hr ↦ ?_)
    (has_statistics_of_evaluate heval _ hmem)
  exact ⟨rfl, rfl, rfl, rfl, get?_countedBy heval hmem hmem' hr⟩

/-! ### Groups -/

/-- The sum that a group fills in holds under a token what the records hold there, so it does not
matter what else they hold. -/
theorem get?_statistics_countedBy (heval : p.evaluate files = .ok (records, c)) {t : NamedToken}
    (ht : t ∈ p.tokens.tokens) (ht' : t ∈ p'.tokens.tokens) (grouping : Grouping) {r : Record}
    (hr : r ∈ records) :
    (grouping.statistics (records.map (Record.countedBy p'.tokens c))
        (r.countedBy p'.tokens c)).get? t.text =
      (grouping.statistics records r).get? t.text := by
  cases grouping with
  | file => exact get?_countedBy heval ht ht' hr
  | field name =>
    have hunder : ∀ q ∈ records.filter fun q ↦ q.groupKey name == r.groupKey name,
        (q.countedBy p'.tokens c).statistics.under t.text = q.statistics.under t.text := by
      intro q hq
      have hmem := List.mem_of_mem_filter hq
      rw [Record.statistics_countedBy,
        Statistics.under_eq_toList_get? (TokenSet.nodup_keys_evaluate p'.tokens q c),
        Statistics.under_eq_toList_get? (nodup_keys_of_evaluate heval q hmem),
        ← Record.statistics_countedBy, get?_countedBy heval ht ht' hmem]
    rw [Grouping.statistics, Grouping.statistics, Statistics.get?_sum, Statistics.get?_sum,
      List.filter_map, List.map_map, List.flatMap_map, List.flatMap_map]
    exact congrArg Statistic.sum? (List.flatMap_congr hunder)

/-- A template of both plans is filled with the same text. -/
theorem fill_countedBy (hplan : Plan.of s now = .ok p) (hplan' : Plan.of s' now = .ok p')
    (hsettings : p'.settings = p.settings) (hreference : p'.reference = p.reference)
    (heval : p.evaluate files = .ok (records, c)) {g : Group} (hg : g ∈ p.groups)
    (hg' : g ∈ p'.groups) {r : Record} (hr : r ∈ records) :
    p'.filler.fill g.template (g.grouping.statistics (records.map (Record.countedBy p'.tokens c))
        (r.countedBy p'.tokens c)) =
      p.filler.fill g.template (g.grouping.statistics records r) := by
  have htoken : ∀ inner, .token inner ∈ Token.pieces g.template.toList → ∃ t,
      p.tokens.get? (String.ofList (Token.canonicalChars inner)) = some t ∧
        p'.tokens.get? (String.ofList (Token.canonicalChars inner)) = some t := by
    intro inner hinner
    obtain ⟨t, ht⟩ := exists_get?_of_group hplan hg hinner
    obtain ⟨t', ht'⟩ := exists_get?_of_group hplan' hg' hinner
    obtain rfl := eq_of_get?_eq_some hplan hplan' hreference ht ht'
    exact ⟨_, ht, ht'⟩
  refine Filler.fill_congr_of_tokens ?_ (fun inner hinner ↦ ?_) fun inner hinner t ht ↦ ?_
  · rw [filler, filler, hsettings]
  · obtain ⟨t, ht, ht'⟩ := htoken inner hinner
    exact ht'.trans ht.symm
  · obtain ⟨u, hu, hu'⟩ := htoken inner hinner
    obtain rfl := Option.some.inj (hu.symm.trans ht)
    exact get?_statistics_countedBy heval (TokenSet.mem_of_get?_eq_some hu)
      (TokenSet.mem_of_get?_eq_some hu') g.grouping hr

/-- A group of both plans has the same outcome. -/
theorem apply_countedBy (hplan : Plan.of s now = .ok p) (hplan' : Plan.of s' now = .ok p')
    (hsettings : p'.settings = p.settings) (hreference : p'.reference = p.reference)
    (heval : p.evaluate files = .ok (records, c)) {g : Group} (hg : g ∈ p.groups)
    (hg' : g ∈ p'.groups) :
    g.apply p'.filler (records.map (Record.countedBy p'.tokens c)) = g.apply p.filler records := by
  have hfill : ∀ r ∈ records, _ := fun r hr ↦
    fill_countedBy hplan hplan' hsettings hreference heval hg hg' hr
  obtain ⟨outcome, houtcome⟩ :=
    Group.exists_apply_eq_ok (covers_of_evaluate hplan heval hg p.settings.seriesSeparator)
  have houtcome' : g.apply p.filler records = .ok outcome := houtcome
  obtain ⟨hall, rfl⟩ := Group.apply_eq_ok_iff.1 houtcome'
  have hupdates : g.updates p'.filler (records.map (Record.countedBy p'.tokens c)) =
      g.updates p.filler records := by
    rw [Group.updates, List.filterMap_map]
    refine List.filterMap_congr fun r hr ↦ ?_
    rw [Function.comp_apply, Group.text, hfill r hr]
    rfl
  rw [houtcome']
  refine Group.apply_eq_ok_iff.2 ⟨List.forall_mem_map.2 fun r hr ↦ ?_, ?_⟩
  · rw [hfill r hr]
    exact hall r hr
  · rw [hupdates, List.length_map]

/-! ### Runs -/

/-- The playlists of settings do not depend on the groups. -/
theorem playlists_eq (hplan : Plan.of s now = .ok p) (hplan' : Plan.of s' now = .ok p')
    (hengine : s'.engine = s.engine) (hplaylists : s'.playlists = s.playlists) :
    p'.playlists = p.playlists := by
  have h := definitions_of_eq_ok hplan
  have h' := definitions_of_eq_ok hplan'
  rw [Settings.definitions, hengine, hplaylists, ← Settings.definitions, h] at h'
  exact (Except.ok.inj h').symm

/-- Runs of plans with the same playlists report the same playlists. -/
theorem playlists_of_run_eq (hplan : Plan.of s now = .ok p) (hplan' : Plan.of s' now = .ok p')
    (hengine : s'.engine = s.engine) (hplaylists : s'.playlists = s.playlists)
    (heval : p.evaluate files = .ok (records, c)) {report report' : Report}
    (h : p.run files = .ok report) (h' : p'.run files = .ok report') :
    report'.playlists = report.playlists := by
  obtain ⟨hsettings, hreference⟩ := settings_and_reference_eq hplan hplan' hengine
  obtain ⟨_, hbuilt⟩ := stages_of_run_eq_ok h heval
  obtain ⟨_, hbuilt'⟩ := stages_of_run_eq_ok h' (evaluate_countedBy hsettings hreference heval)
  have hsame := playlists_eq hplan hplan' hengine hplaylists
  have hactive : p'.activePlaylists = p.activePlaylists := by
    rw [activePlaylists, activePlaylists, hsettings, hsame]
  rw [hactive, Traversal.mapM_congr fun d hd ↦ build_countedBy hplan hplan' hreference heval
    (p.activePlaylists_sublist.mem hd) (hsame ▸ p.activePlaylists_sublist.mem hd),
    hbuilt] at hbuilt'
  exact (Except.ok.inj hbuilt').symm

/-- Runs of plans with the same groups report the same outcomes. -/
theorem stats_of_run_eq (hplan : Plan.of s now = .ok p) (hplan' : Plan.of s' now = .ok p')
    (hengine : s'.engine = s.engine) (hgroups : s'.groups = s.groups)
    (heval : p.evaluate files = .ok (records, c)) {report report' : Report}
    (h : p.run files = .ok report) (h' : p'.run files = .ok report') :
    report'.stats = report.stats := by
  obtain ⟨hsettings, hreference⟩ := settings_and_reference_eq hplan hplan' hengine
  obtain ⟨hstats, _⟩ := stages_of_run_eq_ok h heval
  obtain ⟨hstats', _⟩ := stages_of_run_eq_ok h' (evaluate_countedBy hsettings hreference heval)
  have hsame : p'.groups = p.groups := by
    rw [(settings_of_eq_ok hplan).2.2.2, (settings_of_eq_ok hplan').2.2.2, hgroups]
  have hactive : p'.activeGroups = p.activeGroups := by
    rw [activeGroups, activeGroups, hsettings, hsame]
  rw [hactive, Traversal.mapM_congr fun g hg ↦ apply_countedBy hplan hplan' hsettings hreference
    heval (p.activeGroups_sublist.mem hg) (hsame ▸ p.activeGroups_sublist.mem hg),
    hstats] at hstats'
  exact (Except.ok.inj hstats').symm

/-- What both plans have a token for has one value in every record. -/
theorem forall₂_get?_countedBy (hplan : Plan.of s now = .ok p) (hplan' : Plan.of s' now = .ok p')
    (hreference : p'.reference = p.reference) (heval : p.evaluate files = .ok (records, c))
    {text : String} (htext : text ∈ p.tokens.texts) (htext' : text ∈ p'.tokens.texts) :
    List.Forall₂ (fun r r' ↦ r'.file = r.file ∧
      ∃ v, r.statistics.get? text = some v ∧ r'.statistics.get? text = some v)
      records (records.map (Record.countedBy p'.tokens c)) := by
  obtain ⟨t, ht, rfl⟩ := List.mem_map.1 htext
  obtain ⟨t', ht', htext⟩ := List.mem_map.1 htext'
  have hresolves := resolves hplan t ht
  have hresolves' : t'.Resolves p.reference := hreference ▸ resolves hplan' t' ht'
  obtain rfl : t' = t :=
    congrArg₂ NamedToken.mk htext (hresolves.token_eq hresolves' htext)
  rw [List.forall₂_map_right_iff, List.forall₂_same]
  intro r hr
  have hvalue := get?_of_evaluate heval ht r hr
  exact ⟨rfl, _, hvalue, (get?_countedBy heval ht ht' hr).trans hvalue⟩

/-- Plans of settings with the same engine, made at one instant, evaluate the same files in the same
context, and both have a report, with the same totals. If the playlists are the same, so are the
reported ones, whatever the groups. If the groups are the same, so are their outcomes, whatever the
playlists. And what both plans have a token for has one value in every file. -/
theorem stages_apart (hplan : Plan.of s now = .ok p) (hplan' : Plan.of s' now = .ok p')
    (hengine : s'.engine = s.engine) (heval : p.evaluate files = .ok (records, c)) :
    ∃ records' report report', p'.evaluate files = .ok (records', c) ∧
      p.run files = .ok report ∧ p'.run files = .ok report' ∧
      report'.totalEvents = report.totalEvents ∧
      report'.inferredEvents = report.inferredEvents ∧
      (s'.playlists = s.playlists → report'.playlists = report.playlists) ∧
      (s'.groups = s.groups → report'.stats = report.stats) ∧
      ∀ text ∈ p.tokens.texts, text ∈ p'.tokens.texts →
        List.Forall₂ (fun r r' ↦ r'.file = r.file ∧
          ∃ v, r.statistics.get? text = some v ∧ r'.statistics.get? text = some v)
          records records' := by
  obtain ⟨hsettings, hreference⟩ := settings_and_reference_eq hplan hplan' hengine
  have heval' := evaluate_countedBy hsettings hreference heval
  obtain ⟨report, h⟩ := exists_run_of_evaluate hplan heval
  obtain ⟨report', h'⟩ := exists_run_of_evaluate hplan' heval'
  obtain ⟨htotal, hinferred⟩ := totals_of_run_eq_ok h heval
  obtain ⟨htotal', hinferred'⟩ := totals_of_run_eq_ok h' heval'
  rw [List.map_map] at htotal' hinferred'
  exact ⟨_, report, report', heval', h, h', htotal'.trans htotal.symm,
    hinferred'.trans hinferred.symm,
    fun hplaylists ↦ playlists_of_run_eq hplan hplan' hengine hplaylists heval h h',
    fun hgroups ↦ stats_of_run_eq hplan hplan' hengine hgroups heval h h',
    fun text ↦ forall₂_get?_countedBy hplan hplan' hreference heval⟩

/-- Settings with a group by artist, others with the same playlist and others with the same group. A
token of the group comes in another spelling as that of the playlist. -/
theorem stages_apart_other_groups_and_playlists :
    let now : Instant := .midnight ⟨yearStart 2024, by decide⟩
    let groups : List Settings.Stats :=
      [{ enabled := true, groupByField := "Artist", template := "[ Total ];[permonth]" }]
    let playlists : List Settings.Playlist := [{ name := "Most played", token := "[TOTAL]" }]
    let s : Settings := { stats := groups, playlists }
    let s' : Settings := { stats := [{ enabled := true, template := "[recent]" }], playlists }
    let s'' : Settings := { stats := groups, playlists := [{ name := "Old", token := "unpopular" }] }
    let files : List File := [
      { key := 1, history := "2023-05-01", fields := [("artist", "ABBA")] },
      { key := 2, imported := 1700000000, declaredPlays := 2, fields := [("artist", "abba")] }]
    ∃ p p' p'' report report' report'',
      Plan.of s now = .ok p ∧ Plan.of s' now = .ok p' ∧ Plan.of s'' now = .ok p'' ∧
      p.run files = .ok report ∧ p'.run files = .ok report' ∧ p''.run files = .ok report'' ∧
      report'.playlists = report.playlists ∧ report''.stats = report.stats ∧
      report'.totalEvents = report.totalEvents ∧ report''.totalEvents = report.totalEvents := by
  intro now groups playlists s s' s'' files
  have hok : (Plan.of s now >>= fun p ↦ p.evaluate files).isOk = true := by decide +kernel
  obtain ⟨⟨records, c⟩, hboth⟩ := Traversal.exists_eq_ok_of_isOk hok
  obtain ⟨p, hplan, heval⟩ := Traversal.bind_eq_ok_iff.1 hboth
  obtain ⟨p', hplan'⟩ := Traversal.exists_eq_ok_of_isOk (x := Plan.of s' now) (by decide +kernel)
  obtain ⟨p'', hplan''⟩ := Traversal.exists_eq_ok_of_isOk (x := Plan.of s'' now) (by decide +kernel)
  obtain ⟨_, report, report', _, h, h', htotal, _, hplaylists, _, _⟩ :=
    stages_apart hplan hplan' rfl heval
  obtain ⟨_, again, report'', _, hagain, h'', htotal', _, _, hstats, _⟩ :=
    stages_apart hplan hplan'' rfl heval
  obtain rfl : again = report := Except.ok.inj (hagain.symm.trans h)
  exact ⟨p, p', p'', again, report', report'', hplan, hplan', hplan'', h, h', h'',
    hplaylists rfl, hstats rfl, htotal, htotal'⟩

end Plan

end Jukebox
