import Jukebox.Proofs.Playlist.Years
import Jukebox.Proofs.Run.Outcome

/-!
# Yearly playlists

A playlist by the yearly series stands for a playlist of each year, from the year that its token
names or else the one set for all, up to the present (`Settings.exists_definitions_split`,
`Definition.expand_perYear`). In a plan every one of these years has a token, found under the text
of the year, for the plays of this year and no others (`Plan.exists_get?_yearToken`). So in a run
the playlist of a year lists the files with plays in it, those with the most plays first
(`Plan.listsYear_of_build`).
-/

set_option autoImplicit false
set_option relaxedAutoImplicit false

namespace Jukebox

open Calendar

/-! ### Expansion -/

namespace Settings

variable {s : Settings} {before after : List Playlist} {q : Playlist}

/-- What a configured playlist stands for takes its place among all definitions. -/
theorem exists_definitions_split {y : Int} {ds : List Definition}
    (hsplit : s.playlists = before ++ q :: after) (h : s.definitions y = .ok ds) :
    ∃ ds₁ mine ds₂, ({ s with playlists := before }).definitions y = .ok ds₁ ∧
      Definition.expand q.name q.token q.max s.engine.yearlyBase y = .ok mine ∧
      ({ s with playlists := after }).definitions y = .ok ds₂ ∧ ds = ds₁ ++ mine ++ ds₂ := by
  obtain ⟨all, hall, rfl⟩ := Traversal.map_eq_ok_iff.1 h
  rw [hsplit, List.mapM_append, List.mapM_cons] at hall
  obtain ⟨first, hfirst, hall⟩ := Traversal.bind_eq_ok_iff.1 hall
  obtain ⟨others, hothers, hall⟩ := Traversal.bind_eq_ok_iff.1 hall
  obtain ⟨mine, hmine, hothers⟩ := Traversal.bind_eq_ok_iff.1 hothers
  obtain ⟨rest, hrest, hothers⟩ := Traversal.bind_eq_ok_iff.1 hothers
  obtain rfl := Except.ok.inj hothers
  obtain rfl := Except.ok.inj hall
  refine ⟨first.flatten, mine, rest.flatten, Traversal.map_eq_ok_iff.2 ⟨first, hfirst, rfl⟩, hmine,
    Traversal.map_eq_ok_iff.2 ⟨rest, hrest, rfl⟩, ?_⟩
  rw [List.flatten_append, List.flatten_cons, List.append_assoc]

end Settings

/-! ### Tokens of years -/

namespace Plan

variable {s : Settings} {now : Instant} {p : Plan}

/-- A year in the token of a playlist lies within the limits of selectors, so it is a signed number
of 32 bits. -/
theorem startYear_eq (hplan : Plan.of s now = .ok p) {q : Settings.Playlist}
    (hq : q ∈ s.playlists) {n : Nat}
    (htoken : Token.Expr.ofText q.token = .ok (.keyword .perYear (some n))) :
    Definition.startYear n = n := by
  obtain ⟨f, hderives⟩ := Token.Grammar.exists_derives_of_exprOfText htoken
  obtain ⟨tokens, _, htokens, _, _⟩ := tokens_of_eq_ok hplan
  have hmem : Token.canonical q.token ∈ tokens.texts := by
    rw [← hderives.canonical_eq]
    exact TokenSet.mem_texts_of_ofTexts htokens
      (List.mem_append_right _ (List.mem_map_of_mem hq))
  obtain ⟨t, ht, htext⟩ := List.mem_map.1 hmem
  obtain ⟨e, hread, hresolve⟩ := TokenSet.resolves_of_ofTexts htokens t ht
  rw [htext, hderives.exprOfText_eq] at hread
  obtain rfl := Except.ok.inj hread
  obtain ⟨_, hcheck, _⟩ := Traversal.bind_eq_ok_iff.1 hresolve
  obtain ⟨_, hlast⟩ := Token.checkValues_eq_ok_iff.1 hcheck n (List.mem_singleton.2 rfl)
  rw [Token.maxYear] at hlast
  exact Definition.startYear_of_le (by rw [Text.maxInt32]; omega)

/-- In a plan, the token of a year is found under its text. -/
theorem exists_get?_yearToken (hplan : Plan.of s now = .ok p) {y : Int}
    (hmem : Definition.yearToken y ∈ p.playlists.map Definition.token) :
    ∃ w, p.tokens.get? (Definition.yearToken y) = some ⟨Definition.yearToken y, .range w⟩ ∧
      ∀ t, w.contains t = true ↔ t.year = y := by
  obtain ⟨tokens, ranking, _, hranking, htokens⟩ := tokens_of_eq_ok hplan
  have hcanonical := Definition.canonical_yearToken y
  have htext : Definition.yearToken y ∈ ranking.texts := by
    have hranked := TokenSet.canonical_canonical_mem_texts hranking hmem
    rwa [hcanonical, hcanonical] at hranked
  -- The text has been read, so the year has four digits.
  obtain ⟨t, ht, hnamed⟩ := List.mem_map.1 htext
  obtain ⟨e, hread, _⟩ := TokenSet.resolves_of_ofTexts hranking t ht
  obtain ⟨f, hderives⟩ := Token.Grammar.exists_derives_of_exprOfText hread
  rw [hnamed, hcanonical] at hderives
  obtain ⟨hfirst, hlast⟩ := Definition.year_bounds_of_derives hderives
  obtain ⟨w, hw, hyear⟩ := Definition.ofText_yearToken hfirst hlast p.reference
  have hall : Definition.yearToken y ∈ p.tokens.texts := by
    rw [htokens]
    exact TokenSet.mem_texts_insertAll.2 (Or.inr htext)
  have hresolves := (NamedToken.ofText_eq_ok hw).2
  exact ⟨w, TokenSet.get?_eq_some_of_resolves (u := ⟨_, .range w⟩) (resolves hplan) hresolves hall,
    hyear⟩

end Plan

/-! ### Lists of years -/

namespace Record

/-- How many plays of a file fall into a year. -/
def playsIn (r : Record) (y : Int) : Nat := r.events.countP fun t ↦ t.year == y

end Record

/-- The list holds, up to its greatest size, the files with plays in a year, those with the most
plays first. -/
def Playlist.ListsYear (y : Int) (records : List Record) (list : Playlist) : Prop :=
  ∃ ranked : List Record, ranked.Perm (records.filter fun r ↦ 0 < r.playsIn y) ∧
    ranked.Pairwise (fun a b ↦ b.playsIn y ≤ a.playsIn y) ∧
    list.files = (list.definition.listed ranked).map fun r ↦ r.file.key

namespace Plan

variable {s : Settings} {now : Instant} {p : Plan} {files : List File} {records : List Record}
  {c : Context}

/-- The number that ranks a record by the token of a year is that of its plays in the year. -/
theorem number_yearToken (heval : p.evaluate files = .ok (records, c)) {text : String} {w : Window}
    {y : Int} (hmem : ⟨text, .range w⟩ ∈ p.tokens.tokens)
    (hyear : ∀ t, w.contains t = true ↔ t.year = y) {r : Record} (hr : r ∈ records) :
    r.statistics.number text = r.playsIn y := by
  obtain ⟨format, hformat⟩ := exists_format_of_evaluate heval
  obtain ⟨_, _, rfl⟩ := (evaluate_eq_ok_iff hformat).1 heval
  obtain ⟨f, _, rfl⟩ := List.mem_map.1 hr
  have hget := get?_statistics p c f (format.observed f) hmem
  rw [Statistics.number, hget]
  exact congrArg Int.ofNat (List.countP_congr fun t _ ↦ (hyear t).trans beq_iff_eq.symm)

/-- A playlist with the token of a year lists the files of the year. -/
theorem listsYear_of_build (heval : p.evaluate files = .ok (records, c)) {d : Definition} {w : Window}
    {y : Int} (hget : p.tokens.get? d.token = some ⟨d.token, .range w⟩)
    (hyear : ∀ t, w.contains t = true ↔ t.year = y) {list : Playlist}
    (hbuild : d.build p.tokens (Record.sortByOldest records) = .ok list) :
    list.ListsYear y records := by
  have hmem := TokenSet.mem_of_get?_eq_some hget
  obtain ⟨members, hranking, hranked⟩ :=
    Definition.exists_build_eq_ok_ranking (Definition.rankingToken_eq_ok_iff.2 ⟨hget, rfl⟩)
      (has_statistics_of_evaluate heval _ hmem)
  rw [hbuild] at hranked
  obtain rfl := Except.ok.inj hranked
  have hnumber : ∀ r ∈ records, r.statistics.number d.token = r.playsIn y := fun r ↦
    number_yearToken heval hmem hyear
  have hrecord : ∀ m ∈ members, m.1 ∈ records := fun m hm ↦
    (List.mem_filter.1 (hranking.perm_records.mem_iff.1 (List.mem_map_of_mem hm))).1
  refine ⟨members.map Prod.fst, ?_, ?_, ?_⟩
  · have heligible : records.filter (Playlist.eligible ⟨d.token, .range w⟩) =
        records.filter fun r ↦ 0 < r.playsIn y := by
      refine List.filter_congr fun r hr ↦ ?_
      change decide (0 < r.statistics.number d.token) = decide (0 < r.playsIn y)
      rw [hnumber r hr]
      exact decide_eq_decide.2 Int.natCast_pos
    exact heligible ▸ hranking.perm_records
  · rw [List.pairwise_map]
    refine hranking.pairwise.imp_of_mem fun {a b} ha hb hprecedes ↦ ?_
    have hnot : ¬ a.1.statistics.number d.token < b.1.statistics.number d.token :=
      hprecedes.not_leads
    rw [hnumber a.1 (hrecord a ha), hnumber b.1 (hrecord b hb)] at hnot
    omega
  · rw [Definition.listed_map, List.map_map]
    rfl

/-- A playlist by the yearly series stands, at its place among the playlists of the plan, for one
playlist of each year from its first one to the present, in order. Each of these years has a
window with the instants of the year and no others as its token. In a run with playlists there is a
list for each playlist of the plan, and that of a year lists the files with plays in the year, those
with the most plays first. -/
theorem yearly_playlists {before after : List Settings.Playlist} {q : Settings.Playlist}
    {value : Option Nat} (hplan : Plan.of s now = .ok p)
    (hsplit : s.playlists = before ++ q :: after)
    (htoken : Token.Expr.ofText q.token = .ok (.keyword .perYear value)) :
    ∃ (years : List Int) (ds₁ ds₂ : List Definition),
      years.Pairwise (· < ·) ∧
      (∀ y, y ∈ years ↔ value.elim s.engine.yearlyBase (fun n ↦ (n : Int)) ≤ y ∧ y ≤ now.year) ∧
      ({ s with playlists := before }).definitions now.year = .ok ds₁ ∧
      ({ s with playlists := after }).definitions now.year = .ok ds₂ ∧
      p.playlists = ds₁ ++ years.map (Definition.ofYear q.name q.max) ++ ds₂ ∧
      (∀ y ∈ years, ∃ w, p.tokens.get? (Definition.yearToken y) =
          some ⟨Definition.yearToken y, .range w⟩ ∧ ∀ t, w.contains t = true ↔ t.year = y) ∧
      ∀ files report, p.settings.updatePlaylists = true → p.run files = .ok report →
        ∃ records c, p.evaluate files = .ok (records, c) ∧ records.map Record.file = files ∧
          report.playlists.map Playlist.definition = p.playlists ∧
          ∀ y ∈ years, ∀ list ∈ report.playlists,
            list.definition = Definition.ofYear q.name q.max y → list.ListsYear y records := by
  obtain ⟨ds₁, mine, ds₂, hbefore, hmine, hafter, hplaylists⟩ :=
    Settings.exists_definitions_split hsplit (definitions_of_eq_ok hplan)
  obtain ⟨first, hfirst, rfl⟩ : ∃ first,
      first = value.elim s.engine.yearlyBase (fun n ↦ (n : Int)) ∧
        mine = (yearsBetween first now.year).map (Definition.ofYear q.name q.max) := by
    rw [Definition.expand_perYear htoken] at hmine
    refine ⟨_, ?_, (Except.ok.inj hmine).symm⟩
    cases value with
    | none => rw [Option.elim_none, Option.elim_none]
    | some n =>
      have hq : q ∈ s.playlists := hsplit ▸ List.mem_append_right _ List.mem_cons_self
      rw [Option.elim_some, Option.elim_some, startYear_eq hplan hq htoken]
  have htokens : ∀ y ∈ yearsBetween first now.year, ∃ w,
      p.tokens.get? (Definition.yearToken y) = some ⟨Definition.yearToken y, .range w⟩ ∧
        ∀ t, w.contains t = true ↔ t.year = y := by
    intro y hy
    refine exists_get?_yearToken hplan (List.mem_map.2 ⟨.ofYear q.name q.max y, ?_, rfl⟩)
    rw [hplaylists]
    exact List.mem_append_left _ (List.mem_append_right _ (List.mem_map_of_mem hy))
  refine ⟨_, ds₁, ds₂, pairwise_yearsBetween first now.year, fun y ↦ ?_, hbefore, hafter,
    hplaylists, htokens, fun files report hactive h ↦ ?_⟩
  · rw [mem_yearsBetween_iff, hfirst]
  obtain ⟨records, c, _, playlists, heval, _, hbuilds, rfl⟩ := run_eq_ok_iff.1 h
  obtain ⟨format, hformat⟩ := exists_format hplan
  rw [activePlaylists, if_pos hactive] at hbuilds
  refine ⟨records, c, heval, map_file_of_evaluate hformat heval, ?_, fun y hy list hlist hd ↦ ?_⟩
  · exact Traversal.map_eq_of_mapM_eq_ok
      (fun d list ↦ Definition.definition_of_build_eq_ok) hbuilds
  · obtain ⟨d, _, hbuild⟩ := Traversal.exists_eq_ok_of_mem hbuilds hlist
    obtain rfl := Definition.definition_of_build_eq_ok hbuild
    rw [hd] at hbuild
    obtain ⟨w, hget, hyear⟩ := htokens y hy
    exact listsYear_of_build (d := .ofYear q.name q.max y) heval hget hyear hbuild

/-- A yearly playlist from 2022 on, between two others, in a run in 2024 for files with plays in two
of the years. -/
theorem yearly_playlists_from_2022 :
    let before : Settings.Playlist := { name := "All", token := "[total]" }
    let yearly : Settings.Playlist :=
      { name := "Best of [year]", token := "[ PerYear = 2022 ]", max := 1 }
    let after : Settings.Playlist := { name := "Each", token := "peryear" }
    let s : Settings := { playlists := [before, yearly, after] }
    let files : List File := [
      { key := 1, history := "2022-05-01;2024-01-01" }, { key := 2, history := "2024-05-01" },
      { key := 3, history := "2022-01-01;2022-12-31" }]
    ∃ (p : Plan) (report : Report) (years : List Int) (ds₁ ds₂ : List Definition),
      Plan.of s (.midnight ⟨yearStart 2024 + 200, by decide⟩) = .ok p ∧
      p.run files = .ok report ∧ years.Pairwise (· < ·) ∧
      (∀ y, y ∈ years ↔ 2022 ≤ y ∧ y ≤ 2024) ∧
      p.playlists = ds₁ ++ years.map (Definition.ofYear "Best of [year]" 1) ++ ds₂ ∧
      ∃ records c, p.evaluate files = .ok (records, c) ∧
        report.playlists.map Playlist.definition = p.playlists ∧
        ∀ y ∈ years, ∀ list ∈ report.playlists,
          list.definition = Definition.ofYear "Best of [year]" 1 y →
            list.ListsYear y records := by
  intro before yearly after s files
  have hsplit : s.playlists = [before] ++ yearly :: [after] := rfl
  have hok : (Plan.of s (.midnight ⟨yearStart 2024 + 200, by decide⟩) >>= fun p ↦
      p.evaluate files).isOk = true := by
    decide +kernel
  obtain ⟨⟨_, _⟩, hboth⟩ := Traversal.exists_eq_ok_of_isOk hok
  obtain ⟨p, hplan, heval⟩ := Traversal.bind_eq_ok_iff.1 hboth
  obtain ⟨report, hrun⟩ := exists_run_of_evaluate hplan heval
  have hactive : p.settings.updatePlaylists = true := by
    rw [(settings_of_eq_ok hplan).2.1]
  have hread : Token.Expr.ofText yearly.token = .ok (.keyword .perYear (some 2022)) := by
    decide +kernel
  obtain ⟨years, ds₁, ds₂, hpairwise, hyears, _, _, hplaylists, _, hlists⟩ :=
    yearly_playlists hplan hsplit hread
  obtain ⟨records, c, heval, _, hdefinitions, hlist⟩ := hlists files report hactive hrun
  exact ⟨p, report, years, ds₁, ds₂, hplan, hrun, hpairwise, hyears, hplaylists, records, c, heval,
    hdefinitions, hlist⟩

end Plan

end Jukebox
