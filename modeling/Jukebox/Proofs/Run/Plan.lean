import Jukebox.Proofs.Playlist.Ranking
import Jukebox.Proofs.Token.Collection
import Jukebox.Run.Basic

/-!
What a plan promises. Every playlist of a plan can be ranked (`Plan.exists_rankingToken`), every
token of it is what its text means (`Plan.resolves`), every token in a template of the plan is found
(`Plan.exists_get?_of_group`), and histories can be read in its format (`Plan.exists_format`). Records
counted by a plan have a statistic for every token (`Plan.get?_statistics`), so groups and playlists
of the plan never miss one.
-/

set_option autoImplicit false
set_option relaxedAutoImplicit false

namespace Jukebox

open Calendar

/-! ### Building playlists -/

namespace Definition

theorem exists_build_eq_ok {d : Definition} {tokens : TokenSet} {token : NamedToken}
    {records : List Record} (htoken : d.rankingToken tokens = .ok token)
    (h : ∀ t ∈ tokens.tokens, ∀ r ∈ records, r.statistics.Has t.text) :
    ∃ playlist, d.build tokens records = .ok playlist :=
  ⟨_, build_eq_ok htoken (Playlist.ranked_eq_ok (h token (mem_of_rankingToken htoken)))⟩

end Definition

/-! ### What a plan is made of -/

namespace Plan

/-- How templates of the plan are filled. -/
def filler (p : Plan) : Filler := ⟨p.tokens, p.settings.seriesSeparator⟩

/-- The groups that take part in a run. -/
def activeGroups (p : Plan) : List Group := if p.settings.updateStats then p.groups else []

/-- The playlists that take part in a run. -/
def activePlaylists (p : Plan) : List Definition :=
  if p.settings.updatePlaylists then p.playlists else []

theorem activeGroups_sublist (p : Plan) : p.activeGroups.Sublist p.groups := by
  unfold activeGroups
  split
  · exact .refl _
  · exact List.nil_sublist _

theorem activePlaylists_sublist (p : Plan) : p.activePlaylists.Sublist p.playlists := by
  unfold activePlaylists
  split
  · exact .refl _
  · exact List.nil_sublist _

theorem exists_rankingToken_of_checkPlaylists {tokens : TokenSet} {ds : List Definition}
    (h : checkPlaylists tokens ds = .ok ()) : ∀ d ∈ ds, ∃ t, d.rankingToken tokens = .ok t := by
  induction ds with
  | nil => exact List.forall_mem_nil _
  | cons d rest ih =>
    obtain ⟨t, ht, hrest⟩ := Traversal.bind_eq_ok_iff.1 h
    exact List.forall_mem_cons.2 ⟨⟨t, ht⟩, ih hrest⟩

variable {s : Settings} {now : Instant} {p : Plan}

/-- What each step on the way to a plan has left behind. -/
theorem steps_of_eq_ok (h : Plan.of s now = .ok p) :
    s.problems = [] ∧ s.definitions now.year = .ok p.playlists ∧
      checkPlaylists p.tokens p.playlists = .ok () ∧
      ∃ tokens ranking, TokenSet.ofTexts s.tokenTexts p.reference = .ok tokens ∧
        TokenSet.ofTexts (p.playlists.map Definition.token) p.reference = .ok ranking ∧
        p = ⟨s.engine, ⟨now, s.engine.weekStartDay⟩, tokens.insertAll ranking, s.groups,
          p.playlists⟩ := by
  obtain ⟨_, hcheck, h⟩ := Traversal.bind_eq_ok_iff.1 h
  obtain ⟨tokens, htokens, h⟩ := Traversal.bind_eq_ok_iff.1 h
  obtain ⟨playlists, hplaylists, h⟩ := Traversal.bind_eq_ok_iff.1 h
  obtain ⟨ranking, hranking, h⟩ := Traversal.bind_eq_ok_iff.1 h
  obtain ⟨_, hranked, h⟩ := Traversal.bind_eq_ok_iff.1 h
  obtain rfl := Except.ok.inj h
  exact ⟨Settings.check_eq_ok_iff.1 (Traversal.mapError_eq_ok_iff.1 hcheck),
    Traversal.mapError_eq_ok_iff.1 hplaylists, Traversal.mapError_eq_ok_iff.1 hranked, tokens, ranking,
    Traversal.mapError_eq_ok_iff.1 htokens, Traversal.mapError_eq_ok_iff.1 hranking, rfl⟩

/-- Every playlist of a plan can be ranked. -/
theorem exists_rankingToken (h : Plan.of s now = .ok p) :
    ∀ d ∈ p.playlists, ∃ t, d.rankingToken p.tokens = .ok t :=
  exists_rankingToken_of_checkPlaylists (steps_of_eq_ok h).2.2.1

theorem settings_of_eq_ok (h : Plan.of s now = .ok p) :
    s.problems = [] ∧ p.settings = s.engine ∧ p.reference = ⟨now, s.engine.weekStartDay⟩ ∧
      p.groups = s.groups := by
  obtain ⟨hproblems, _, _, _, _, _, _, heq⟩ := steps_of_eq_ok h
  exact ⟨hproblems, congrArg settings heq, congrArg reference heq, congrArg groups heq⟩

/-- The tokens come from the texts of the settings, then from the playlists. -/
theorem tokens_of_eq_ok (h : Plan.of s now = .ok p) :
    ∃ tokens ranking, TokenSet.ofTexts s.tokenTexts p.reference = .ok tokens ∧
      TokenSet.ofTexts (p.playlists.map Definition.token) p.reference = .ok ranking ∧
      p.tokens = tokens.insertAll ranking := by
  obtain ⟨_, _, _, made, ranking, hmade, hranking, heq⟩ := steps_of_eq_ok h
  exact ⟨made, ranking, hmade, hranking, congrArg tokens heq⟩

/-- The playlists come from the settings. -/
theorem definitions_of_eq_ok (h : Plan.of s now = .ok p) :
    s.definitions now.year = .ok p.playlists := (steps_of_eq_ok h).2.1

/-- Every token of a plan is what its text means at the plan's reference. -/
theorem resolves (h : Plan.of s now = .ok p) : ∀ t ∈ p.tokens.tokens, t.Resolves p.reference := by
  obtain ⟨tokens, ranking, htokens, hranking, heq⟩ := tokens_of_eq_ok h
  intro t ht
  rw [heq] at ht
  rcases TokenSet.mem_tokens_insertAll ht with ht | ht
  · exact TokenSet.resolves_of_ofTexts htokens t ht
  · exact TokenSet.resolves_of_ofTexts hranking t ht

/-- The tokens of a plan have canonical texts. -/
theorem canonical_of_mem_texts (h : Plan.of s now = .ok p) :
    ∀ name ∈ p.tokens.texts, Token.canonical name = name := by
  obtain ⟨tokens, ranking, htokens, hranking, heq⟩ := tokens_of_eq_ok h
  intro name hname
  rw [heq] at hname
  rcases TokenSet.mem_texts_insertAll.1 hname with hname | hname
  · exact TokenSet.canonical_of_mem_texts htokens name hname
  · exact TokenSet.canonical_of_mem_texts hranking name hname

/-- Every token in a template of a plan is found, whatever its spelling. -/
theorem exists_get?_of_group (h : Plan.of s now = .ok p) {g : Group} (hg : g ∈ p.groups)
    {inner : List Char} (hinner : .token inner ∈ Token.pieces g.template.toList) :
    ∃ t, p.tokens.get? (String.ofList (Token.canonicalChars inner)) = some t := by
  obtain ⟨tokens, ranking, htokens, _, heq⟩ := tokens_of_eq_ok h
  rw [(settings_of_eq_ok h).2.2.2] at hg
  obtain ⟨stats, hstats, rfl⟩ := List.mem_map.1 hg
  have hspelling : Token.canonical (String.ofList inner) =
      String.ofList (Token.canonicalChars inner) := by
    rw [Token.canonical, String.toList_ofList]
  have htext : Token.canonical (String.ofList inner) ∈ s.tokenTexts := by
    apply List.mem_append_left
    rw [List.mem_flatMap]
    refine ⟨stats, hstats, List.mem_filterMap.2 ⟨.token inner, hinner, ?_⟩⟩
    rw [hspelling]
  rw [← hspelling, heq]
  apply TokenSet.exists_get?_of_mem_texts
  exact TokenSet.mem_texts_insertAll.2 (Or.inl (TokenSet.mem_texts_of_ofTexts htokens htext))

/-- Settings without problems have a midnight offset that histories can be read with. -/
theorem exists_format (h : Plan.of s now = .ok p) : ∃ format, p.format = .ok format := by
  obtain ⟨hproblems, hsettings, _, _⟩ := settings_of_eq_ok h
  have hoffset : ¬ (s.engine.midnightOffset < -History.maxOffset ||
      History.maxOffset < s.engine.midnightOffset) := by
    intro hwrong
    simp only [Settings.problems, Settings.Engine.problems, Settings.Problem.when,
      List.append_eq_nil_iff, hwrong, if_true] at hproblems
    exact List.cons_ne_nil _ _ hproblems.1.1.1.1.1.2
  simp only [Bool.or_eq_true, decide_eq_true_eq, not_or, Int.not_lt] at hoffset
  unfold format History.Format.of
  rw [hsettings, if_pos hoffset]
  exact ⟨_, rfl⟩

/-! ### Records counted by a plan -/

/-- A token is counted from the plays, not from other statistics. -/
theorem evaluate_with_statistics (token : Token) (r : Record) (statistics : Statistics)
    (c : Context) : token.evaluate { r with statistics } c = token.evaluate r c := by
  cases token <;> rfl

/-- A record has the value of each token under the token's text. -/
theorem get?_statistics (p : Plan) (c : Context) (file : File) (plays : List Instant) {t : NamedToken}
    (ht : t ∈ p.tokens.tokens) :
    (p.record c file plays).statistics.get? t.text =
      some (t.token.evaluate (p.record c file plays) c) := by
  unfold record
  rw [evaluate_with_statistics]
  exact TokenSet.get?_evaluate _ c ht

end Plan

end Jukebox
