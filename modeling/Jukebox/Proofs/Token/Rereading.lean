import Jukebox.Proofs.Token.Collection
import Jukebox.Proofs.Token.Spelling
import Jukebox.Settings.Basic

/-!
Reading a text again by its canonical text. A text that spells a token is read in the same way once
more (`Expr.ofText_canonical_of_eq_ok`), but brackets behind blanks outlast the first canonical
text and not the second: `[ [total] ]` spells nothing, while its canonical text `[total]` spells a
token. So a text and its canonical text are read alike exactly if this one does not begin or end
with a bracket (`Expr.ofText_canonical_eq_iff`, `canonical_canonical_eq_iff`).

Settings have the tokens of their playlists read by canonical texts when tokens are collected, and
as written when playlists are expanded. Where the former succeeds, the latter fails exactly at such
brackets (`Settings.definitions_of_ofTexts`).
-/

set_option autoImplicit false
set_option relaxedAutoImplicit false

namespace Jukebox

open Text

namespace Token

/-- A canonical text is its own canonical text unless it has a bracket to lose. -/
theorem canonical_canonical_eq_iff (text : String) :
    canonical (canonical text) = canonical text ↔
      (canonical text).toList.head? ≠ some '[' ∧ (canonical text).toList.getLast? ≠ some ']' := by
  have hsettled : ∀ c ∈ (canonical text).toList, IsSettled c := fun c hc ↦
    isSettled_of_mem_canonicalChars (toList_canonical text ▸ hc)
  rw [← stripBrackets_eq_self_iff, ← canonicalChars_of_settled hsettled, ← toList_canonical,
    String.toList_inj]

namespace Expr

theorem canonical_canonical_of_ofText_eq_ok {text : String} {e : Expr} (h : ofText text = .ok e) :
    canonical (canonical text) = canonical text := by
  obtain ⟨f, hderives⟩ := Grammar.exists_derives_of_exprOfText h
  exact hderives.canonical_eq

/-- What a text spells, its canonical text spells as well. -/
theorem ofText_canonical_of_eq_ok {text : String} {e : Expr} (h : ofText text = .ok e) :
    ofText (canonical text) = .ok e := by
  rw [ofText_congr (canonical_canonical_of_ofText_eq_ok h), h]

/-- The error about a text that spells nothing. -/
theorem ofText_eq_error {text : String} {e : TokenError} (h : ofText text = .error e) :
    e = if canonical text = "" then .empty else .unknown (canonical text) := by
  have hnil : canonical text = "" ↔ canonicalChars text.toList = [] := by
    rw [← String.toList_inj, toList_canonical, String.toList_empty]
  rw [Expr.ofText] at h
  split at h
  · rename_i hempty
    rw [if_pos (hnil.2 hempty), ← Except.error.inj h]
  · rename_i hne
    split at h
    · cases h
    · rw [if_neg fun hempty ↦ hne (hnil.1 hempty), ← Except.error.inj h, canonical]

/-- An error names the canonical text, so that a text is read alike by its canonical text only if
this is its own. -/
theorem ofText_canonical_eq_iff (text : String) :
    ofText (canonical text) = ofText text ↔ canonical (canonical text) = canonical text := by
  refine ⟨fun h ↦ ?_, ofText_congr⟩
  cases hread : ofText text with
  | ok e => exact canonical_canonical_of_ofText_eq_ok hread
  | error e =>
    rw [hread] at h
    have hname := (ofText_eq_error h).symm.trans (ofText_eq_error hread)
    by_cases hempty : canonical text = ""
    · rw [hempty]
      rfl
    · rw [if_neg hempty] at hname
      split at hname
      · cases hname
      · exact TokenError.unknown.inj hname

end Expr

end Token

/-! ### Playlists as written -/

namespace Definition

/-- A playlist is refused with the error of its token, and only then. -/
theorem expand_eq_error_iff {name token : String} {max : Nat} {first last : Int}
    {e : TokenError} :
    expand name token max first last = .error e ↔ Token.Expr.ofText token = .error e := by
  rw [expand, Traversal.bind_eq_error_iff]
  refine or_iff_left ?_
  rintro ⟨expr, _, h⟩
  split at h <;> cases h

theorem exists_expand_iff {name token : String} {max : Nat} {first last : Int} :
    (∃ ds, expand name token max first last = .ok ds) ↔ ∃ e, Token.Expr.ofText token = .ok e := by
  have herror := @expand_eq_error_iff name token max first last
  cases hexpand : expand name token max first last <;>
    cases hread : Token.Expr.ofText token <;> simp_all

end Definition

namespace Settings

open Token

variable {s : Settings} {r : Reference} {tokens : TokenSet} {year : Int}

theorem exists_definitions_iff :
    (∃ ds, s.definitions year = .ok ds) ↔
      ∀ q ∈ s.playlists, ∃ e, Expr.ofText q.token = .ok e := by
  constructor
  · rintro ⟨ds, h⟩ q hq
    obtain ⟨expanded, hall, _⟩ := Traversal.map_eq_ok_iff.1 h
    exact Definition.exists_expand_iff.1 (Traversal.exists_mapM_eq_ok_iff.1 ⟨expanded, hall⟩ q hq)
  · intro h
    obtain ⟨expanded, hall⟩ := Traversal.exists_mapM_eq_ok fun q hq ↦
      Definition.exists_expand_iff.2 (h q hq)
    exact ⟨expanded.flatten, Traversal.map_eq_ok_iff.2 ⟨expanded, hall, rfl⟩⟩

theorem exists_ofText_eq_error {e : TokenError} (h : s.definitions year = .error e) :
    ∃ q ∈ s.playlists, Expr.ofText q.token = .error e := by
  obtain ⟨q, hq, hexpand⟩ := Traversal.exists_mem_eq_error (Traversal.map_eq_error_iff.1 h)
  exact ⟨q, hq, Definition.expand_eq_error_iff.1 hexpand⟩

/-- What a collection reads for a playlist is the canonical text of its token. -/
theorem exists_ofText_canonical (h : TokenSet.ofTexts s.tokenTexts r = .ok tokens)
    {q : Playlist} (hq : q ∈ s.playlists) : ∃ e, Expr.ofText (canonical q.token) = .ok e := by
  have hmem : canonical q.token ∈ s.tokenTexts :=
    List.mem_append_right _ (List.mem_map_of_mem hq)
  obtain ⟨entry, _, hread⟩ := TokenSet.exists_get?_of_ofTexts h hmem
  obtain ⟨_, e, hread, _⟩ := NamedToken.ofText_eq_ok hread
  rw [Expr.ofText_congr (canonical_thrice q.token)] at hread
  exact ⟨e, hread⟩

/-- Where the tokens have been collected, a playlist can be expanded exactly if the canonical text
of its token is its own. -/
theorem exists_ofText_iff_of_collected (h : TokenSet.ofTexts s.tokenTexts r = .ok tokens)
    {q : Playlist} (hq : q ∈ s.playlists) :
    (∃ e, Expr.ofText q.token = .ok e) ↔ canonical (canonical q.token) = canonical q.token := by
  refine ⟨fun ⟨e, hread⟩ ↦ Expr.canonical_canonical_of_ofText_eq_ok hread, fun hsettled ↦ ?_⟩
  rw [← Expr.ofText_congr hsettled]
  exact exists_ofText_canonical h hq

/-- The error about a playlist whose token has been collected. -/
theorem eq_unknown_of_collected (h : TokenSet.ofTexts s.tokenTexts r = .ok tokens)
    {q : Playlist} (hq : q ∈ s.playlists) {e : TokenError}
    (hread : Expr.ofText q.token = .error e) : e = .unknown (canonical q.token) := by
  obtain ⟨expr, hcollected⟩ := exists_ofText_canonical h hq
  have hne : canonical q.token ≠ "" := by
    intro hempty
    rw [hempty] at hcollected
    cases hcollected
  rw [Expr.ofText_eq_error hread, if_neg hne]

/-- Canonical texts are settled at the second time. A text and its canonical text are read alike
exactly if the first time has settled it, that is, left no bracket at its ends; and so, for the
tokens of collected settings, exactly if the playlists can be expanded as written. -/
theorem canonical_and_definitions_settled (text : String) (s : Settings) (r : Reference)
    (year : Int) :
    canonical (canonical (canonical text)) = canonical (canonical text) ∧
      (canonical (canonical text) = canonical text ↔
        (canonical text).toList.head? ≠ some '[' ∧ (canonical text).toList.getLast? ≠ some ']') ∧
      (Expr.ofText (canonical text) = Expr.ofText text ↔
        canonical (canonical text) = canonical text) ∧
      (∀ e, Expr.ofText text = .ok e → Expr.ofText (canonical text) = .ok e) ∧
      ∀ tokens, TokenSet.ofTexts s.tokenTexts r = .ok tokens →
        ((∃ ds, s.definitions year = .ok ds) ↔
          ∀ q ∈ s.playlists, canonical (canonical q.token) = canonical q.token) ∧
        ∀ e, s.definitions year = .error e → ∃ q ∈ s.playlists,
          canonical (canonical q.token) ≠ canonical q.token ∧ e = .unknown (canonical q.token) := by
  refine ⟨canonical_thrice text, canonical_canonical_eq_iff text, Expr.ofText_canonical_eq_iff text,
    fun e ↦ Expr.ofText_canonical_of_eq_ok, fun tokens h ↦ ⟨?_, fun e herror ↦ ?_⟩⟩
  · rw [exists_definitions_iff]
    exact forall₂_congr fun q hq ↦ exists_ofText_iff_of_collected h hq
  · obtain ⟨q, hq, hread⟩ := exists_ofText_eq_error herror
    refine ⟨q, hq, fun hsettled ↦ ?_, eq_unknown_of_collected h hq hread⟩
    obtain ⟨e', hok⟩ := (exists_ofText_iff_of_collected h hq).2 hsettled
    rw [hread] at hok
    cases hok

theorem canonical_and_definitions_settled_nested_brackets :
    let s : Settings := { playlists := [⟨"All", "[ [total] ]", 100⟩] }
    let r : Reference := ⟨.midnight ⟨Calendar.yearStart 2024 + 59, by decide⟩, .monday⟩
    canonical "[ [total] ]" = "[total]" ∧ canonical "[total]" = "total" ∧
      Expr.ofText "[ [total] ]" ≠ Expr.ofText "[total]" ∧
      ∃ tokens, TokenSet.ofTexts s.tokenTexts r = .ok tokens ∧
        s.definitions 2024 = .error (.unknown "[total]") := by
  intro s r
  have hname : canonical "[ [total] ]" = "[total]" := by decide +kernel
  have hinner : canonical "[total]" = "total" := by decide +kernel
  obtain ⟨_, _, hread, _, hsettings⟩ := canonical_and_definitions_settled "[ [total] ]" s r 2024
  rw [hname, hinner] at hread
  have hunsettled : ¬"total" = "[total]" := by decide
  refine ⟨hname, hinner, fun h ↦ hunsettled (hread.1 h.symm), ?_⟩
  obtain ⟨tokens, htokens⟩ := Traversal.exists_eq_ok_of_isOk
    (x := TokenSet.ofTexts s.tokenTexts r) (by decide +kernel)
  obtain ⟨haccepted, herrors⟩ := hsettings tokens htokens
  refine ⟨tokens, htokens, ?_⟩
  cases hdefs : s.definitions 2024 with
  | ok ds =>
    have hall := haccepted.1 ⟨ds, hdefs⟩ _ List.mem_cons_self
    rw [hname, hinner] at hall
    exact absurd hall hunsettled
  | error e =>
    obtain ⟨q, hq, _, rfl⟩ := herrors e hdefs
    obtain rfl := List.mem_singleton.1 hq
    rw [hname]

end Settings

end Jukebox
